import Ritex.ModeTracking
import Ritex.DeviceCommands

/-! The window in which the station is asked to let itself be captured, right behind the information
that it has sent: when the processor keeps to it. -/
namespace Ritex
open Interaction

def Wait.brings (cmd : Word) : Wait → Bool
  | .ok f => f.cmd.setWidth 16 = cmd
  | .error _ => false

structure CaptureTrack where
  /-- The last read brought an `ACK_INFO`. -/
  informed : Bool
  /-- `STATE_CAPTURE_DEVICE` was entered last. -/
  capturing : Bool
  /-- The password was written and nothing has been read since. -/
  asked : Bool
  /-- The settings came in reply to the password. -/
  granted : Bool

def CaptureTrack.next (t : CaptureTrack) : Event Op Res → CaptureTrack
  | ⟨.enter state, _⟩ =>
    { t with capturing := state = .captureDevice, asked := false, granted := false }
  | ⟨.write .setPassword _, _⟩ => { t with asked := true }
  | ⟨.wait _, r⟩ => { t with
      informed := r.1.brings ackInfo
      asked := false
      granted := t.granted || (t.asked && r.1.brings ackAllSettings) }
  | _ => t

def captureTrack (h : History) : CaptureTrack :=
  h.foldl CaptureTrack.next ⟨false, false, false, false⟩

theorem captureTrack_snoc (h : History) (e : Event Op Res) :
    captureTrack (h ++ [e]) = (captureTrack h).next e := by
  rw [captureTrack, List.foldl_append]
  rfl

def Op.RequestsDevice (o : Op) : Prop :=
  ∃ writer packet, o = .write writer packet ∧ packet.cmd = reqDeviceReq

/-- The read before a `REQ_DEVICE_REQ` brought an `ACK_INFO`. -/
def InWindow (h : History) : Prop :=
  ∀ before e after, h = before ++ e :: after → e.1.RequestsDevice →
    (captureTrack before).informed = true

/-- The main loop goes on after a visit to `STATE_CAPTURE_DEVICE` only if the station has granted the
capture and sent its settings, or has sent an `ACK_INFO` in place of its last reply. -/
def GoesOnCaptured (h : History) : Prop :=
  ∀ before e after, h = before ++ e :: after → e = ⟨.loopTest, true⟩ →
    (captureTrack before).capturing = true →
      (captureTrack before).granted = true ∨ (captureTrack before).informed = true

def CustomCommand.FromServer (c : CustomCommand) : Prop :=
  ∃ device x cmd, (execute device x cmd).1 = .queued c

/-- The commands in the queue are those of the server. -/
def ServerQueue (h : History) : Prop :=
  ∀ c : CustomCommand, (⟨.popFront, some c⟩ : Event Op Res) ∈ h → c.FromServer

theorem customCommandPacket_unrequesting {cmd p1 : Byte} {p2 : Word} {now : ℤ} {packet : DataPacket}
    (h : customCommandPacket cmd p1 p2 now = some packet) : packet.cmd ≠ reqDeviceReq := by
  simp only [customCommandPacket] at h
  split_ifs at h with hset hon hoff hrotation <;> obtain rfl := Option.some.inj h
  · exact ne_of_eq_of_ne hset (by decide)
  · exact ne_of_eq_of_ne hon (by decide)
  · exact ne_of_eq_of_ne hoff (by decide)
  · exact ne_of_eq_of_ne hrotation (by decide)

theorem CustomCommand.FromServer.cmd {c : CustomCommand} (h : c.FromServer) :
    c.dataPacket.cmd ≠ reqDeviceReq := by
  obtain ⟨device, x, cmd, hexecute⟩ := h
  cases cmd with
  | testDevice commport speed =>
    have hqueued : (testDevice device x).1 = some c := by
      simp only [execute] at hexecute
      split at hexecute
      next heq =>
        cases hexecute
        exact heq
      next => cases hexecute
    unfold testDevice at hqueued
    split at hqueued
    · cases hqueued
    · obtain ⟨-, hc⟩ := Option.ite_none_right_eq_some.mp hqueued
      cases hc
      show reqInfoRequestMode0 ≠ reqDeviceReq
      decide
  | external e commport speed =>
    have hqueued : (executeCustomCommand device x e).1 = some c := by
      simp only [execute] at hexecute
      split at hexecute
      next heq =>
        cases hexecute
        exact heq
      next => cases hexecute
    unfold executeCustomCommand at hqueued
    split at hqueued
    · cases hqueued
    next packet hpacket =>
      split at hqueued
      · cases hqueued
        exact customCommandPacket_unrequesting hpacket
      · obtain ⟨-, hc⟩ := Option.ite_none_right_eq_some.mp hqueued
        cases hc
        exact customCommandPacket_unrequesting hpacket
  | startMeasurement commport speed =>
    simp only [execute] at hexecute
    split at hexecute <;> cases hexecute
  | showInfo | showParameters | getAdditionalParameters | getSupportedCommands => cases hexecute

/-! ### Specifications -/

structure Regular (h : History) : Prop where
  queue : ServerQueue h
  goesOn : GoesOnCaptured h

theorem Regular.of_snoc {h : History} {e : Event Op Res} (hr : Regular (h ++ [e])) : Regular h := by
  constructor
  · exact fun c hc => hr.queue c (List.mem_append_left _ hc)
  · exact ((forall_split_snoc h e).mp hr.goesOn).1

/-- The history keeps to the window as far as it is regular, and `J` holds of its track. -/
structure Kept (J : CaptureTrack → Prop) (h : History) : Prop where
  inWindow : Regular h → InWindow h
  track : J (captureTrack h)

abbrev Watched {α : Type} (x : ProcessorM α) (Q : α → History → Prop) (h : History) : Prop :=
  x.Safe (historyEnv Op Res) (fun h => Regular h → InWindow h) Q h

variable {J : CaptureTrack → Prop}

theorem Kept.snoc {J' : CaptureTrack → Prop} {h : History} (hk : Kept J h) {e : Event Op Res}
    (he : e.1.RequestsDevice → (captureTrack h).informed = true)
    (hJ : J (captureTrack h) → J' ((captureTrack h).next e)) : Kept J' (h ++ [e]) := by
  constructor
  · exact fun hr => (forall_split_snoc h e).mpr ⟨hk.inWindow hr.of_snoc, he⟩
  · rw [captureTrack_snoc]
    exact hJ hk.track

def Op.Keeps (J : CaptureTrack → Prop) (o : Op) : Prop :=
  ¬o.RequestsDevice ∧ ∀ t r, J t → J (t.next ⟨o, r⟩)

theorem Kept.only {h : History} (hk : Kept J h) {α : Type} {x : ProcessorM α}
    (hx : x.Only (Op.Keeps J)) : Watched x (fun _ => Kept J) h :=
  hx.safe_history (fun _ hk => hk.inWindow)
    (fun _ ho _ hk r => hk.snoc (fun he => absurd he ho.1) (ho.2 _ r)) hk

def Op.Unrequesting (o : Op) : Prop := ¬o.RequestsDevice

theorem unrequesting_of_ne {o : Op} (ho : ∀ writer packet, o ≠ .write writer packet) : o.Unrequesting := by
  rintro ⟨writer, packet, heq, -⟩
  exact ho writer packet heq

theorem unrequesting_of_ordinary (o : Op) (ho : o.Ordinary) : o.Unrequesting := by
  rintro ⟨writer, packet, rfl, -⟩
  exact ho.1

theorem unrequesting_write {writer : Writer} {packet : DataPacket} (h : packet.cmd ≠ reqDeviceReq) :
    (Op.write writer packet).Unrequesting := by
  rintro ⟨_, _, heq, hcmd⟩
  cases heq
  exact h hcmd

theorem Op.Unrequesting.keeps {o : Op} (ho : o.Unrequesting) : o.Keeps fun _ => True :=
  ⟨ho, fun _ _ _ => trivial⟩

theorem ordinary_keeps (o : Op) (ho : o.Ordinary) : o.Keeps fun _ => True :=
  (unrequesting_of_ordinary o ho).keeps

theorem Kept.perform {h : History} (hk : Kept J h) {o : Op} (ho : o.Keeps J) :
    Watched (Prog.perform o) (fun _ => Kept J) h :=
  hk.only (x := Prog.perform o) ⟨ho, fun _ => trivial⟩

/-- Nothing is promised of a run that is not regular. -/
theorem watched_of_not_regular {α : Type} {x : ProcessorM α} {h : History} (hn : ¬Regular h) :
    Watched x (fun _ h' => ¬Regular h') h := by
  have honly : x.Only fun _ => True := Prog.only_of_forall (fun _ => trivial) x
  exact honly.safe_history (fun _ hn hr => absurd hr hn) (fun _ _ _ hn _ hr => hn hr.of_snoc) hn

/-- The station has not granted the capture yet. -/
structure CaptureTrack.Pending (t : CaptureTrack) : Prop where
  capturing : t.capturing = true
  asked : t.asked = false
  granted : t.granted = false

theorem keepsPending_ordinary (o : Op) (ho : o.Ordinary) : o.Keeps CaptureTrack.Pending := by
  refine ⟨unrequesting_of_ordinary o ho, fun t r ht => ?_⟩
  cases o with
  | wait timeout => exact ⟨ht.capturing, rfl, by simp [CaptureTrack.next, ht.asked, ht.granted]⟩
  | time | uninitialised | heap | timeDiviation | reportEvent | enqueData | crash => exact ht
  | _ => exact ho.1.elim

namespace Processor

/-! ### Capture -/

theorem captureDevice_watched (p : Processor) {h : History} (hk : Kept CaptureTrack.Pending h)
    (hinformed : (captureTrack h).informed = true) :
    Watched p.captureDevice (fun _ => Kept CaptureTrack.Pending) h := by
  have hP := keepsPending_ordinary
  refine Prog.safe_history_op fun now => ?_
  have hk₁ : Kept CaptureTrack.Pending (h ++ [⟨.time, now⟩]) :=
    hk.snoc (fun he => absurd he (hP .time ⟨trivial, by simp⟩).1) id
  refine ⟨hk₁.inWindow, Prog.safe_history_op fun r => ?_⟩
  have hk₂ : Kept CaptureTrack.Pending
      ((h ++ [⟨.time, now⟩]) ++ [⟨.write .captureDevice (captureDevicePacket now), r⟩]) := by
    refine hk₁.snoc (fun _ => ?_) id
    rw [captureTrack_snoc]
    exact hinformed
  refine ⟨hk₂.inWindow, hk₂.only ?_⟩
  refine wait_only hP p ksuInactivityTimeout fun received hreceived => ?_
  dsimp only
  split
  next herror =>
    refine deref_only (hreceived herror) fun packet _ => ?_
    split
    · exact (readData_only hP packet _).bind fun _ => trivial
    · trivial
  next => trivial

theorem getPasswords_watched (p : Processor) {h : History} (hk : Kept CaptureTrack.Pending h) :
    Watched p.getPasswords (fun _ => Kept CaptureTrack.Pending) h := by
  refine hk.only (getPasswords_only keepsPending_ordinary (fun now => ⟨?_, fun _ _ ht => ht⟩) p)
  exact unrequesting_write (show reqPasswordGet ≠ reqDeviceReq by decide)

/-- The password is answered with the settings, or it was not granted. -/
theorem setPassword_watched (p : Processor) (password : Word) {h : History}
    (hk : Kept CaptureTrack.Pending h) :
    Watched (p.setPassword password) (fun result h' =>
      ((∃ settings : DataPacket, result = (true, some settings) ∧ settings.cmd = ackAllSettings) ∧
        Kept (fun _ => True) h') ∨
      ((∃ b, result = (b, none)) ∧ Kept CaptureTrack.Pending h')) h := by
  have hP := keepsPending_ordinary
  unfold setPassword
  refine (hk.only (x := Prog.perform Op.uninitialised) ⟨hP _ ⟨trivial, by simp⟩, fun _ => trivial⟩).bind
    fun result h₁ hk₁ => ?_
  refine (hk₁.only (time_only hP)).bind fun now h₂ hk₂ => ?_
  refine Prog.safe_history_op fun r => ?_
  have hk₃ : Kept (fun t => t.capturing = true ∧ t.granted = false)
      (h₂ ++ [⟨.write .setPassword (setSettingPacket 44 password now), r⟩]) := by
    refine hk₂.snoc (fun he => absurd he (unrequesting_write ?_)) fun ht => ⟨ht.capturing, ht.granted⟩
    exact show reqSettingSet ≠ reqDeviceReq by decide
  refine ⟨hk₃.inWindow, Prog.safe_history_op fun (w, received) => ?_⟩
  have hwait : (Op.wait ksuInactivityTimeout).Unrequesting := unrequesting_of_ne (by simp)
  have hsettings : Kept (fun _ => True) _ :=
    hk₃.snoc (e := ⟨.wait ksuInactivityTimeout, (w, received)⟩) (fun he => absurd he hwait)
      fun _ => trivial
  have hpending : w.brings ackAllSettings = false → Kept CaptureTrack.Pending _ := fun hw =>
    hk₃.snoc (e := ⟨.wait ksuInactivityTimeout, (w, received)⟩) (fun he => absurd he hwait)
      fun ⟨hcapturing, hgranted⟩ => ⟨hcapturing, rfl, by
        show (_ || (_ && w.brings ackAllSettings)) = false
        rw [hgranted, hw, Bool.and_false, Bool.or_false]⟩
  refine ⟨hsettings.inWindow, ?_⟩
  cases w with
  | error e => cases e <;> exact .inr ⟨⟨_, rfl⟩, hpending rfl⟩
  | ok f =>
    show Watched (if (f.packet p.writeMode received).cmd = ackAck then _ else _) _ _
    have hcmd := f.getCmd_packet p.writeMode received
    split
    next hack =>
      rw [hack] at hcmd
      have hnone : Wait.brings ackAllSettings (.ok f) = false :=
        decide_eq_false (by rw [← hcmd]; decide)
      exact ((hpending hnone).only (readData_only hP _ _)).bind fun _ _ hk => .inr ⟨⟨_, rfl⟩, hk⟩
    next =>
      split
      next hall => exact .inl ⟨⟨_, rfl, hall⟩, hsettings⟩
      next hother =>
        refine .inr ⟨⟨_, rfl⟩, hpending (decide_eq_false fun hf => ?_)⟩
        rw [← hcmd] at hf
        exact hother (longCmd_eq_of_getCmd hf)

/-! ### The visit once the settings have come -/

theorem drainRound_watched (cfg : ProcessorConfig) (p : Processor) {h : History}
    (hk : Kept (fun _ => True) h) : Watched (p.drainRound cfg) (fun _ => Kept fun _ => True) h := by
  have hkeeps : ∀ {o : Op}, (∀ writer packet, o ≠ .write writer packet) → o.Keeps fun _ => True :=
    fun ho => (unrequesting_of_ne ho).keeps
  unfold drainRound
  refine (hk.perform (hkeeps (by simp))).bind fun _ h₁ hk₁ => ?_
  refine Prog.safe_history_op fun pending => ?_
  have hk₂ : Kept (fun _ => True) (h₁ ++ [⟨.popFront, pending⟩]) :=
    hk₁.snoc (fun he => absurd he (unrequesting_of_ne (by simp))) id
  refine ⟨hk₂.inWindow, ?_⟩
  cases pending with
  | none => exact (hk₂.perform (hkeeps (by simp))).bind fun _ _ hk => hk
  | some c =>
    by_cases hc : c.FromServer
    · refine (hk₂.perform (hkeeps (by simp))).bind fun _ h₃ hk₃ => ?_
      have hinfo : ∀ now, (Op.write .requestCurrentData (requestCurrentDataPacket now)).Unrequesting :=
        fun _ => unrequesting_write (show reqInfo ≠ reqDeviceReq by decide)
      have honly := processCommand_only ordinary_keeps (fun _ => hkeeps (by simp))
        (fun now => (hinfo now).keeps) cfg p c (unrequesting_write hc.cmd).keeps
      refine (hk₃.perform (hkeeps (by simp))).bind fun _ h₄ hk₄ => ?_
      refine (hk₄.only honly).bind fun _ h₅ hk₅ => ?_
      exact (hk₅.perform (hkeeps (by simp))).bind fun _ _ hk => hk
    · have hn : ¬Regular (h₁ ++ [⟨.popFront, some c⟩]) := fun hr =>
        hc (hr.queue c (List.mem_append_right _ (List.mem_singleton.mpr rfl)))
      exact (watched_of_not_regular hn).mono fun _ _ hn => ⟨fun hr => absurd hr hn, trivial⟩

theorem captured_watched (cfg : ProcessorConfig) (fuel : ℕ) (p : Processor) {settings : DataPacket}
    (hsettings : settings.cmd = ackAllSettings) {h : History} (hk : Kept (fun _ => True) h) :
    Watched (p.captured cfg fuel settings) (fun _ => Kept fun _ => True) h := by
  have hset : ∀ mode now, (Op.write .changeMode (setSettingPacket 45 mode now)).Unrequesting :=
    fun _ _ => unrequesting_write (show reqSettingSet ≠ reqDeviceReq by decide)
  have hinfo : ∀ now, (Op.write .requestCurrentData (requestCurrentDataPacket now)).Unrequesting :=
    fun _ => unrequesting_write (show reqInfo ≠ reqDeviceReq by decide)
  unfold captured
  refine (hk.only (readData_only ordinary_keeps settings _)).bind fun writeMode h₁ hk₁ => ?_
  refine (hk₁.only (checkSettings_only ordinary_keeps cfg _ hsettings)).bind fun p h₂ hk₂ => ?_
  refine (Prog.Safe.loop (J := fun _ => Kept fun _ => True) (Q := fun _ => Kept fun _ => True)
    (fun p h hk => (drainRound_watched cfg p hk).mono fun x _ hk => ?_) fuel hk₂).bind
    fun p h₃ hk₃ => ?_
  · cases x <;> exact hk
  refine (hk₃.only (time_only ordinary_keeps)).bind fun now h₄ hk₄ => ?_
  split
  · have hcycle := modeCycle_only ordinary_keeps (unrequesting_of_ne (by simp)).keeps
      (fun mode now => (hset mode now).keeps) (fun now => (hinfo now).keeps) cfg p
      [1, 2, 3, 4, 5, 6, 7]
    refine (hk₄.only hcycle).bind fun _ h₅ hk₅ => ?_
    exact (hk₅.only (time_only ordinary_keeps)).bind fun _ _ hk => hk
  · exact hk₄

theorem captured_nextState (cfg : ProcessorConfig) (fuel : ℕ) (p : Processor)
    (settings : DataPacket) :
    (p.captured cfg fuel settings).Ensures fun q => q.nextState = .processKsuTraffic := by
  unfold captured
  refine ensures_then _ fun writeMode => ensures_then _ fun p => ensures_then _ fun q => ?_
  refine ensures_then _ fun now => ?_
  split
  · exact ensures_then _ fun _ => ensures_then _ fun _ => rfl
  · exact rfl

end Processor

/-- The station is asked in the next round only if the window is open, or the capture failed. -/
structure Ready (p : Processor) (h : History) : Prop where
  kept : Kept (fun _ => True) h
  capture : Regular h → p.nextState = .captureDevice → (captureTrack h).informed = true ∨
    (captureTrack h).capturing = true ∧ (captureTrack h).granted = false

theorem Ready.snoc {p : Processor} {h : History} (hready : Ready p h) {e : Event Op Res}
    (he : e.1.Unrequesting) (ht : (captureTrack h).next e = captureTrack h) : Ready p (h ++ [e]) := by
  refine ⟨hready.kept.snoc (fun hrequests => absurd hrequests he) id, fun hr hnext => ?_⟩
  rw [captureTrack_snoc, ht]
  exact hready.capture hr.of_snoc hnext

theorem ready_of_not_regular {h : History} (hn : ¬Regular h) (p : Processor) : Ready p h :=
  ⟨⟨fun hr => absurd hr hn, trivial⟩, fun hr => absurd hr hn⟩

theorem Kept.ready {h : History} (hk : Kept J h) {p : Processor}
    (hp : p.nextState = .processKsuTraffic) : Ready p h := by
  refine ⟨⟨hk.inWindow, trivial⟩, fun _ hnext => ?_⟩
  rw [hp] at hnext
  cases hnext

theorem Kept.ready_pending {h : History} (hk : Kept CaptureTrack.Pending h) (p : Processor) :
    Ready p h :=
  ⟨⟨hk.inWindow, trivial⟩, fun _ _ => .inr ⟨hk.track.capturing, hk.track.granted⟩⟩

/-- What a round leaves: the window was kept to, and the next round may begin. -/
def RoundDone (x : Processor ⊕ Processor) (h : History) : Prop :=
  Kept (fun _ => True) h ∧ ∀ q, x = .inl q → Ready q h

theorem Ready.roundDone {q : Processor} {h : History} (hq : Ready q h) : RoundDone (.inl q) h := by
  refine ⟨hq.kept, ?_⟩
  rintro _ ⟨rfl⟩
  exact hq

namespace Processor

theorem processCapture_watched (cfg : ProcessorConfig) (fuel : ℕ) (p : Processor) {h : History}
    (hk : Kept CaptureTrack.Pending h) (hinformed : (captureTrack h).informed = true) :
    Watched (p.processCapture cfg fuel) Ready h := by
  unfold processCapture
  refine (captureDevice_watched p hk hinformed).bind fun result h₁ hk₁ => ?_
  split
  · refine (getPasswords_watched p hk₁).bind fun passwords h₂ hk₂ => ?_
    cases passwords with
    | none => exact hk₂.ready_pending p
    | some passwords =>
      refine (setPassword_watched p _ hk₂).bind fun r h₃ hr => ?_
      rcases hr with ⟨⟨settings, rfl, hsettings⟩, hk₃⟩ | ⟨⟨b, rfl⟩, hk₃⟩
      · exact ((captured_watched cfg fuel p hsettings hk₃).ensures
          (captured_nextState cfg fuel p settings)).mono fun q _ hq => hq.2.ready hq.1
      · cases b <;> exact hk₃.ready_pending p
  · exact hk₁.ready_pending p

/-! ### Traffic -/

theorem reportEvents_informed (events : List DBEventCommon) :
    (reportEvents events).Only (Op.Keeps (·.informed = true)) := by
  induction events with
  | nil => trivial
  | cons event events ih => exact ⟨⟨unrequesting_of_ne (by simp), fun _ _ => id⟩, fun _ => ih⟩

theorem reportMotor_informed (cfg : ProcessorConfig) (oldStatus newStatus : Byte) :
    (reportMotor cfg oldStatus newStatus).Only (Op.Keeps (·.informed = true)) := by
  unfold reportMotor
  split
  · exact ⟨⟨unrequesting_of_ne (by simp), fun _ _ => id⟩, fun _ => reportEvents_informed _⟩
  · trivial

theorem needCapture_informed (p : Processor) :
    p.needCapture.Only (Op.Keeps (·.informed = true)) := by
  refine ⟨⟨unrequesting_of_ne (by simp), fun _ _ => id⟩, fun empty => ?_⟩
  cases empty with
  | true => exact ⟨⟨unrequesting_of_ne (by simp), fun _ _ => id⟩, fun _ => trivial⟩
  | false => trivial

theorem captureOrReport_watched (cfg : ProcessorConfig) {p : Processor}
    (hp : p.nextState = .processKsuTraffic) (packet : DataPacket) {h : History}
    (hk : Kept (·.informed = true) h) : Watched (p.captureOrReport cfg packet) Ready h := by
  unfold captureOrReport
  refine (hk.only (needCapture_informed p)).bind fun need h₁ hk₁ => ?_
  split
  · exact ⟨⟨hk₁.inWindow, trivial⟩, fun _ _ => .inl hk₁.track⟩
  · have hk₂ : Kept (fun _ => True) h₁ := ⟨hk₁.inWindow, trivial⟩
    have honly := (checkPacket_only ordinary_keeps cfg p packet).bind
      fun q => captureData_only ordinary_keeps cfg q packet
    refine ((hk₂.only honly).ensures (reportPacket_sameModes cfg p packet)).mono fun q _ hq => ?_
    exact hq.2.ready (hq.1.nextState.trans hp)

theorem trafficInfo_watched (cfg : ProcessorConfig) {p : Processor}
    (hp : p.nextState = .processKsuTraffic) (packet : DataPacket) {h : History}
    (hk : Kept (·.informed = true) h) : Watched (p.trafficInfo cfg packet) Ready h := by
  have hread : ∀ {α : Type} (x : PayloadReader α),
      (readData packet x).Only (Op.Keeps (·.informed = true)) :=
    fun _ => ⟨⟨unrequesting_of_ne (by simp), fun _ _ => id⟩, fun _ => trivial⟩
  unfold trafficInfo
  refine (hk.only (hread _)).bind fun status h₁ hk₁ => ?_
  split
  · exact (hk₁.only (reportMotor_informed cfg _ _)).bind
      fun _ _ hk₂ => captureOrReport_watched cfg (by exact hp) packet hk₂
  · exact captureOrReport_watched cfg (by exact hp) packet hk₁

theorem processTraffic_watched (cfg : ProcessorConfig) {p : Processor}
    (hp : p.nextState = .processKsuTraffic) {h : History} (hk : Kept (fun _ => True) h) :
    Watched (p.processTraffic cfg) Ready h := by
  refine Prog.safe_history_op fun (w, now) => ?_
  have hk₁ : Kept (fun t => t.informed = w.brings ackInfo)
      (h ++ [⟨.wait (ksuInactivityTimeout * 20), (w, now)⟩]) :=
    hk.snoc (fun he => absurd he (unrequesting_of_ne (by simp))) fun _ => rfl
  have hk₂ : Kept (fun _ => True) _ := ⟨hk₁.inWindow, trivial⟩
  refine ⟨hk₁.inWindow, ?_⟩
  cases w with
  | error e => cases e <;> exact hk₁.ready hp
  | ok f =>
    show Watched (if getCmd (f.packet p.writeMode now).cmd = ackInfo then _ else _) _ _
    have hcmd := f.getCmd_packet p.writeMode now
    split
    next hinfo =>
      rw [hcmd] at hinfo
      have hk₃ : Kept (·.informed = true) _ :=
        ⟨hk₁.inWindow, hk₁.track.trans (decide_eq_true hinfo)⟩
      exact trafficInfo_watched cfg hp _ hk₃
    next =>
      split
      next hsettings =>
        have hcmd' : (f.packet p.writeMode now).cmd = ackAllSettings := longCmd_eq_of_getCmd hsettings
        have honly := checkSettings_only ordinary_keeps cfg p hcmd'
        refine ((hk₂.only honly).ensures (checkSettings_sameModes cfg p _)).mono fun q _ hq => ?_
        exact hq.2.ready (hq.1.nextState.trans hp)
      next =>
        split
        · have hsame := trafficMotor_ensures cfg p (f.packet p.writeMode now)
            (Q := fun q => q.nextState = .processKsuTraffic) fun _ => hp
          exact ((hk₂.only (trafficMotor_only ordinary_keeps cfg p _)).ensures hsame).mono
            fun q _ hq => hq.2.ready hq.1
        · exact hk₂.ready hp

/-! ### The thread -/

theorem processState_watched (cfg : ProcessorConfig) (fuel : ℕ) {p : Processor} {h : History}
    (hp : p.nextState = p.state) (hk : Kept (fun _ => True) h)
    (hinformed : p.state = .captureDevice → (captureTrack h).informed = true) :
    Watched (p.processState cfg fuel) Ready (h ++ [⟨.enter p.state, ()⟩]) := by
  unfold processState
  split
  next hstate =>
    have hentered : Kept (fun _ => True) (h ++ [⟨.enter p.state, ()⟩]) :=
      hk.snoc (fun he => absurd he (unrequesting_of_ne (by simp))) id
    exact processTraffic_watched cfg (hp.trans hstate) hentered
  next hstate =>
    have hpending : Kept CaptureTrack.Pending (h ++ [⟨.enter p.state, ()⟩]) :=
      hk.snoc (fun he => absurd he (unrequesting_of_ne (by simp)))
        fun _ => ⟨decide_eq_true hstate, rfl, rfl⟩
    refine processCapture_watched cfg fuel p hpending ?_
    rw [captureTrack_snoc]
    exact hinformed hstate

theorem runRound_watched (cfg : ProcessorConfig) (fuel : ℕ) {p : Processor} {h : History}
    (hready : Ready p h) : Watched (p.runRound cfg fuel) RoundDone h := by
  unfold runRound
  refine Prog.safe_history_op fun doRun => ?_
  have hready₁ : Ready p (h ++ [⟨.loopTest, doRun⟩]) := hready.snoc (unrequesting_of_ne (by simp)) rfl
  refine ⟨hready₁.kept.inWindow, ?_⟩
  cases doRun with
  | false => exact ⟨hready₁.kept, fun q hq => by cases hq⟩
  | true =>
    by_cases hregular : Regular (h ++ [⟨.loopTest, true⟩])
    · have hinformed : p.nextState = .captureDevice →
          (captureTrack (h ++ [⟨.loopTest, true⟩])).informed = true := by
        intro hnext
        have hgoesOn := ((forall_split_snoc h _).mp hregular.goesOn).2 rfl
        rw [captureTrack_snoc]
        rcases hready.capture hregular.of_snoc hnext with hinfo | ⟨hcapturing, hgranted⟩
        · exact hinfo
        · rcases hgoesOn hcapturing with hgrant | hinfo
          · rw [hgranted] at hgrant
            cases hgrant
          · exact hinfo
      have hentered : Kept (fun _ => True)
          ((h ++ [⟨.loopTest, true⟩]) ++ [⟨.enter p.nextState, ()⟩]) :=
        hready₁.kept.snoc (fun he => absurd he (unrequesting_of_ne (by simp))) id
      refine Prog.safe_history_op fun r => ⟨hentered.inWindow, ?_⟩
      refine (processState_watched cfg fuel rfl hready₁.kept hinformed).bind fun q h₃ hq => ?_
      have hdoRun : ∀ {h} (value : Bool), Ready q h →
          Watched (setDoRun value) (fun _ h' => RoundDone (.inl q) h') h := by
        intro h value hq
        refine Prog.safe_history_op fun r => ?_
        have hq' := hq.snoc (e := ⟨.setDoRun value, r⟩) (unrequesting_of_ne (by simp)) rfl
        exact ⟨hq'.kept.inWindow, hq'.roundDone⟩
      split
      · exact (hdoRun true hq).bind fun _ _ hdone => hdone
      · refine Prog.safe_history_op fun empty => ?_
        have hq' := hq.snoc (e := ⟨.queueEmpty, empty⟩) (unrequesting_of_ne (by simp)) rfl
        exact ⟨hq'.kept.inWindow, (hdoRun _ hq').bind fun _ _ hdone => hdone⟩
    · exact (watched_of_not_regular hregular).mono fun _ _ hn =>
        ⟨(ready_of_not_regular hn p).kept, fun q _ => ready_of_not_regular hn q⟩

theorem run_watched (cfg : ProcessorConfig) (fuel : ℕ) (p : Processor) :
    Watched (p.run cfg fuel) (fun _ => Kept fun _ => True) [] := by
  have hkeeps : ∀ {o : Op}, (∀ writer packet, o ≠ .write writer packet) → o.Keeps fun _ => True :=
    fun ho => (unrequesting_of_ne ho).keeps
  have hempty : Kept (fun _ => True) [] := ⟨fun _ before e after heq => by simp at heq, trivial⟩
  unfold run
  refine (hempty.only (waitForStart_only (hkeeps (by simp)) (hkeeps (by simp)) (hkeeps (by simp))
    (hkeeps (by simp)) (hkeeps (by simp)) cfg fuel)).bind fun _ h₁ hk₁ => ?_
  refine (hk₁.only (time_only ordinary_keeps)).bind fun now h₂ hk₂ => ?_
  refine (Prog.Safe.loop (J := Ready) (Q := fun _ => Kept fun _ => True)
    (fun p h hready => (runRound_watched cfg fuel hready).mono fun x _ hdone => ?_) fuel
    (hk₂.ready rfl)).bind fun _ h₃ hk₃ => ?_
  · cases x with
    | inl q => exact hdone.2 q rfl
    | inr q => exact hdone.1
  refine (hk₃.perform (hkeeps (by simp))).bind fun _ h₄ hk₄ => ?_
  refine (hk₄.only (Prog.Only.loop (fun _ => clearRound_only (hkeeps (by simp))) fuel ())).bind
    fun _ h₅ hk₅ => ?_
  refine (hk₅.perform (hkeeps (by simp))).bind fun _ h₆ hk₆ => ?_
  exact (hk₆.perform (hkeeps (by simp))).bind fun _ _ hk => hk

end Processor

/-- If the main loop goes on after no capture that failed, `REQ_DEVICE_REQ` is written in the window
only. -/
theorem run_inWindow (cfg : ProcessorConfig) (fuel : ℕ) (p : Processor)
    {c : ProcessorM Unit × History} (h : (historyEnv Op Res).Reaches (p.run cfg fuel, []) c)
    (hqueue : ServerQueue c.2) (hgoesOn : GoesOnCaptured c.2) : InWindow c.2 := by
  have hempty : Regular [] → InWindow [] := fun _ before e after heq => by simp at heq
  exact (Processor.run_watched cfg fuel p).reaches hempty
    (fun _ _ _ hd => (historyEnv_drift hd).elim) h ⟨hqueue, hgoesOn⟩

/-- The station is asked to let itself be captured, and does not answer. -/
def requestScript : History :=
  [⟨.setDoRun true, ()⟩, ⟨.loopTest, true⟩, ⟨.enter .captureDevice, ()⟩, ⟨.time, (0 : ℤ)⟩,
   ⟨.write .captureDevice (captureDevicePacket 0), ()⟩, ⟨.wait 1500, ((.error .timeout : Wait), (0 : ℤ))⟩]

theorem serverQueue_of_notMem {h : History} (hpop : .popFront ∉ h.map Sigma.fst) : ServerQueue h :=
  fun _ hc => absurd (List.mem_map_of_mem hc) hpop

theorem goesOn_of_monitored {h : History}
    (hm : Monitored CaptureTrack.next (fun t e => e = ⟨.loopTest, true⟩ → t.capturing = true →
      t.granted = true ∨ t.informed = true) ⟨false, false, false, false⟩ h) : GoesOnCaptured h :=
  forall_split_of_monitored hm

theorem run_inWindow_requested : InWindow (noticeScript ++ requestScript) := by
  have hinfo : Wait.brings ackInfo (.ok infoFrame) = true := by decide
  have hgoesOn : GoesOnCaptured (noticeScript ++ requestScript) :=
    goesOn_of_monitored (by simp [Monitored, noticeScript, requestScript, CaptureTrack.next, hinfo])
  exact run_inWindow (unfilteredConfig true) 2 knownProcessor
    (Prog.reaches_of_replay ((noticeScript ++ requestScript).map .answer) rfl)
    (serverQueue_of_notMem (by decide)) hgoesOn

/-- The station is asked again once it has not answered. -/
theorem run_inWindow_false : ¬∀ (cfg : ProcessorConfig) (fuel : ℕ) (p : Processor)
    (c : ProcessorM Unit × History), (historyEnv Op Res).Reaches (p.run cfg fuel, []) c →
      ServerQueue c.2 → InWindow c.2 := by
  intro hall
  have hwindow := hall (unfilteredConfig true) 3 knownProcessor
    (_, noticeScript ++ requestScript ++ requestScript)
    (Prog.reaches_of_replay ((noticeScript ++ requestScript ++ requestScript).map .answer) rfl)
    (serverQueue_of_notMem (by decide))
  have hinformed := hwindow (noticeScript ++ requestScript ++ requestScript.take 4)
    ⟨.write .captureDevice (captureDevicePacket 0), ()⟩ (requestScript.drop 5) rfl
    ⟨_, _, rfl, rfl⟩
  cases hinformed

end Ritex
