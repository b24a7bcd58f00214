import Ritex.ProcessorRun

/-! Which operations the functions of the processor perform, whatever they are answered. -/
namespace Ritex
open Interaction

/-- Operations that touch neither the port's output, nor the queue, nor a command, nor a flag. -/
def Op.Local : Op → Prop
  | .time => True
  | .wait _ => True
  | .uninitialised => True
  | .heap => True
  | .timeDiviation => True
  | .reportEvent _ => True
  | .enqueData _ => True
  | .crash => True
  | _ => False

/-- The local operations but the last of a program that crashes. -/
def Op.Ordinary (o : Op) : Prop := o.Local ∧ o ≠ .crash

theorem Op.ordinary_of_local {P : Op → Prop} (h : ∀ o, o.Local → P o) (o : Op) (ho : o.Ordinary) :
    P o :=
  h o ho.1

/-- What happens to a command behind `SetReply`. -/
def CommandEvent.Ending : CommandEvent → Prop
  | .onResultReady _ _ _ => True
  | .deleted _ => True
  | _ => False

namespace Processor

variable {P : Op → Prop}

/-! ### Pointers -/

/-- A packet and an error of which success comes with a packet only. -/
def Replied (received : Received) : Prop := received.2 = .noError → received.1.isSome = true

theorem replied_wait (writeMode : BitVec 32) (now : ℤ) (w : Wait) :
    Replied (w.received writeMode now) := by
  cases w with
  | ok f => exact fun _ => rfl
  | error e => cases e <;> exact fun h => by cases h

theorem waitForKsuActivity_ensures (p : Processor) (timeout : ℕ) :
    (p.waitForKsuActivity timeout).Ensures Replied :=
  fun r => replied_wait p.writeMode r.2 r.1

theorem deref_eq {packet : Option DataPacket} (h : packet.isSome = true) :
    ∃ q, packet = some q ∧ deref packet = .ret q := by
  obtain ⟨q, rfl⟩ := Option.isSome_iff_exists.mp h
  exact ⟨q, rfl, rfl⟩


theorem time_only (hP : ∀ o, o.Ordinary → P o) : time.Only P := ⟨hP _ ⟨trivial, by simp⟩, fun _ => trivial⟩

theorem deref_only {α : Type} {packet : Option DataPacket} {f : DataPacket → ProcessorM α}
    (h : packet.isSome = true) (hf : ∀ q, packet = some q → (f q).Only P) :
    ((deref packet).bind f).Only P := by
  obtain ⟨q, hpacket, hq⟩ := deref_eq h
  rw [hq]
  exact hf q hpacket

theorem readData_only {α : Type} (hP : ∀ o, o.Ordinary → P o) (packet : DataPacket)
    (x : PayloadReader α) : (readData packet x).Only P :=
  ⟨hP _ ⟨trivial, by simp⟩, fun _ => trivial⟩

theorem reportEvents_only (hP : ∀ o, o.Ordinary → P o) (events : List DBEventCommon) :
    (reportEvents events).Only P := by
  induction events with
  | nil => trivial
  | cons event events ih => exact ⟨hP _ ⟨trivial, by simp⟩, fun _ => ih⟩

theorem enqueData_only (hP : ∀ o, o.Ordinary → P o) (packets : List DBDataPacket) :
    (enqueData packets).Only P := by
  induction packets with
  | nil => trivial
  | cons packet packets ih => exact ⟨hP _ ⟨trivial, by simp⟩, fun _ => ih⟩

theorem wait_only {α : Type} (hP : ∀ o, o.Ordinary → P o) (p : Processor) (timeout : ℕ)
    {f : Received → ProcessorM α} (hf : ∀ received, Replied received → (f received).Only P) :
    ((p.waitForKsuActivity timeout).bind f).Only P :=
  ⟨hP _ ⟨trivial, by simp⟩, fun r => hf _ (replied_wait p.writeMode r.2 r.1)⟩

theorem waitForKsuActivity_only (hP : ∀ o, o.Ordinary → P o) (p : Processor) (timeout : ℕ) :
    (p.waitForKsuActivity timeout).Only P :=
  ⟨hP _ ⟨trivial, by simp⟩, fun _ => trivial⟩

/-! ### Commands -/

theorem notifyListeners_only (hc : ∀ event : CommandEvent, event.Ending → P (.command event))
    (c : CustomCommand) (rawResult : String) (listeners : List ℕ) : (notifyListeners c rawResult listeners).Only P := by
  induction listeners with
  | nil => trivial
  | cons listener listeners ih => exact ⟨hc _ trivial, fun _ => ih⟩

theorem notifyResultReady_only (hc : ∀ event : CommandEvent, event.Ending → P (.command event))
    (c : CustomCommand) (rawResult : String) : (notifyResultReady c rawResult).Only P :=
  (notifyListeners_only hc c rawResult _).bind fun _ => ⟨hc _ trivial, fun _ => trivial⟩

theorem applyReply_only (hP : ∀ o, o.Ordinary → P o)
    (hc : ∀ event : CommandEvent, event.Ending → P (.command event)) (p : Processor) (c : CustomCommand) (reply : ExternalReply) :
    (p.applyReply c (some reply)).Only P :=
  (reportEvents_only hP _).bind fun _ => (notifyResultReady_only hc c _).bind fun _ => trivial

theorem setExternalReply_only (hP : ∀ o, o.Ordinary → P o)
    (hc : ∀ event : CommandEvent, event.Ending → P (.command event))
    (cfg : ProcessorConfig) (p : Processor) (c : CustomCommand) (cmd : CmdExternal)
    {packet : Option DataPacket} {status : ErrorCode} (h : Replied (packet, status)) :
    (p.setExternalReply cfg c cmd packet status).Only P := by
  unfold setExternalReply
  refine (time_only hP).bind fun now => ?_
  split
  next hstatus =>
    refine deref_only (h hstatus) fun q _ => ⟨hP _ ⟨trivial, by simp⟩, fun beyond => ?_⟩
    -- No assertion fails in the reply to a command that is made from a template.
    obtain ⟨reply, hreply⟩ := Option.isSome_iff_exists.mp
      (externalReply_isSome cfg.filter cmd p.settings now q (q.memory beyond))
    show (p.applyReply c (PayloadReader.value _ _)).Only P
    rw [hreply]
    exact applyReply_only hP hc p c reply
  next => exact (notifyResultReady_only hc c _).bind fun _ => trivial

theorem setTestReply_only (hP : ∀ o, o.Ordinary → P o)
    (hc : ∀ event : CommandEvent, event.Ending → P (.command event))
    (c : CustomCommand) {packet : Option DataPacket} {status : ErrorCode}
    (h : Replied (packet, status)) : (setTestReply c packet status).Only P := by
  unfold setTestReply
  split
  next hstatus =>
    refine deref_only (h hstatus) fun q _ => (readData_only hP q _).bind fun reply => ?_
    exact notifyResultReady_only hc c _
  next => exact notifyResultReady_only hc c _

theorem setReply_only (hP : ∀ o, o.Ordinary → P o) (hc : ∀ event, P (.command event))
    (cfg : ProcessorConfig) (p : Processor) (c : CustomCommand) {packet : Option DataPacket}
    {status : ErrorCode} (h : Replied (packet, status)) :
    (p.setReply cfg c packet status).Only P := by
  unfold setReply
  refine Prog.Only.bind ⟨hc _, fun _ => trivial⟩ fun _ => ?_
  split
  · exact setExternalReply_only hP (fun event _ => hc event) cfg p c _ h
  · exact (setTestReply_only hP (fun event _ => hc event) c h).bind fun _ => trivial

theorem requestCurrentData_only (hP : ∀ o, o.Ordinary → P o)
    (hw : ∀ now, P (.write .requestCurrentData (requestCurrentDataPacket now))) : requestCurrentData.Only P :=
  (time_only hP).bind fun _ => ⟨hw _, fun _ => trivial⟩

theorem motorInfo_only (hP : ∀ o, o.Ordinary → P o)
    (hw : ∀ now, P (.write .requestCurrentData (requestCurrentDataPacket now))) (p : Processor)
    (c : CustomCommand) :
    (p.motorInfo c).Only P := by
  unfold motorInfo
  refine (requestCurrentData_only hP hw).bind fun _ => wait_only hP p _ fun received h => ?_
  dsimp only
  split
  next => trivial
  next herror =>
    refine deref_only (h (not_not.mp herror)) fun info _ => ?_
    split
    · exact (readData_only hP info _).bind fun _ => trivial
    · trivial

theorem commandReply_only (hP : ∀ o, o.Ordinary → P o)
    (hw : ∀ now, P (.write .requestCurrentData (requestCurrentDataPacket now))) (p : Processor) (c : CustomCommand)
    {packet : Option DataPacket} {error : ErrorCode} (h : Replied (packet, error)) :
    (p.commandReply c packet error).Only P := by
  unfold commandReply
  split
  next herror =>
    refine deref_only (h herror) fun reply _ => ?_
    split
    · unfold motorCommand
      split
      · refine (readData_only hP reply _).bind fun code => ?_
        split
        · exact motorInfo_only hP hw p c
        · trivial
      · trivial
    · trivial
  next => trivial

theorem motorInfo_ensures (p : Processor) (c : CustomCommand) :
    (p.motorInfo c).Ensures fun r => Replied r.1 := by
  unfold motorInfo
  refine requestCurrentData.ensures_trivial.bind fun _ _ => ?_
  refine (waitForKsuActivity_ensures p _).bind ?_
  rintro ⟨packet, error⟩ h
  dsimp only
  split
  next => exact h
  next herror =>
    obtain ⟨q, rfl, hq⟩ := deref_eq (h (not_not.mp herror))
    rw [hq]
    show (if getCmd q.cmd = ackInfo then _ else _ : ProcessorM _).Ensures _
    split
    · exact fun _ _ => rfl
    · exact fun _ => rfl

theorem commandReply_ensures (p : Processor) (c : CustomCommand) {packet : Option DataPacket}
    {error : ErrorCode} (h : Replied (packet, error)) :
    (p.commandReply c packet error).Ensures fun r => Replied r.1 := by
  unfold commandReply
  split
  next herror =>
    obtain ⟨q, rfl, hq⟩ := deref_eq (h herror)
    rw [hq]
    show (if isMotorCommand _ = true then p.motorCommand c q else _ : ProcessorM _).Ensures _
    split
    · unfold motorCommand
      split
      · refine (readData q _).ensures_trivial.bind fun code _ => ?_
        split
        · exact motorInfo_ensures p c
        · exact fun _ => rfl
      · exact fun _ => rfl
    · exact fun _ => rfl
  next => exact h

theorem processCommand_only (hP : ∀ o, o.Ordinary → P o) (hc : ∀ event, P (.command event))
    (hw : ∀ now, P (.write .requestCurrentData (requestCurrentDataPacket now)))
    (cfg : ProcessorConfig) (p : Processor) (c : CustomCommand)
    (hwc : P (.write .processCommand c.dataPacket)) : (p.processCommand cfg c).Only P := by
  unfold processCommand
  refine Prog.Only.bind ⟨hwc, fun _ => trivial⟩ fun _ => ?_
  refine wait_only hP p _ fun received h => ?_
  refine (commandReply_only hP hw p c h).bind_ensures (commandReply_ensures p c h) fun r hr => ?_
  exact setReply_only hP hc cfg _ c hr

/-! ### Traffic -/

theorem reportMotor_only (hP : ∀ o, o.Ordinary → P o) (cfg : ProcessorConfig)
    (oldStatus newStatus : Byte) : (reportMotor cfg oldStatus newStatus).Only P := by
  unfold reportMotor
  split
  · exact (time_only hP).bind fun _ => reportEvents_only hP _
  · trivial

theorem needCapture_only (hP : ∀ o, o.Ordinary → P o) (hq : P .queueEmpty) (p : Processor) :
    p.needCapture.Only P := by
  unfold needCapture
  refine Prog.Only.bind ⟨hq, fun _ => trivial⟩ fun empty => ?_
  split
  · exact (time_only hP).bind fun _ => trivial
  · trivial

theorem checkPacket_only (hP : ∀ o, o.Ordinary → P o) (cfg : ProcessorConfig) (p : Processor)
    (packet : DataPacket) : (p.checkPacket cfg packet).Only P := by
  unfold checkPacket
  refine (readData_only hP packet _).bind fun fault => (reportEvents_only hP _).bind fun _ => ?_
  refine (time_only hP).bind fun _ => Prog.Only.bind ⟨hP _ ⟨trivial, by simp⟩, fun _ => trivial⟩ fun _ => ?_
  refine (readData_only hP packet _).bind fun diviation => ?_
  exact (reportEvents_only hP _).bind fun _ => trivial

theorem reportData_only (hP : ∀ o, o.Ordinary → P o) (cfg : ProcessorConfig) (packet : DataPacket) :
    (reportData cfg packet).Only P :=
  (readData_only hP packet _).bind fun _ => enqueData_only hP _

theorem captureData_only (hP : ∀ o, o.Ordinary → P o) (cfg : ProcessorConfig) (p : Processor)
    (packet : DataPacket) : (p.captureData cfg packet).Only P := by
  unfold captureData
  split
  · split
    · exact (reportData_only hP cfg packet).bind fun _ => trivial
    · trivial
  · trivial

theorem checkSettings_only (hP : ∀ o, o.Ordinary → P o) (cfg : ProcessorConfig) (p : Processor)
    {packet : DataPacket} (h : packet.cmd = ackAllSettings) : (p.checkSettings cfg packet).Only P := by
  unfold checkSettings
  rw [if_pos h]
  refine (time_only hP).bind fun _ => (readData_only hP packet _).bind fun settings => ?_
  exact (reportEvents_only hP _).bind fun _ => trivial

theorem captureOrReport_only (hP : ∀ o, o.Ordinary → P o) (hq : P .queueEmpty)
    (cfg : ProcessorConfig) (p : Processor) (packet : DataPacket) :
    (p.captureOrReport cfg packet).Only P := by
  unfold captureOrReport
  refine (needCapture_only hP hq p).bind fun need => ?_
  split
  · trivial
  · exact (checkPacket_only hP cfg p packet).bind fun p => captureData_only hP cfg p packet

theorem trafficInfo_only (hP : ∀ o, o.Ordinary → P o) (hq : P .queueEmpty) (cfg : ProcessorConfig)
    (p : Processor) (packet : DataPacket) : (p.trafficInfo cfg packet).Only P := by
  unfold trafficInfo
  refine (readData_only hP packet _).bind fun status => ?_
  split
  · exact (reportMotor_only hP cfg _ _).bind fun _ => captureOrReport_only hP hq cfg _ packet
  · exact captureOrReport_only hP hq cfg _ packet

theorem motorStatusReply_only (hP : ∀ o, o.Ordinary → P o) (cfg : ProcessorConfig)
    (p : Processor) : (p.motorStatusReply cfg).Only P := by
  unfold motorStatusReply
  refine wait_only hP p _ fun received h => ?_
  dsimp only
  split
  next herror =>
    refine deref_only (h herror) fun packet _ => ?_
    split
    · refine (readData_only hP packet _).bind fun status => ?_
      exact (reportMotor_only hP cfg _ _).bind fun _ => trivial
    · trivial
  next => trivial

theorem processMotorCmd_only (hP : ∀ o, o.Ordinary → P o) (cfg : ProcessorConfig) (p : Processor) :
    (p.processMotorCmd cfg).Only P := by
  unfold processMotorCmd
  refine wait_only hP p _ fun received h => ?_
  dsimp only
  split
  next herror =>
    refine deref_only (h herror) fun packet _ => ?_
    split
    · refine (readData_only hP packet _).bind fun code => ?_
      split
      · refine wait_only hP p _ fun received2 h2 => ?_
        split
        next herror2 =>
          refine deref_only (h2 herror2) fun packet2 _ => ?_
          split
          · exact motorStatusReply_only hP cfg p
          · trivial
        next => trivial
      · trivial
    · trivial
  next => trivial

theorem trafficMotor_only (hP : ∀ o, o.Ordinary → P o) (cfg : ProcessorConfig) (p : Processor)
    (packet : DataPacket) : (p.trafficMotor cfg packet).Only P := by
  unfold trafficMotor
  split
  · exact (readData_only hP packet _).bind fun _ => processMotorCmd_only hP cfg p
  · exact processMotorCmd_only hP cfg p

theorem longCmd_eq_of_getCmd {writeMode : BitVec 32} {cmd : Byte}
    (h : getCmd (longCmd writeMode cmd) = ackAllSettings) :
    longCmd writeMode cmd = ackAllSettings := by
  rw [getCmd_eq, lsb_longCmd] at h
  rw [longCmd, h, if_neg (by decide)]

theorem processTraffic_only (hP : ∀ o, o.Ordinary → P o) (hq : P .queueEmpty) (cfg : ProcessorConfig)
    (p : Processor) : (p.processTraffic cfg).Only P := by
  refine ⟨hP _ ⟨trivial, by simp⟩, fun ⟨w, now⟩ => ?_⟩
  cases w with
  | error e => cases e <;> trivial
  | ok frame =>
    show (if getCmd (frame.packet p.writeMode now).cmd = ackInfo then _ else _ :
      ProcessorM Processor).Only P
    split
    · exact trafficInfo_only hP hq cfg p _
    · split
      next hsettings => exact checkSettings_only hP cfg p (longCmd_eq_of_getCmd hsettings)
      next =>
        split
        · exact trafficMotor_only hP cfg p _
        · trivial

/-! ### Capture -/

/-- A frame is written and its reply, if it is a packet, looked into. -/
theorem exchange_only {α : Type} (hP : ∀ o, o.Ordinary → P o) (p : Processor) {writer : Writer}
    {request : ℤ → DataPacket} (hw : ∀ now, P (.write writer (request now)))
    {reply : DataPacket → ProcessorM α} (hreply : ∀ packet, (reply packet).Only P)
    {lost : ProcessorM α} (hlost : lost.Only P) :
    Prog.Only P (do
      let now ← time
      write writer (request now)
      let (packet, error) ← p.waitForKsuActivity ksuInactivityTimeout
      if error = .noError then
        let packet ← deref packet
        reply packet
      else lost) := by
  refine (time_only hP).bind fun _ => Prog.Only.bind ⟨hw _, fun _ => trivial⟩ fun _ => ?_
  refine wait_only hP p _ fun received h => ?_
  dsimp only
  split
  next herror => exact deref_only (h herror) fun packet _ => hreply packet
  next => exact hlost

theorem captureDevice_only (hP : ∀ o, o.Ordinary → P o)
    (hw : ∀ now, P (.write .captureDevice (captureDevicePacket now))) (p : Processor) :
    p.captureDevice.Only P := by
  refine exchange_only hP p hw (fun packet => ?_) trivial
  split
  · exact (readData_only hP packet _).bind fun _ => trivial
  · trivial

theorem getPasswords_only (hP : ∀ o, o.Ordinary → P o)
    (hw : ∀ now, P (.write .getPasswords (getPasswordsPacket now))) (p : Processor) :
    p.getPasswords.Only P := by
  refine exchange_only hP p hw (fun packet => ?_) trivial
  split
  · refine (readData_only hP packet _).bind fun _ => ?_
    exact (readData_only hP packet _).bind fun _ => trivial
  · trivial

theorem setPassword_only (hP : ∀ o, o.Ordinary → P o) (p : Processor) (password : Word)
    (hw : ∀ now, P (.write .setPassword (setSettingPacket 44 password now))) :
    (p.setPassword password).Only P := by
  refine Prog.Only.bind ⟨hP _ ⟨trivial, by simp⟩, fun _ => trivial⟩ fun _ => ?_
  refine exchange_only hP p hw (fun packet => ?_) trivial
  split
  · exact (readData_only hP packet _).bind fun _ => trivial
  · split <;> trivial

theorem setPassword_ensures (p : Processor) (password : Word) :
    (p.setPassword password).Ensures fun r => ∀ q, r.2 = some q → q.cmd = ackAllSettings := by
  unfold setPassword
  intro result now _ r
  obtain ⟨w, now⟩ := r
  cases w with
  | error e => cases e <;> intro q hq <;> cases hq
  | ok frame =>
    show (if (frame.packet p.writeMode now).cmd = ackAck then _ else _ :
      ProcessorM (Bool × Option DataPacket)).Ensures _
    split
    · intro _ q hq
      cases hq
    · split
      next hsettings =>
        intro q hq
        cases hq
        exact hsettings
      next =>
        intro q hq
        cases hq

theorem changeMode_only (hP : ∀ o, o.Ordinary → P o) (p : Processor) (mode : Word)
    (hw : ∀ now, P (.write .changeMode (setSettingPacket 45 mode now))) : (p.changeMode mode).Only P := by
  refine exchange_only hP p hw (fun packet => ?_) trivial
  split
  · exact (readData_only hP packet _).bind fun _ => trivial
  · trivial

/-- The cycle follows the pointer to the packet before it looks at the error. -/
theorem modeCycle_only (hP : ∀ o, o.Ordinary → P o) (hcrash : P .crash)
    (hw : ∀ mode now, P (.write .changeMode (setSettingPacket 45 mode now)))
    (hr : ∀ now, P (.write .requestCurrentData (requestCurrentDataPacket now))) (cfg : ProcessorConfig) (p : Processor)
    (modes : List ℕ) : (p.modeCycle cfg modes).Only P := by
  induction modes with
  | nil => trivial
  | cons i rest ih =>
    unfold modeCycle
    split
    · exact ih
    · refine (changeMode_only hP p _ fun _ => hw _ _).bind fun changed => ?_
      split
      · refine (requestCurrentData_only hP fun _ => hr _).bind fun _ => ?_
        refine (waitForKsuActivity_only hP p _).bind fun reply => ?_
        obtain ⟨packet, error⟩ := reply
        cases packet with
        | none => exact ⟨hcrash, fun _ => trivial⟩
        | some packet =>
          show (if error = .noError then _ else _ : ProcessorM Unit).Only P
          split
          · exact (reportData_only hP cfg _).bind fun _ => ih
          · exact ih
      · trivial

theorem drainRound_only (hP : ∀ o, o.Ordinary → P o) (hc : ∀ event, P (.command event))
    (hr : ∀ packet, P (.write .requestCurrentData packet))
    (hwc : ∀ packet, P (.write .processCommand packet)) (hl : P .lockCmd) (hp : P .popFront)
    (hu : P .unlockCmd) (cfg : ProcessorConfig) (p : Processor) : (p.drainRound cfg).Only P := by
  unfold drainRound
  refine Prog.Only.bind ⟨hl, fun _ => trivial⟩ fun _ => ?_
  refine Prog.Only.bind ⟨hp, fun _ => trivial⟩ fun pending => ?_
  refine Prog.Only.bind ⟨hu, fun _ => trivial⟩ fun _ => ?_
  cases pending with
  | some c =>
    refine Prog.Only.bind ⟨hc _, fun _ => trivial⟩ fun _ => ?_
    refine (processCommand_only hP hc (fun _ => hr _) cfg p c (hwc _)).bind fun _ => ?_
    exact Prog.Only.bind ⟨hc _, fun _ => trivial⟩ fun _ => trivial
  | none => trivial

theorem captured_only (hP : ∀ o, o.Ordinary → P o) (hcrash : P .crash)
    (hc : ∀ event, P (.command event)) (hw : ∀ packet, P (.write .changeMode packet))
    (hr : ∀ packet, P (.write .requestCurrentData packet))
    (hwc : ∀ packet, P (.write .processCommand packet)) (hl : P .lockCmd) (hp : P .popFront)
    (hu : P .unlockCmd) (cfg : ProcessorConfig) (fuel : ℕ) (p : Processor) {settings : DataPacket}
    (hsettings : settings.cmd = ackAllSettings) : (p.captured cfg fuel settings).Only P := by
  unfold captured
  refine (readData_only hP settings _).bind fun writeMode => ?_
  refine (checkSettings_only hP cfg _ hsettings).bind fun p => ?_
  refine (Prog.Only.loop (fun p => drainRound_only hP hc hr hwc hl hp hu cfg p) fuel p).bind
    fun p => ?_
  refine (time_only hP).bind fun now => ?_
  split
  · refine (modeCycle_only hP hcrash (fun _ _ => hw _) (fun _ => hr _) cfg p _).bind fun _ => ?_
    exact (time_only hP).bind fun _ => trivial
  · trivial

theorem processCapture_only (hP : ∀ o, o.Ordinary → P o) (hcrash : P .crash)
    (hc : ∀ event, P (.command event))
    (hw : ∀ writer packet, P (.write writer packet)) (hl : P .lockCmd) (hp : P .popFront)
    (hu : P .unlockCmd) (cfg : ProcessorConfig) (fuel : ℕ) (p : Processor) :
    (p.processCapture cfg fuel).Only P := by
  unfold processCapture
  refine (captureDevice_only hP (fun _ => hw _ _) p).bind fun result => ?_
  split
  · refine (getPasswords_only hP (fun _ => hw _ _) p).bind fun passwords => ?_
    cases passwords with
    | none => trivial
    | some passwords =>
      refine (setPassword_only hP p _ fun _ => hw _ _).bind_ensures (setPassword_ensures p _) fun r hr => ?_
      dsimp only
      split
      · cases hsettings : r.2 with
        | none => trivial
        | some settings =>
          exact captured_only hP hcrash hc (hw _) (hw _) (hw _) hl hp hu cfg fuel p (hr _ hsettings)
      · trivial
  · trivial

theorem processState_only (hP : ∀ o, o.Ordinary → P o) (hcrash : P .crash)
    (hc : ∀ event, P (.command event))
    (hw : ∀ writer packet, P (.write writer packet)) (hq : P .queueEmpty) (hl : P .lockCmd)
    (hp : P .popFront) (hu : P .unlockCmd) (cfg : ProcessorConfig) (fuel : ℕ) (p : Processor) :
    (p.processState cfg fuel).Only P := by
  unfold processState
  split
  · exact processTraffic_only hP hq cfg p
  · exact processCapture_only hP hcrash hc hw hl hp hu cfg fuel p

/-! ### The start and the exit -/

theorem waitForStart_only {P : Op → Prop} (hl : P .lockStart) (ht : P .startTest)
    (hw : P .waitStart) (hwoken : P .wokenStart) (hu : P .unlockStart) (cfg : ProcessorConfig) (fuel : ℕ) :
    (waitForStart cfg fuel).Only P := by
  unfold waitForStart
  split
  · trivial
  · refine Prog.Only.bind ⟨hl, fun _ => trivial⟩ fun _ => Prog.Only.loop (fun _ => ?_) fuel ()
    refine Prog.Only.bind ⟨ht, fun _ => trivial⟩ fun doRun => ?_
    split
    · trivial
    · exact ⟨hw, fun _ => ⟨hwoken, fun _ => ⟨hu, fun _ => trivial⟩⟩⟩

theorem clearRound_only {P : Op → Prop} (hd : P .deleteFront) : (clearRound ()).Only P := by
  refine Prog.Only.bind ⟨hd, fun _ => trivial⟩ fun front => ?_
  cases front <;> trivial

end Processor

end Ritex
