import Ritex.BusDiscipline
import Ritex.ProcessorMembers

/-! The write mode under which the processor labels the information that it reads: it is the one of
the settings that came in reply to the password, while other settings pass unheeded. -/
namespace Ritex
open Interaction

def Frame.settingsMode (f : Frame) : Option Byte :=
  if f.cmd.setWidth 16 = ackAllSettings then some (f.payload.getD writeModeOffset 0) else none

def Wait.settingsMode : Wait → Option Byte
  | .ok f => f.settingsMode
  | .error _ => none

structure ModeTrack where
  /-- The password was written and nothing has been waited for since. -/
  asked : Bool
  /-- The mode in the last settings that came in reply to the password. -/
  adopted : Option Byte
  last : Option Byte

def ModeTrack.next (t : ModeTrack) : Event Op Res → ModeTrack
  | ⟨.write .setPassword _, _⟩ => { t with asked := true }
  | ⟨.wait _, r⟩ =>
    { asked := false
      adopted := if t.asked then r.1.settingsMode <|> t.adopted else t.adopted
      last := r.1.settingsMode <|> t.last }
  | _ => t

def modeTrack (h : History) : ModeTrack := h.foldl ModeTrack.next ⟨false, none, none⟩

theorem modeTrack_snoc (h : History) (e : Event Op Res) :
    modeTrack (h ++ [e]) = (modeTrack h).next e := by
  rw [modeTrack, List.foldl_append]
  rfl

def writeModeAfter (initial : BitVec 32) (t : ModeTrack) : BitVec 32 :=
  (t.adopted.map (·.setWidth 32)).getD initial

/-- The last settings carry the mode of the last that answered the password, or the first mode. -/
def ModeAdopted (initial : BitVec 32) (t : ModeTrack) : Prop :=
  t.last = some (t.adopted.getD (initial.setWidth 8))

/-! ### Specifications -/

/-- The password is not being asked for, and this is the mode adopted last. -/
structure Adopted (mode : Option Byte) (h : History) : Prop where
  asked : (modeTrack h).asked = false
  adopted : (modeTrack h).adopted = mode

def Op.NotAsking (o : Op) : Prop := ∀ packet, o ≠ .write .setPassword packet

theorem Op.Ordinary.notAsking (o : Op) (ho : o.Ordinary) : o.NotAsking := by
  rintro packet rfl
  exact ho.1

theorem Adopted.snoc {mode : Option Byte} {h : History} (hh : Adopted mode h) {o : Op}
    (ho : o.NotAsking) (r : Res o) : Adopted mode (h ++ [⟨o, r⟩]) := by
  obtain ⟨hasked, hadopted⟩ := hh
  cases o with
  | write writer packet =>
    cases writer with
    | setPassword => exact absurd rfl (ho packet)
    | _ => exact ⟨by rw [modeTrack_snoc]; exact hasked, by rw [modeTrack_snoc]; exact hadopted⟩
  | wait timeout =>
    constructor
    · rw [modeTrack_snoc]
      rfl
    · rw [modeTrack_snoc, ModeTrack.next, hasked]
      exact hadopted
  | _ => exact ⟨by rw [modeTrack_snoc]; exact hasked, by rw [modeTrack_snoc]; exact hadopted⟩

theorem Adopted.only {mode : Option Byte} {h : History} (hh : Adopted mode h) {α : Type}
    {x : ProcessorM α} (hx : x.Only Op.NotAsking) {R : α → Prop} (hr : x.Ensures R)
    {I : History → Prop} (hI : ∀ h, Adopted mode h → I h) :
    x.Safe (historyEnv Op Res) I (fun a h' => R a ∧ Adopted mode h') h := by
  refine hx.safe_ensures hr hI (fun _ _ _ hd => (historyEnv_drift hd).elim)
    (fun o ho s r s' hs ha => ?_) hh
  cases ha
  exact hs.snoc ho r

theorem Adopted.answered {mode : Option Byte} {h : History} (hh : Adopted mode h)
    (packet : DataPacket) (r : Unit) (timeout : ℕ) (w : Wait) (now : ℤ) :
    Adopted (w.settingsMode <|> mode)
      ((h ++ [⟨.write .setPassword packet, r⟩]) ++ [⟨.wait timeout, (w, now)⟩]) := by
  constructor
  · rw [modeTrack_snoc]
    rfl
  · rw [modeTrack_snoc, modeTrack_snoc]
    exact congrArg (w.settingsMode <|> ·) hh.adopted

structure Follows (initial : BitVec 32) (p : Processor) (h : History) : Prop where
  asked : (modeTrack h).asked = false
  writeMode : p.writeMode = writeModeAfter initial (modeTrack h)

theorem Follows.adopted {initial : BitVec 32} {p : Processor} {h : History}
    (hp : Follows initial p h) : Adopted (modeTrack h).adopted h :=
  ⟨hp.asked, rfl⟩

theorem Adopted.follows {mode : Option Byte} {h : History} (hh : Adopted mode h)
    {initial : BitVec 32} {p : Processor}
    (hp : p.writeMode = (mode.map (·.setWidth 32)).getD initial) : Follows initial p h :=
  ⟨hh.asked, by rw [writeModeAfter, hh.adopted, hp]⟩

abbrev Tracked {α : Type} (x : ProcessorM α) (Q : α → History → Prop) (h : History) : Prop :=
  x.Safe (historyEnv Op Res) (fun _ => True) Q h

/-- A program that neither asks for the password nor changes the write mode. -/
theorem Follows.only {initial : BitVec 32} {p : Processor} {h : History} (hp : Follows initial p h)
    {α : Type} {x : ProcessorM α} (hx : x.Only Op.NotAsking) {R : α → Prop} (hr : x.Ensures R) :
    Tracked x (fun a h' => R a ∧ Follows initial p h') h :=
  (hp.adopted.only hx hr fun _ _ => trivial).mono fun _ _ ha => ⟨ha.1, ha.2.follows hp.writeMode⟩

theorem Follows.same {initial : BitVec 32} {p q : Processor} {h : History}
    (hp : Follows initial p h) (hq : p.SameWriteMode q) : Follows initial q h :=
  ⟨hp.asked, hq.trans hp.writeMode⟩

theorem Frame.memory_writeMode {f : Frame} (hf : f.cmd.setWidth 16 = ackAllSettings)
    (writeMode : BitVec 32) (now : ℤ) (beyond : ℕ → Byte) :
    (f.packet writeMode now).memory beyond writeModeOffset = f.payload.getD writeModeOffset 0 := by
  have hlength : f.payload.length = 0x2F := f.payload_length hf (by decide)
  have hlt : writeModeOffset < f.payload.length := by rw [hlength]; decide
  rw [f.memory_packet, List.getD_eq_getElem _ _ hlt, List.getD_eq_getElem _ _ hlt]

namespace Processor

/-- The settings that `SetPassword` returns are those that the mode is adopted from. -/
theorem setPassword_tracked (p : Processor) (password : Word) {mode : Option Byte} {h : History}
    (hh : Adopted mode h) :
    Tracked (p.setPassword password) (fun result h' =>
      ((∃ b, result = (b, none)) ∧ Adopted mode h') ∨ ∃ (f : Frame) (now : ℤ),
        result = (true, some (f.packet p.writeMode now)) ∧ f.cmd.setWidth 16 = ackAllSettings ∧
          Adopted (some (f.payload.getD writeModeOffset 0)) h') h := by
  unfold setPassword
  have honly : ∀ {α : Type} {x : ProcessorM α}, x.Only Op.NotAsking → ∀ {mode h}, Adopted mode h →
      Tracked x (fun _ h' => Adopted mode h') h :=
    fun {_ x} hx _ _ hh => (hh.only hx x.ensures_trivial fun _ _ => trivial).mono fun _ _ ha => ha.2
  refine (honly (x := Prog.perform Op.uninitialised) ⟨by simp [Op.NotAsking], fun _ => trivial⟩
    hh).bind fun result h₁ hh₁ => ?_
  refine (honly (time_only Op.Ordinary.notAsking) hh₁).bind fun now h₂ hh₂ => ?_
  refine Prog.safe_history_op fun r => ⟨trivial, Prog.safe_history_op fun (w, received) => ?_⟩
  have hh₄ := hh₂.answered (setSettingPacket 44 password now) r ksuInactivityTimeout w received
  refine ⟨trivial, ?_⟩
  cases w with
  | error e => cases e <;> exact .inl ⟨⟨_, rfl⟩, hh₄⟩
  | ok f =>
    change Adopted (f.settingsMode <|> mode) _ at hh₄
    show Tracked (if (f.packet p.writeMode received).cmd = ackAck then _ else _) _ _
    have hcmd := f.getCmd_packet p.writeMode received
    split
    next hack =>
      rw [hack] at hcmd
      have hnone : f.settingsMode = none := if_neg (by rw [← hcmd]; decide)
      rw [hnone] at hh₄
      exact (honly (readData_only Op.Ordinary.notAsking _ _) hh₄).bind fun _ _ hh => .inl ⟨⟨_, rfl⟩, hh⟩
    next =>
      split
      next hsettings =>
        have hf : f.cmd.setWidth 16 = ackAllSettings := by
          rw [← hcmd, hsettings]
          decide
        have hsome : f.settingsMode = some (f.payload.getD writeModeOffset 0) := if_pos hf
        rw [hsome] at hh₄
        exact .inr ⟨f, received, rfl, hf, hh₄⟩
      next hother =>
        have hf : f.cmd.setWidth 16 ≠ ackAllSettings := by
          intro hf
          rw [← hcmd] at hf
          exact hother (longCmd_eq_of_getCmd hf)
        have hnone : f.settingsMode = none := if_neg hf
        rw [hnone] at hh₄
        exact .inl ⟨⟨_, rfl⟩, hh₄⟩

theorem captured_ensures (cfg : ProcessorConfig) (fuel : ℕ) (p : Processor) {f : Frame}
    (hf : f.cmd.setWidth 16 = ackAllSettings) (writeMode : BitVec 32) (now : ℤ) :
    (p.captured cfg fuel (f.packet writeMode now)).Ensures fun q =>
      q.writeMode = (f.payload.getD writeModeOffset 0).setWidth 32 := by
  intro beyond
  have hmode := f.memory_writeMode hf writeMode now beyond
  show Prog.Ensures _ (((Processor.checkSettings cfg
    { p with writeMode := ((f.packet writeMode now).memory beyond writeModeOffset).setWidth 32 }
    (f.packet writeMode now))).bind _)
  rw [hmode]
  refine (checkSettings_sameModes cfg _ _).bind fun q hq => ?_
  refine (drain_sameModes cfg fuel q).bind fun q' hq' => ensures_then _ fun now => ?_
  have hwrite := (hq.trans hq').writeMode
  split
  · exact ensures_then _ fun _ => ensures_then _ fun _ => hwrite
  · exact hwrite

theorem captured_tracked (cfg : ProcessorConfig) (fuel : ℕ) (p : Processor) {f : Frame}
    (hf : f.cmd.setWidth 16 = ackAllSettings) (writeMode : BitVec 32) (now : ℤ)
    (initial : BitVec 32) {h : History} (hh : Adopted (some (f.payload.getD writeModeOffset 0)) h) :
    Tracked (p.captured cfg fuel (f.packet writeMode now)) (Follows initial) h := by
  have hsettings : (f.packet writeMode now).cmd = ackAllSettings :=
    longCmd_eq_of_getCmd ((f.getCmd_packet writeMode now).trans hf)
  have honly := captured_only Op.Ordinary.notAsking (by simp [Op.NotAsking])
    (by simp [Op.NotAsking]) (by simp [Op.NotAsking]) (by simp [Op.NotAsking])
    (by simp [Op.NotAsking]) (by simp [Op.NotAsking]) (by simp [Op.NotAsking])
    (by simp [Op.NotAsking]) cfg fuel p hsettings
  have hensures := captured_ensures cfg fuel p hf writeMode now
  exact (hh.only honly hensures fun _ _ => trivial).mono fun q _ hq => hq.2.follows hq.1

theorem processCapture_tracked (cfg : ProcessorConfig) (fuel : ℕ) {p : Processor}
    {initial : BitVec 32} {h : History} (hp : Follows initial p h) :
    Tracked (p.processCapture cfg fuel) (Follows initial) h := by
  unfold processCapture
  refine (hp.only (captureDevice_only Op.Ordinary.notAsking (by simp [Op.NotAsking]) p)
    (Prog.ensures_trivial _)).bind fun result h₁ hp₁ => ?_
  split
  · refine (hp₁.2.only (getPasswords_only Op.Ordinary.notAsking (by simp [Op.NotAsking]) p)
      (Prog.ensures_trivial _)).bind fun passwords h₂ hp₂ => ?_
    cases passwords with
    | none => exact hp₂.2
    | some passwords =>
      refine (setPassword_tracked p _ hp₂.2.adopted).bind fun r h₃ hr => ?_
      rcases hr with ⟨⟨b, rfl⟩, hh₃⟩ | ⟨f, now, rfl, hf, hh₃⟩
      · have hp₃ : Follows initial p h₃ := hh₃.follows hp₂.2.writeMode
        cases b <;> exact hp₃
      · exact captured_tracked cfg fuel p hf p.writeMode now initial hh₃
  · exact hp₁.2

theorem runRound_tracked (cfg : ProcessorConfig) (fuel : ℕ) {p : Processor}
    {initial : BitVec 32} {h : History} (hp : Follows initial p h) :
    Tracked (p.runRound cfg fuel) (fun x h' => ∀ q, x = .inl q → Follows initial q h') h := by
  have hperform : ∀ {o : Op}, o.NotAsking → ∀ {q : Processor} {h : History}, Follows initial q h →
      Tracked (Prog.perform o) (fun _ h' => Follows initial q h') h :=
    fun {o} ho _ _ hq => (hq.only (x := Prog.perform o) ⟨ho, fun _ => trivial⟩
      (Prog.ensures_trivial _)).mono fun _ _ ha => ha.2
  unfold runRound
  refine (hperform (by simp [Op.NotAsking]) hp).bind fun doRun h₁ hp₁ => ?_
  split
  · refine (hperform (by simp [Op.NotAsking]) hp₁).bind fun _ h₂ hp₂ => ?_
    have hstate : Tracked (Processor.processState cfg fuel { p with state := p.nextState })
        (Follows initial) h₂ := by
      unfold processState
      split
      · refine (hp₂.only (processTraffic_only Op.Ordinary.notAsking (by simp [Op.NotAsking]) cfg _)
          (processTraffic_sameWriteMode cfg _)).mono fun q _ hq => ?_
        exact hq.2.same hq.1
      · exact processCapture_tracked cfg fuel (hp₂.same rfl)
    refine hstate.bind fun q h₃ hq => ?_
    have hnext : ∀ {h : History}, Follows initial q h →
        ∀ q', (Sum.inl q : Processor ⊕ Processor) = .inl q' → Follows initial q' h := by
      rintro h hq _ ⟨rfl⟩
      exact hq
    split
    · exact (hperform (by simp [Op.NotAsking]) hq).bind fun _ _ hq => hnext hq
    · refine (hperform (by simp [Op.NotAsking]) hq).bind fun empty h₄ hq₄ => ?_
      exact (hperform (by simp [Op.NotAsking]) hq₄).bind fun _ _ hq => hnext hq
  · intro q hq
    cases hq

end Processor

/-! ### Runs -/

/-- The thread begins a round of its main loop, after others, as `q` and with this history. -/
def AtRound (cfg : ProcessorConfig) (fuel : ℕ) (p q : Processor) (h : History) : Prop :=
  ∃ (before : History) (now : ℤ) (n : ℕ), n < fuel ∧
    (historyEnv Op Res).Reaches (Processor.waitForStart cfg fuel, []) (.ret (), before) ∧
    (historyEnv Op Res).Rounds (fun p : Processor => p.runRound cfg fuel)
      ({ p with
          state := .processKsuTraffic, nextState := .processKsuTraffic, nextModeLoopCycle := now },
        before ++ [⟨.time, now⟩]) n (q, h)

theorem AtRound.reaches {cfg : ProcessorConfig} {fuel : ℕ} {p q : Processor} {h : History}
    (hq : AtRound cfg fuel p q h) : ∃ rest : Processor ⊕ Processor → ProcessorM Unit,
      (historyEnv Op Res).Reaches (p.run cfg fuel, []) ((q.runRound cfg fuel).bind rest, h) := by
  obtain ⟨before, now, n, hn, hstart, hrounds⟩ := hq
  obtain ⟨m, rfl⟩ := Nat.exists_eq_add_of_lt hn
  have htime : (historyEnv Op Res).Step (Processor.time, before) (.ret now, before ++ [⟨.time, now⟩]) :=
    .answer rfl
  obtain ⟨rest, hrest⟩ := hrounds.reaches_body m fun _ => (do
    let _ ← Prog.perform Op.lockCmd
    Prog.loop Processor.clearRound (n + m + 1) ()
    let _ ← Prog.perform Op.unlockCmd
    let _ ← Prog.perform Op.notifyExit
    return () : ProcessorM Unit)
  exact ⟨rest, (hstart.bind _).trans (Relation.ReflTransGen.head (htime.bind _) hrest)⟩

theorem AtRound.follows {cfg : ProcessorConfig} {fuel : ℕ} {p q : Processor} {h : History}
    (hq : AtRound cfg fuel p q h) : Follows p.writeMode q h := by
  obtain ⟨before, now, n, -, hstart, hrounds⟩ := hq
  have hempty : Adopted none [] := ⟨rfl, rfl⟩
  have honly := Processor.waitForStart_only (P := Op.NotAsking) (by simp [Op.NotAsking])
    (by simp [Op.NotAsking]) (by simp [Op.NotAsking]) (by simp [Op.NotAsking])
    (by simp [Op.NotAsking]) cfg fuel
  have hbefore : Adopted none before :=
    ((hempty.only honly (Prog.ensures_trivial _) fun _ _ => trivial).returns
      (fun _ _ _ hd => (historyEnv_drift hd).elim) hstart).2
  have hstarted : ∀ q : Processor, q.writeMode = p.writeMode →
      Follows p.writeMode q (before ++ [⟨.time, now⟩]) :=
    fun q hq => (hbefore.snoc (o := .time) (by simp [Op.NotAsking]) now).follows hq
  refine Prog.Safe.rounds (J := Follows p.writeMode)
    (fun q h hq => Processor.runRound_tracked cfg fuel hq)
    (fun _ _ _ _ hd => (historyEnv_drift hd).elim) (hstarted _ ?_) hrounds
  rfl

/-- `q` waits for a packet in `STATE_PROCESS_KSU_TRAFFIC`; nothing in the traffic changes the write
mode before the wait. -/
def Listening (cfg : ProcessorConfig) (fuel : ℕ) (p q : Processor) (h : History) : Prop :=
  ∃ (q₀ : Processor) (h₀ : History) (timeout : ℕ)
      (k : Res (.wait timeout) → ProcessorM Processor),
    AtRound cfg fuel p q₀ h₀ ∧ q₀.nextState = .processKsuTraffic ∧
    q = { q₀ with state := .processKsuTraffic } ∧
    (historyEnv Op Res).Reaches
      (q.processTraffic cfg, h₀ ++ [⟨.loopTest, true⟩, ⟨.enter .processKsuTraffic, ()⟩])
      (.op (.wait timeout) k, h)

theorem Listening.follows {cfg : ProcessorConfig} {fuel : ℕ} {p q : Processor} {h : History}
    (hq : Listening cfg fuel p q h) : q.writeMode = writeModeAfter p.writeMode (modeTrack h) := by
  obtain ⟨q₀, h₀, timeout, k, hround, -, hstate, hreaches⟩ := hq
  have hfollows := hround.follows
  have hadopted := (hfollows.adopted.snoc (o := .loopTest) (by simp [Op.NotAsking]) true).snoc
    (o := .enter .processKsuTraffic) (by simp [Op.NotAsking]) ()
  rw [List.append_assoc] at hadopted
  have hsafe := hadopted.only (Processor.processTraffic_only Op.Ordinary.notAsking
    (by simp [Op.NotAsking]) cfg q) (Prog.ensures_trivial _)
    (I := fun h' => (modeTrack h').adopted = (modeTrack h₀).adopted) fun _ hh => hh.adopted
  have hsame := hsafe.reaches hadopted.adopted (fun _ _ _ hd => (historyEnv_drift hd).elim) hreaches
  rw [writeModeAfter, hsame, hstate]
  exact hfollows.writeMode

theorem AtRound.listening {cfg : ProcessorConfig} {fuel : ℕ} {p q : Processor} {h : History}
    (hq : AtRound cfg fuel p q h) (hstate : q.nextState = .processKsuTraffic) :
    Listening cfg fuel p { q with state := .processKsuTraffic }
      (h ++ [⟨.loopTest, true⟩, ⟨.enter .processKsuTraffic, ()⟩]) :=
  ⟨q, h, _, _, hq, hstate, rfl, Relation.ReflTransGen.refl⟩

theorem getMode_info (f : Frame) (hf : f.cmd.setWidth 16 = ackInfo) (writeMode : BitVec 32)
    (now : ℤ) : getMode (f.packet writeMode now).cmd = (writeMode.setWidth 8).setWidth 16 := by
  have hcmd : f.cmd.setWidth 16 = ackInfoMode 0 := hf.trans (by decide)
  rw [Frame.packet, longCmd, if_pos hcmd, getMode]
  have hmask : ∀ i < 8, modeMask.getLsbD (8 + i) = true := by decide
  apply BitVec.eq_of_getLsbD_eq
  intro i hi
  simp only [BitVec.getLsbD_setWidth, BitVec.getLsbD_ushiftRight, BitVec.getLsbD_and,
    BitVec.getLsbD_or, BitVec.getLsbD_shiftLeft]
  by_cases h8 : i < 8
  · have h16 : 8 + i < 16 := by omega
    have h32 : 8 + i < 32 := by omega
    simp [hmask i h8, hi, h8, h16, h32]
  · have h16 : ¬8 + i < 16 := by omega
    simp [h8, h16]

/-- In the traffic the mode in the label of the information is the one that the last settings carry
exactly if the last settings read carry the mode of the last that answered the password. -/
theorem traffic_mode_iff (cfg : ProcessorConfig) (fuel : ℕ) (p : Processor) {q : Processor}
    {h : History} (hq : Listening cfg fuel p q h) {f : Frame} (hf : f.cmd.setWidth 16 = ackInfo)
    (now : ℤ) {mode : Byte} (hmode : (modeTrack h).last = some mode) :
    getMode (f.packet q.writeMode now).cmd = mode.setWidth 16 ↔
      ModeAdopted p.writeMode (modeTrack h) := by
  have hlabel : (q.writeMode.setWidth 8 : Byte) =
      (modeTrack h).adopted.getD (p.writeMode.setWidth 8) := by
    rw [hq.follows, writeModeAfter]
    cases (modeTrack h).adopted <;> simp
  rw [getMode_info f hf, ModeAdopted, hmode, Option.some_inj, hlabel]
  constructor
  · intro heq
    have hlsb := congrArg lsb heq
    rw [lsb_setWidth, lsb_setWidth] at hlsb
    exact hlsb.symm
  · rintro rfl
    rfl

/-- The operator sets the first mode by hand. -/
def manualScript : List (Event Op Res) :=
  [⟨.loopTest, true⟩, ⟨.enter .processKsuTraffic, ()⟩,
   ⟨.wait 30000, ((.ok modeFrame : Wait), (0 : ℤ))⟩, ⟨.time, (0 : ℤ)⟩,
   ⟨.heap, fun _ : ℕ => (0 : Byte)⟩, ⟨.setDoRun true, ()⟩]

/-- The next round is one of traffic, and the mode set by hand has not been adopted. -/
def manualTest (x : ProcessorM (Processor ⊕ Processor)) (h : History) : Bool :=
  match x with
  | .ret (.inl q) => q.nextState = .processKsuTraffic ∧ (modeTrack h).adopted = none ∧
      (modeTrack h).last = some 1
  | _ => false

theorem exists_listening_manual : ∃ q h, Listening (unfilteredConfig true) 2 knownProcessor q h ∧
    (modeTrack h).adopted = none ∧ (modeTrack h).last = some 1 := by
  obtain ⟨x, h, hreaches, htest⟩ := Prog.exists_reaches_of_replay_test record still
    (manualScript.map .answer)
    (c := (Processor.runRound (unfilteredConfig true) 2 { knownProcessor with nextModeLoopCycle := 0 },
      [⟨.time, (0 : ℤ)⟩])) manualTest (by decide +kernel)
  unfold manualTest at htest
  split at htest
  next q =>
    obtain ⟨hstate, hadopted, hlast⟩ := of_decide_eq_true htest
    have hround : AtRound (unfilteredConfig true) 2 knownProcessor q h :=
      ⟨[], 0, 1, by decide, Relation.ReflTransGen.refl, .next .start hreaches⟩
    have hsnoc : modeTrack (h ++ [⟨.loopTest, true⟩, ⟨.enter .processKsuTraffic, ()⟩]) =
        modeTrack h := by
      rw [modeTrack, List.foldl_append]
      rfl
    refine ⟨_, _, hround.listening hstate, ?_, ?_⟩
    · rw [hsnoc]
      exact hadopted
    · rw [hsnoc]
      exact hlast
  next => cases htest

theorem traffic_mode_iff_manual : ∃ q h, Listening (unfilteredConfig true) 2 knownProcessor q h ∧
    (getMode (infoFrame.packet q.writeMode 0).cmd = (1 : Byte).setWidth 16 ↔
      ModeAdopted knownProcessor.writeMode (modeTrack h)) := by
  obtain ⟨q, h, hq, -, hlast⟩ := exists_listening_manual
  exact ⟨q, h, hq, traffic_mode_iff (unfilteredConfig true) 2 knownProcessor hq (by decide) 0 hlast⟩

theorem traffic_mode_false : ¬ ∀ (cfg : ProcessorConfig) (fuel : ℕ) (p q : Processor) (h : History),
    Listening cfg fuel p q h → ∀ (f : Frame) (now : ℤ) (mode : Byte),
      f.cmd.setWidth 16 = ackInfo → (modeTrack h).last = some mode →
      getMode (f.packet q.writeMode now).cmd = mode.setWidth 16 := by
  intro hall
  obtain ⟨q, h, hq, hadopted, hlast⟩ := exists_listening_manual
  have hmode := hall (unfilteredConfig true) 2 knownProcessor q h hq infoFrame 0 1 (by decide) hlast
  rw [getMode_info infoFrame (by decide), hq.follows, writeModeAfter, hadopted] at hmode
  exact absurd hmode (by decide)

end Ritex
