import Ritex.ModeTracking

/-! The write mode of the station over a capture: the cycle through the modes leaves it in the mode
of the last request that reached it. -/
namespace Ritex
open Interaction

def modeRequest (packet : DataPacket) : Option Word :=
  if getCmd packet.cmd = reqSettingSet then
    match packet.data with
    | [setting, hi, lo] => if setting = 45 then some (hi ++ lo) else none
    | _ => none
  else none

/-- A station behind a line that may be down. -/
structure Station where
  mode : Word
  received : List Word
  isLineDown : Bool
  deriving DecidableEq

namespace Station

/-- The station applies every request for a mode that it receives. -/
def receive (s : Station) (packet : DataPacket) : Station :=
  if s.isLineDown then s
  else match modeRequest packet with
    | some mode => { s with mode := mode, received := s.received ++ [mode] }
    | none => s

/-- Its settings carry its mode, and no pending command is a request for a mode. -/
def next : (o : Op) → Station → Res o → Option Station
  | .write _ packet, s, _ => some (s.receive packet)
  | .wait _, s, r => if r.1.settingsMode.all (· = lsb s.mode) then some s else none
  | .popFront, s, c => if c.all (fun c => (modeRequest c.dataPacket).isNone) then some s else none
  | _, s, _ => some s

def setLine (down : Bool) (s : Station) : Option Station := some { s with isLineDown := down }

end Station

/-- Replies are lost and spoiled in any way, and requests too. -/
def stationEnv : Env Op Res Station := Env.ofSteps Station.next Station.setLine

/-- A round of the main loop that begins in `STATE_CAPTURE_DEVICE`. -/
def CaptureRound (cfg : ProcessorConfig) (fuel : ℕ) (c c' : Processor × Station) : Prop :=
  c.1.nextState = .captureDevice ∧
    stationEnv.Round (fun p : Processor => p.runRound cfg fuel) c c'

def CaptureSession (cfg : ProcessorConfig) (fuel : ℕ) :
    Processor × Station → Processor × Station → Prop :=
  Relation.ReflTransGen (CaptureRound cfg fuel)

/-! ### The requests of a cycle -/

/-- The modes that the rounds of a cycle with these indices ask for. -/
def askedModes (isAutoMode : Bool) (w : ℕ) (indices : List ℕ) : List ℕ :=
  (indices.map fun i => (w + i) % 7).filter fun m => !(isAutoMode && m == 1)

def cycleModes (isAutoMode : Bool) (w : ℕ) : List ℕ := askedModes isAutoMode w [1, 2, 3, 4, 5, 6, 7]

def lastMode (w : ℕ) (modes : List ℕ) : ℕ := modes.getLast?.getD w

/-- A cycle of which `n` requests arrived ends in the mode it began with. -/
def Restored (isAutoMode : Bool) (w n : ℕ) : Prop :=
  n = 0 ∨ (n = (cycleModes isAutoMode w).length ∧ ¬(isAutoMode = true ∧ w = 1))

instance (isAutoMode : Bool) (w n : ℕ) : Decidable (Restored isAutoMode w n) :=
  inferInstanceAs (Decidable (_ ∨ _))

theorem lastMode_cons (w m : ℕ) (modes : List ℕ) : lastMode w (m :: modes) = lastMode m modes := by
  rw [lastMode, List.getLast?_cons]
  rfl

theorem askedModes_cons (isAutoMode : Bool) (w i : ℕ) (indices : List ℕ) :
    askedModes isAutoMode w (i :: indices) =
      if (isAutoMode && (w + i) % 7 == 1) = true then askedModes isAutoMode w indices
      else (w + i) % 7 :: askedModes isAutoMode w indices := by
  rw [askedModes, List.map_cons, List.filter_cons]
  split <;> split <;> simp_all [askedModes]

theorem lastMode_take_eq_iff {isAutoMode : Bool} {w n : ℕ} (hw : w ≤ 6)
    (hn : n ≤ (cycleModes isAutoMode w).length) :
    lastMode w ((cycleModes isAutoMode w).take n) = w ↔ Restored isAutoMode w n := by
  have hall : ∀ a : Bool, ∀ w ≤ 6, ∀ n ≤ (cycleModes a w).length,
      (lastMode w ((cycleModes a w).take n) = w ↔ Restored a w n) := by decide
  exact hall isAutoMode w hw n hn

theorem lastMode_take_lt {isAutoMode : Bool} {w n : ℕ} (hw : w ≤ 6)
    (hn : n ≤ (cycleModes isAutoMode w).length) :
    lastMode w ((cycleModes isAutoMode w).take n) < 7 := by
  have hall : ∀ a : Bool, ∀ w ≤ 6, ∀ n ≤ (cycleModes a w).length,
      lastMode w ((cycleModes a w).take n) < 7 := by decide
  exact hall isAutoMode w hw n hn

/-- A cycle never asks for the mode that it has just set. -/
theorem cycleModes_isChain {isAutoMode : Bool} {w : ℕ} (hw : w ≤ 6) :
    (w :: cycleModes isAutoMode w).IsChain (· ≠ ·) := by
  have hall : ∀ a : Bool, ∀ w ≤ 6, (w :: cycleModes a w).IsChain (· ≠ ·) := by decide
  exact hall isAutoMode w hw

theorem ofNat_mode_inj {m n : ℕ} (hm : m < 7) (hn : n < 7) :
    BitVec.ofNat 16 m = BitVec.ofNat 16 n ↔ m = n := by
  constructor
  · intro h
    have h := congrArg BitVec.toNat h
    simp only [BitVec.toNat_ofNat] at h
    omega
  · rintro rfl
    rfl

theorem setWidth_lsb_mode {m : ℕ} (hm : m < 7) :
    (lsb (BitVec.ofNat 16 m)).setWidth 16 = BitVec.ofNat 16 m := by
  have hall : ∀ m < 7, (lsb (BitVec.ofNat 16 m)).setWidth 16 = BitVec.ofNat 16 m := by decide
  exact hall m hm

/-! ### Specifications -/

structure Stands (m : ℕ) (received : List Word) (s : Station) : Prop where
  mode : s.mode = BitVec.ofNat 16 m
  received : s.received = received

abbrev OnStation {α : Type} (x : ProcessorM α) (Q : α → Station → Prop) (s : Station) : Prop :=
  x.Safe stationEnv (fun _ => True) Q s

def Op.Harmless (o : Op) : Prop :=
  ∀ writer packet, o = .write writer packet → modeRequest packet = none

theorem Op.Ordinary.harmless (o : Op) (ho : o.Ordinary) : o.Harmless := by
  rintro writer packet rfl
  exact ho.1.elim

theorem modeRequest_setSetting_mode (mode : Word) (now : ℤ) :
    modeRequest (setSettingPacket 45 mode now) = some mode := by
  have hcmd : getCmd reqSettingSet = reqSettingSet := by decide
  have hbytes : msb mode ++ lsb mode = mode :=
    (swap16_ofMemory _ _).symm.trans (swap16_msb_lsb mode)
  rw [modeRequest, setSettingPacket, if_pos hcmd]
  exact congrArg some hbytes

theorem modeRequest_requestCurrentData (now : ℤ) :
    modeRequest (requestCurrentDataPacket now) = none := by
  have hcmd : getCmd reqInfo ≠ reqSettingSet := by decide
  rw [modeRequest, requestCurrentDataPacket, if_neg hcmd]

theorem harmless_write {writer : Writer} {packet : DataPacket} (h : modeRequest packet = none) :
    (Op.write writer packet).Harmless := by
  rintro _ _ ⟨rfl, rfl⟩
  exact h

theorem harmless_of {o : Op} (h : ∀ writer packet, o ≠ .write writer packet) : o.Harmless :=
  fun writer packet heq => absurd heq (h writer packet)

theorem Station.receive_eq_self {s : Station} {packet : DataPacket}
    (h : modeRequest packet = none) : s.receive packet = s := by
  rw [Station.receive, h]
  split <;> rfl

namespace Stands

variable {m : ℕ} {l : List Word} {s s' : Station}

theorem move (hs : Stands m l s) (hd : stationEnv.drift s s') : Stands m l s' := by
  obtain ⟨down, hmove⟩ := hd
  cases hmove
  exact ⟨hs.mode, hs.received⟩

theorem answer (hs : Stands m l s) {o : Op} (ho : o.Harmless) {r : Res o}
    (ha : stationEnv.answer o s r s') : Stands m l s' := by
  have hsame : ∀ s', some s = some s' → Stands m l s' := by
    rintro _ ⟨⟩
    exact hs
  cases o with
  | write writer packet =>
    have ha : some (s.receive packet) = some s' := ha
    rw [Station.receive_eq_self (ho writer packet rfl)] at ha
    exact hsame s' ha
  | wait timeout => exact hsame s' (Option.ite_none_right_eq_some.mp ha).2
  | popFront => exact hsame s' (Option.ite_none_right_eq_some.mp ha).2
  | _ => exact hsame s' ha

theorem only (hs : Stands m l s) {α : Type} {x : ProcessorM α} (hx : x.Only Op.Harmless)
    {R : α → Prop} (hr : x.Ensures R) : OnStation x (fun a s' => R a ∧ Stands m l s') s :=
  hx.safe_ensures hr (fun _ _ => trivial) (fun _ _ hs hd => hs.move hd)
    (fun _ ho _ _ _ hs ha => hs.answer ho ha) hs

end Stands

namespace Processor

theorem reply_safe {m : ℕ} {l : List Word} {s : Station} (hs : Stands m l s) {α : Type}
    {timeout : ℕ} {k : Wait × ℤ → ProcessorM α} {Q : α → Station → Prop}
    (hk : ∀ w now, (∀ f mode, w = .ok f → f.settingsMode = some mode → mode = lsb (BitVec.ofNat 16 m)) →
      ∀ {s}, Stands m l s → OnStation (k (w, now)) Q s) :
    OnStation (Prog.op (Op.wait timeout) k) Q s := by
  intro s₁ hd r s₂ ha
  have hs₁ : Stands m l s₁ := Prog.drift_invariant (fun _ _ hs hd => hs.move hd) hd hs
  obtain ⟨hshown, hsame⟩ := Option.ite_none_right_eq_some.mp ha
  obtain ⟨w, now⟩ := r
  refine ⟨trivial, hk w now ?_ (hs₁.answer (harmless_of (by simp)) ha)⟩
  rintro f mode rfl hmode
  rw [← hs₁.mode]
  have hall : Option.all (· = lsb s₁.mode) f.settingsMode = true := hshown
  rw [hmode] at hall
  exact of_decide_eq_true hall

theorem readWriteMode_ensures {f : Frame} (hf : f.cmd.setWidth 16 = ackAllSettings) {m : ℕ}
    (hshown : ∀ mode, f.settingsMode = some mode → mode = lsb (BitVec.ofNat 16 m))
    (writeMode : BitVec 32) (now : ℤ) :
    (readData (f.packet writeMode now) (PayloadReader.byte writeModeOffset)).Ensures
      (· = lsb (BitVec.ofNat 16 m)) := by
  intro beyond
  exact (f.memory_writeMode hf writeMode now beyond).trans (hshown _ (if_pos hf))

/-- The request arrives, or the station stays in its mode and the processor notices. -/
theorem changeMode_arrives (p : Processor) {m v : ℕ} (hm : m < 7) (hv : v < 7) (hne : m ≠ v)
    {l : List Word} {s : Station} (hs : Stands m l s) :
    OnStation (p.changeMode (BitVec.ofNat 16 v)) (fun changed s' =>
      Stands v (l ++ [BitVec.ofNat 16 v]) s' ∨ (changed = false ∧ Stands m l s')) s := by
  unfold changeMode
  refine (hs.only (time_only Op.Ordinary.harmless) (Prog.ensures_trivial _)).bind
    fun now s₁ hs₁ => ?_
  intro s₂ hd r s₃ ha
  have hs₂ : Stands m l s₂ := Prog.drift_invariant (fun _ _ hs hd => hs.move hd) hd hs₁.2
  obtain rfl : s₂.receive (setSettingPacket 45 (BitVec.ofNat 16 v) now) = s₃ := Option.some.inj ha
  have hcases : ∃ m' l', m' < 7 ∧ Stands m' l'
      (s₂.receive (setSettingPacket 45 (BitVec.ofNat 16 v) now)) ∧
      (m' = v ∧ l' = l ++ [BitVec.ofNat 16 v] ∨ m' = m ∧ l' = l) := by
    rw [Station.receive, modeRequest_setSetting_mode]
    split
    · exact ⟨m, l, hm, hs₂, .inr ⟨rfl, rfl⟩⟩
    · exact ⟨v, _, hv, ⟨rfl, congrArg (· ++ _) hs₂.received⟩, .inl ⟨rfl, rfl⟩⟩
  obtain ⟨m', l', hm', hs₃, hcases⟩ := hcases
  refine ⟨trivial, reply_safe hs₃ fun w received hshown {s} hs => ?_⟩
  have hfalse : Stands m' l' s →
      Stands v (l ++ [BitVec.ofNat 16 v]) s ∨ (false = false ∧ Stands m l s) := by
    intro hstands
    rcases hcases with ⟨rfl, rfl⟩ | ⟨rfl, rfl⟩
    · exact .inl hstands
    · exact .inr ⟨rfl, hstands⟩
  cases w with
  | error e => cases e <;> exact hfalse hs
  | ok f =>
    show OnStation (if getCmd (f.packet p.writeMode received).cmd = ackAllSettings then _ else _) _ s
    split
    next hcmd =>
      rw [f.getCmd_packet] at hcmd
      refine (hs.only (readData_only Op.Ordinary.harmless _ _)
        (readWriteMode_ensures hcmd (fun mode hmode => hshown f mode rfl hmode) _ _)).bind
          fun current s₄ hs₄ => ?_
      obtain ⟨rfl, hs₄⟩ := hs₄
      show Stands v _ s₄ ∨ (decide _ = false ∧ _)
      rcases hcases with ⟨rfl, rfl⟩ | ⟨rfl, rfl⟩
      · exact .inl hs₄
      · refine .inr ⟨decide_eq_false ?_, hs₄⟩
        rw [setWidth_lsb_mode hm, ofNat_mode_inj hm hv]
        exact hne
    next => exact hfalse hs

theorem cycleMode_eq {p : Processor} {w : ℕ} (hw : w ≤ 6) (hp : p.writeMode = BitVec.ofNat 32 w)
    (i : ℕ) : cycleMode p.writeMode i = ((w + i) % 7 : ℕ) := by
  have hall : ∀ w ≤ 6, (BitVec.ofNat 32 w).toInt = w := by decide
  have hint : p.writeMode.toInt = w := by rw [hp, hall w hw]
  rw [cycleMode, hint, Int.tmod_eq_emod_of_nonneg (by omega)]
  omega

/-- What has arrived when a cycle, or the rest of one, is over. -/
def Arrived (m : ℕ) (l : List Word) (asked : List ℕ) (s : Station) : Prop :=
  ∃ n ≤ asked.length,
    Stands (lastMode m (asked.take n)) (l ++ (asked.take n).map (BitVec.ofNat 16)) s

theorem Arrived.none {m : ℕ} {l : List Word} {asked : List ℕ} {s : Station} (hs : Stands m l s) :
    Arrived m l asked s :=
  ⟨0, by omega, by simpa [lastMode] using hs⟩

theorem Arrived.cons {m v : ℕ} {l : List Word} {asked : List ℕ} {s : Station}
    (hs : Arrived v (l ++ [BitVec.ofNat 16 v]) asked s) : Arrived m l (v :: asked) s := by
  obtain ⟨n, hn, hs⟩ := hs
  refine ⟨n + 1, by simpa using hn, ?_⟩
  rw [List.take_succ_cons, lastMode_cons, List.map_cons, ← List.singleton_append, ← List.append_assoc]
  exact hs

theorem modeCycle_arrives (cfg : ProcessorConfig) {p : Processor} {w : ℕ} (hw : w ≤ 6)
    (hp : p.writeMode = BitVec.ofNat 32 w) (indices : List ℕ) {m : ℕ} (hm : m < 7)
    (hchain : (m :: askedModes p.isAutoMode w indices).IsChain (· ≠ ·)) {l : List Word}
    {s : Station} (hs : Stands m l s) :
    OnStation (p.modeCycle cfg indices)
      (fun _ => Arrived m l (askedModes p.isAutoMode w indices)) s := by
  induction indices generalizing m l s with
  | nil => exact .none hs
  | cons i rest ih =>
    have hskip : (cycleMode p.writeMode i == 1) = ((w + i) % 7 == 1) := by
      rw [cycleMode_eq hw hp, Bool.eq_iff_iff, beq_iff_eq, beq_iff_eq]
      omega
    rw [askedModes_cons] at hchain ⊢
    unfold modeCycle
    rw [hskip]
    split
    next hauto =>
      rw [if_pos hauto] at hchain
      exact ih hm hchain hs
    next hauto =>
      rw [if_neg hauto] at hchain
      have hv : (w + i) % 7 < 7 := Nat.mod_lt _ (by omega)
      have hne : m ≠ (w + i) % 7 := (List.isChain_cons_cons.mp hchain).1
      have hrest := (List.isChain_cons_cons.mp hchain).2
      rw [cycleMode_eq hw hp, BitVec.ofInt_natCast]
      refine (changeMode_arrives p hm hv hne hs).bind fun changed s₁ hs₁ => ?_
      rcases hs₁ with hs₁ | ⟨rfl, hs₁⟩
      · split
        · refine (hs₁.only (requestCurrentData_only Op.Ordinary.harmless fun now =>
            harmless_write (modeRequest_requestCurrentData now)) (Prog.ensures_trivial _)).bind
              fun _ s₂ hs₂ => ?_
          refine (hs₂.2.only (waitForKsuActivity_only Op.Ordinary.harmless p _)
            (Prog.ensures_trivial _)).bind fun received s₃ hs₃ => ?_
          obtain ⟨packet, error⟩ := received
          cases packet with
          | none => exact fun _ _ _ _ _ => ⟨trivial, trivial⟩
          | some packet =>
            show OnStation (if error = .noError then _ else _) _ s₃
            split
            · refine (hs₃.2.only (reportData_only Op.Ordinary.harmless cfg _)
                (Prog.ensures_trivial _)).bind fun _ s₄ hs₄ => ?_
              exact (ih hv hrest hs₄.2).mono fun _ _ ha => ha.cons
            · exact (ih hv hrest hs₃.2).mono fun _ _ ha => ha.cons
        · exact Arrived.cons (.none hs₁)
      · exact .none hs₁

/-! ### The visit -/

theorem popFront_harmless {m : ℕ} {l : List Word} {s : Station} (hs : Stands m l s) {α : Type}
    {k : Option CustomCommand → ProcessorM α} {Q : α → Station → Prop}
    (hk : ∀ c, (∀ command, c = some command → modeRequest command.dataPacket = none) →
      ∀ {s}, Stands m l s → OnStation (k c) Q s) :
    OnStation (Prog.op Op.popFront k) Q s := by
  intro s₁ hd c s₂ ha
  have hs₁ : Stands m l s₁ := Prog.drift_invariant (fun _ _ hs hd => hs.move hd) hd hs
  obtain ⟨hother, -⟩ := Option.ite_none_right_eq_some.mp ha
  refine ⟨trivial, hk c ?_ (hs₁.answer (harmless_of (by simp)) ha)⟩
  rintro command rfl
  exact Option.isNone_iff_eq_none.mp hother

theorem drainRound_stands (cfg : ProcessorConfig) (p : Processor) {m : ℕ} {l : List Word}
    {s : Station} (hs : Stands m l s) :
    OnStation (p.drainRound cfg)
      (fun x s' => Sum.elim p.SameModes p.SameModes x ∧ Stands m l s') s := by
  have hperform : ∀ {o : Op}, o.Harmless → ∀ {s}, Stands m l s →
      OnStation (Prog.perform o) (fun _ => Stands m l) s := fun {o} ho _ hs =>
    (hs.only (x := Prog.perform o) ⟨ho, fun _ => trivial⟩ (Prog.ensures_trivial _)).mono
      fun _ _ ha => ha.2
  unfold drainRound
  refine (hperform (harmless_of (by simp)) hs).bind fun _ s₁ hs₁ => ?_
  refine popFront_harmless hs₁ fun pending hother {s₂} hs₂ => ?_
  refine (hperform (harmless_of (by simp)) hs₂).bind fun _ s₃ hs₃ => ?_
  cases pending with
  | some c =>
    refine (hperform (harmless_of (by simp)) hs₃).bind fun _ s₄ hs₄ => ?_
    refine (hs₄.only (processCommand_only Op.Ordinary.harmless (fun _ => harmless_of (by simp))
      (fun now => harmless_write (modeRequest_requestCurrentData now)) cfg p c
      (harmless_write (hother c rfl))) (processCommand_sameModes cfg p c)).bind fun _ s₅ hq => ?_
    exact (hperform (harmless_of (by simp)) hq.2).bind fun _ _ hs₆ => ⟨hq.1, hs₆⟩
  | none => exact ⟨.refl p, hs₃⟩

theorem drain_stands (cfg : ProcessorConfig) (n : ℕ) (p : Processor) {m : ℕ} {l : List Word}
    {s : Station} (hs : Stands m l s) :
    OnStation (Prog.loop (fun p : Processor => p.drainRound cfg) n p)
      (fun q s' => p.SameModes q ∧ Stands m l s') s := by
  refine Prog.Safe.loop (J := fun q s' => p.SameModes q ∧ Stands m l s') (fun q s hq => ?_) n
    ⟨.refl p, hs⟩
  refine (drainRound_stands cfg q hq.2).mono fun x s' hx => ?_
  cases x with
  | inl r => exact ⟨hq.1.trans hx.1, hx.2⟩
  | inr r => exact ⟨hq.1.trans hx.1, hx.2⟩

def HandedBack (isAutoMode : Bool) (w : ℕ) (q : Processor) (s : Station) : Prop :=
  q.nextState = .processKsuTraffic ∧ Arrived w [] (cycleModes isAutoMode w) s

theorem captured_stands (cfg : ProcessorConfig) (fuel : ℕ) (p : Processor) {f : Frame}
    (hf : f.cmd.setWidth 16 = ackAllSettings) (writeMode : BitVec 32) (now : ℤ) {w : ℕ}
    (hw : w ≤ 6) (hshown : ∀ mode, f.settingsMode = some mode → mode = lsb (BitVec.ofNat 16 w))
    {s : Station} (hs : Stands w [] s) :
    OnStation (p.captured cfg fuel (f.packet writeMode now)) (HandedBack p.isAutoMode w) s := by
  have hsettings : (f.packet writeMode now).cmd = ackAllSettings :=
    longCmd_eq_of_getCmd ((f.getCmd_packet writeMode now).trans hf)
  have hadopted : (lsb (BitVec.ofNat 16 w)).setWidth 32 = BitVec.ofNat 32 w := by
    have hall : ∀ w ≤ 6, (lsb (BitVec.ofNat 16 w)).setWidth 32 = BitVec.ofNat 32 w := by decide
    exact hall w hw
  unfold captured
  refine (hs.only (readData_only Op.Ordinary.harmless _ _)
    (readWriteMode_ensures hf hshown writeMode now)).bind fun mode s₁ hs₁ => ?_
  obtain ⟨rfl, hs₁⟩ := hs₁
  refine (hs₁.only (checkSettings_only Op.Ordinary.harmless cfg _ hsettings)
    (checkSettings_sameModes cfg _ _)).bind fun p₂ s₂ hs₂ => ?_
  refine (drain_stands cfg fuel p₂ hs₂.2).bind fun p₃ s₃ hs₃ => ?_
  have hsame := hs₂.1.trans hs₃.1
  refine (hs₃.2.only (time_only Op.Ordinary.harmless) (Prog.ensures_trivial _)).bind
    fun now s₄ hs₄ => ?_
  split
  · have hchain : (_ :: cycleModes p₃.isAutoMode _).IsChain (· ≠ ·) := cycleModes_isChain hw
    refine (modeCycle_arrives cfg hw (hsame.writeMode.trans hadopted) [1, 2, 3, 4, 5, 6, 7]
      (by omega) hchain hs₄.2).bind fun _ s₅ hs₅ => ?_
    rw [hsame.isAutoMode] at hs₅
    obtain ⟨n, hn, hs₅⟩ := hs₅
    exact (hs₅.only (time_only Op.Ordinary.harmless) (Prog.ensures_trivial _)).bind
      fun _ _ hs₆ => ⟨rfl, n, hn, hs₆.2⟩
  · exact ⟨rfl, .none hs₄.2⟩

theorem setPassword_stands (p : Processor) (password : Word) {m : ℕ} {l : List Word}
    {s : Station} (hs : Stands m l s) :
    OnStation (p.setPassword password) (fun result s' => Stands m l s' ∧
      ∀ settings, result.2 = some settings → ∃ (f : Frame) (now : ℤ),
        settings = f.packet p.writeMode now ∧ f.cmd.setWidth 16 = ackAllSettings ∧
        ∀ mode, f.settingsMode = some mode → mode = lsb (BitVec.ofNat 16 m)) s := by
  have hrequest (now : ℤ) : modeRequest (setSettingPacket 44 password now) = none := by
    have hsetting : ¬(44 : Byte) = 45 := by decide
    rw [modeRequest, setSettingPacket]
    simp only [hsetting, if_false, ite_self]
  unfold setPassword
  refine (hs.only (x := Prog.perform Op.uninitialised) ⟨harmless_of (by simp), fun _ => trivial⟩
    (Prog.ensures_trivial _)).bind fun result s₁ hs₁ => ?_
  refine (hs₁.2.only (time_only Op.Ordinary.harmless) (Prog.ensures_trivial _)).bind
    fun now s₂ hs₂ => ?_
  refine (hs₂.2.only (x := write .setPassword (setSettingPacket 44 password now))
    ⟨harmless_write (hrequest now), fun _ => trivial⟩ (Prog.ensures_trivial _)).bind
      fun _ s₃ hs₃ => ?_
  refine reply_safe hs₃.2 fun w received hshown {s₄} hs₄ => ?_
  cases w with
  | error e => cases e <;> exact ⟨hs₄, by simp⟩
  | ok f =>
    show OnStation (if (f.packet p.writeMode received).cmd = ackAck then _ else _) _ s₄
    split
    · refine (hs₄.only (readData_only Op.Ordinary.harmless _ _) (Prog.ensures_trivial _)).bind
        fun _ s₅ hs₅ => ?_
      exact ⟨hs₅.2, by simp⟩
    · split
      next hcmd =>
        refine ⟨hs₄, ?_⟩
        rintro _ ⟨rfl⟩
        have hf : f.cmd.setWidth 16 = ackAllSettings := by
          rw [← f.getCmd_packet p.writeMode received, hcmd]
          decide
        exact ⟨f, received, rfl, hf, fun mode hmode => hshown f mode rfl hmode⟩
      next => exact ⟨hs₄, by simp⟩

/-- The station as a capture session finds it until the device is captured. -/
structure Awaited (isAutoMode : Bool) (w : ℕ) (p : Processor) (s : Station) : Prop where
  isAutoMode : p.isAutoMode = isAutoMode
  nextState : p.nextState = .captureDevice
  stands : Stands w [] s

def AfterRound (isAutoMode : Bool) (w : ℕ) (q : Processor) (s : Station) : Prop :=
  Awaited isAutoMode w q s ∨ HandedBack isAutoMode w q s

theorem processCapture_after (cfg : ProcessorConfig) (fuel : ℕ) {p : Processor} {isAutoMode : Bool}
    {w : ℕ} (hw : w ≤ 6) {s : Station} (hp : Awaited isAutoMode w p s) :
    OnStation (p.processCapture cfg fuel) (AfterRound isAutoMode w) s := by
  have hrequest {now : ℤ} : modeRequest (captureDevicePacket now) = none ∧
      modeRequest (getPasswordsPacket now) = none := by
    have hcapture : getCmd reqDeviceReq ≠ reqSettingSet := by decide
    have hpasswords : getCmd reqPasswordGet ≠ reqSettingSet := by decide
    exact ⟨if_neg hcapture, if_neg hpasswords⟩
  have hagain : ∀ {s}, Stands w [] s → AfterRound isAutoMode w p s := fun hs =>
    .inl ⟨hp.isAutoMode, hp.nextState, hs⟩
  unfold processCapture
  refine (hp.stands.only (captureDevice_only Op.Ordinary.harmless
    (fun now => harmless_write hrequest.1) p) (Prog.ensures_trivial _)).bind
      fun result s₁ hs₁ => ?_
  split
  · refine (hs₁.2.only (getPasswords_only Op.Ordinary.harmless
      (fun now => harmless_write hrequest.2) p) (Prog.ensures_trivial _)).bind
        fun passwords s₂ hs₂ => ?_
    cases passwords with
    | none => exact hagain hs₂.2
    | some passwords =>
      refine (setPassword_stands p _ hs₂.2).bind fun r s₃ hr => ?_
      obtain ⟨result, settings⟩ := r
      obtain ⟨hs₃, hsettings⟩ := hr
      dsimp only
      split
      · cases settings with
        | none => exact hagain hs₃
        | some settings =>
          obtain ⟨f, now, rfl, hf, hshown⟩ := hsettings settings rfl
          refine (captured_stands cfg fuel p hf _ now hw hshown hs₃).mono fun q s hq => ?_
          exact .inr (hp.isAutoMode ▸ hq)
      · exact hagain hs₃
  · exact hagain hs₁.2

theorem AfterRound.performed {isAutoMode : Bool} {w : ℕ} {q : Processor} {s : Station}
    (hq : AfterRound isAutoMode w q s) {o : Op} (ho : o.Harmless) :
    OnStation (Prog.perform o) (fun _ => AfterRound isAutoMode w q) s := by
  have hperform {m : ℕ} {l : List Word} (hs : Stands m l s) :
      OnStation (Prog.perform o) (fun _ => Stands m l) s :=
    (hs.only (x := Prog.perform o) ⟨ho, fun _ => trivial⟩ (Prog.ensures_trivial _)).mono
      fun _ _ ha => ha.2
  rcases hq with hq | ⟨hstate, n, hn, hs⟩
  · exact (hperform hq.stands).mono fun _ _ hs => .inl ⟨hq.isAutoMode, hq.nextState, hs⟩
  · exact (hperform hs).mono fun _ _ hs => .inr ⟨hstate, n, hn, hs⟩

theorem runRound_after (cfg : ProcessorConfig) (fuel : ℕ) {p : Processor} {isAutoMode : Bool}
    {w : ℕ} (hw : w ≤ 6) {s : Station} (hp : Awaited isAutoMode w p s) :
    OnStation (p.runRound cfg fuel) (fun x s' => ∀ q, x = .inl q → AfterRound isAutoMode w q s') s := by
  have hbefore : ∀ {o : Op}, o.Harmless → ∀ {s}, Awaited isAutoMode w p s →
      OnStation (Prog.perform o) (fun _ => Awaited isAutoMode w p) s := fun {o} ho _ hp =>
    (hp.stands.only (x := Prog.perform o) ⟨ho, fun _ => trivial⟩ (Prog.ensures_trivial _)).mono
      fun _ _ ha => ⟨hp.isAutoMode, hp.nextState, ha.2⟩
  unfold runRound
  refine (hbefore (harmless_of (by simp)) hp).bind fun doRun s₁ hp₁ => ?_
  split
  · refine (hbefore (harmless_of (by simp)) hp₁).bind fun _ s₂ hp₂ => ?_
    have hstate : OnStation (Processor.processState cfg fuel { p with state := p.nextState })
        (AfterRound isAutoMode w) s₂ := by
      unfold processState
      rw [hp.nextState]
      exact processCapture_after cfg fuel hw ⟨hp₂.isAutoMode, rfl, hp₂.stands⟩
    refine hstate.bind fun q s₃ hq => ?_
    have hnext : ∀ {s : Station}, AfterRound isAutoMode w q s →
        ∀ q', (Sum.inl q : Processor ⊕ Processor) = .inl q' → AfterRound isAutoMode w q' s := by
      rintro s hq _ ⟨rfl⟩
      exact hq
    split
    · exact (hq.performed (harmless_of (by simp))).bind fun _ _ hq => hnext hq
    · refine (hq.performed (harmless_of (by simp))).bind fun empty s₄ hq₄ => ?_
      exact (hq₄.performed (harmless_of (by simp))).bind fun _ _ hq => hnext hq
  · intro q hq
    cases hq

end Processor

/-! ### Sessions -/

theorem CaptureSession.after {cfg : ProcessorConfig} {fuel : ℕ} {isAutoMode : Bool} {w : ℕ}
    (hw : w ≤ 6) {c c' : Processor × Station} (hc : Processor.Awaited isAutoMode w c.1 c.2)
    (h : CaptureSession cfg fuel c c') : Processor.AfterRound isAutoMode w c'.1 c'.2 := by
  induction h with
  | refl => exact .inl hc
  | @tail c₁ c₂ _ hround ih =>
    obtain ⟨hstate, hround⟩ := hround
    rcases ih with hawaited | ⟨hback, -⟩
    · refine (Processor.runRound_after cfg fuel hw hawaited).returns ?_ hround c₂.1 rfl
      rintro s s' hx hd q hq
      rcases hx q hq with hawaited | ⟨hback, n, hn, hs⟩
      · exact .inl ⟨hawaited.isAutoMode, hawaited.nextState, hawaited.stands.move hd⟩
      · exact .inr ⟨hback, n, hn, hs.move hd⟩
    · rw [hback] at hstate
      cases hstate

/-- A session that began in a mode hands the station back in that mode exactly if no request for a
mode arrived, or all of a cycle did and the last of them was for that mode, which it is unless the
first mode is left out. -/
theorem session_restores_iff (cfg : ProcessorConfig) (fuel : ℕ) {w : ℕ} (hw : w ≤ 6)
    {p q : Processor} {s t : Station} (hp : p.nextState = .captureDevice)
    (hmode : s.mode = BitVec.ofNat 16 w) (hreceived : s.received = [])
    (hsession : CaptureSession cfg fuel (p, s) (q, t)) (hback : q.nextState = .processKsuTraffic) :
    t.mode = BitVec.ofNat 16 w ↔ Restored p.isAutoMode w t.received.length := by
  have hawaited : Processor.Awaited p.isAutoMode w p s := ⟨rfl, hp, hmode, hreceived⟩
  rcases hsession.after hw hawaited with hagain | ⟨-, n, hn, hs⟩
  · have hstate : q.nextState = .captureDevice := hagain.nextState
    rw [hback] at hstate
    cases hstate
  · have hlt : lastMode w ((cycleModes p.isAutoMode w).take n) < 7 :=
      lastMode_take_lt hw hn
    have hlength : t.received.length = n := by
      rw [hs.received, List.nil_append, List.length_map, List.length_take, Nat.min_eq_left hn]
    rw [hs.mode, ofNat_mode_inj hlt (by omega), lastMode_take_eq_iff hw hn, hlength]

def lostReplyScript : List (Event Op Res) :=
  captureScript.drop 1 ++
  [⟨.lockCmd, ()⟩, ⟨.popFront, (none : Option CustomCommand)⟩, ⟨.unlockCmd, ()⟩, ⟨.time, (1 : ℤ)⟩,
   ⟨.time, (1 : ℤ)⟩, ⟨.write .changeMode (setSettingPacket 45 1 1), ()⟩,
   ⟨.wait 1500, ((.error .timeout : Wait), (1 : ℤ))⟩, ⟨.time, (1 : ℤ)⟩, ⟨.setDoRun true, ()⟩]

def lostReplyTest (x : ProcessorM (Processor ⊕ Processor)) (s : Station) : Bool :=
  match x with
  | .ret (.inl q) => q.nextState = .processKsuTraffic ∧ s = ⟨1, [1], false⟩
  | _ => false

def capturingProcessor : Processor := { knownProcessor with nextState := .captureDevice }

theorem exists_session_lostReply : ∃ q, q.nextState = .processKsuTraffic ∧
    CaptureSession (unfilteredConfig true) 2 (capturingProcessor, ⟨0, [], false⟩)
      (q, ⟨1, [1], false⟩) := by
  obtain ⟨x, s, hreaches, htest⟩ := Prog.exists_reaches_of_replay_test Station.next Station.setLine
    (lostReplyScript.map .answer)
    (c := (capturingProcessor.runRound (unfilteredConfig true) 2, ⟨0, [], false⟩)) lostReplyTest
    (by decide +kernel)
  unfold lostReplyTest at htest
  split at htest
  next q =>
    obtain ⟨hstate, rfl⟩ := of_decide_eq_true htest
    exact ⟨q, hstate, Relation.ReflTransGen.single ⟨rfl, hreaches⟩⟩
  next => cases htest

theorem session_restores_iff_lostReply :
    (1 : Word) = BitVec.ofNat 16 0 ↔ Restored false 0 1 := by
  obtain ⟨q, hstate, hsession⟩ := exists_session_lostReply
  exact session_restores_iff (unfilteredConfig true) 2 (by omega) rfl rfl rfl hsession hstate

theorem session_restores_false : ¬ ∀ (cfg : ProcessorConfig) (fuel w : ℕ) (p q : Processor)
    (s t : Station), w ≤ 6 → p.nextState = .captureDevice → s.mode = BitVec.ofNat 16 w →
    CaptureSession cfg fuel (p, s) (q, t) → q.nextState = .processKsuTraffic →
    t.mode = BitVec.ofNat 16 w := by
  intro hall
  obtain ⟨q, hstate, hsession⟩ := exists_session_lostReply
  have hmode := hall (unfilteredConfig true) 2 0 _ q _ _ (by omega) rfl rfl hsession hstate
  exact absurd hmode (by decide)

end Ritex
