import Ritex.CommandReplies
import Ritex.History

/-! Null pointers: the processor follows none, unless the information that it asks for in the cycle
through the modes does not come. -/
namespace Ritex
open Interaction

abbrev Events := List (Event Op Res)

/-- No null pointer has been followed, and no assertion has failed. -/
def CrashFree (h : Events) : Prop := ∀ e ∈ h, e.1 ≠ .crash

structure CyclePoint where
  inCommand : Bool
  /-- The information was asked for just now, and not within `ProcessCommand`. -/
  requested : Bool

def CyclePoint.next (t : CyclePoint) : Event Op Res → CyclePoint
  | ⟨.command (.handedOver _), _⟩ => ⟨true, false⟩
  | ⟨.command (.returned _), _⟩ => ⟨false, false⟩
  | ⟨.write .requestCurrentData _, _⟩ => ⟨t.inCommand, !t.inCommand⟩
  | _ => ⟨t.inCommand, false⟩

def cyclePoint (h : Events) : CyclePoint := h.foldl CyclePoint.next ⟨false, false⟩

def bringsPacket : Event Op Res → Bool
  | ⟨.wait _, r⟩ => r.1.isOk
  | _ => true

/-- Whoever waits for the information in the cycle gets a packet. -/
def informed (h : Events) (e : Event Op Res) : Bool := !(cyclePoint h).requested || bringsPacket e

theorem cyclePoint_snoc (h : Events) (e : Event Op Res) :
    cyclePoint (h ++ [e]) = (cyclePoint h).next e := by
  rw [cyclePoint, List.foldl_append]
  rfl

theorem CrashFree.snoc {h : Events} (hc : CrashFree h) {o : Op} (ho : o ≠ .crash) (r : Res o) :
    CrashFree (h ++ [⟨o, r⟩]) := by
  intro e he
  rcases List.mem_append.mp he with he | he
  · exact hc e he
  · rw [List.mem_singleton.mp he]
    exact ho

/-! ### Specifications -/

structure Steady (h : Events) : Prop where
  crashFree : CrashFree h
  inCommand : (cyclePoint h).inCommand = false

abbrev Spared {α : Type} (x : ProcessorM α) (Q : α → Events → Prop) (h : Events) : Prop :=
  x.Safe (admittedEnv informed) CrashFree Q h

def Op.Plain (o : Op) : Prop := o ≠ .crash ∧ ∀ event, o ≠ .command event

theorem Steady.snoc {h : Events} (hs : Steady h) {o : Op} (ho : o.Plain) (r : Res o) :
    Steady (h ++ [⟨o, r⟩]) := by
  refine ⟨hs.crashFree.snoc ho.1 r, ?_⟩
  rw [cyclePoint_snoc]
  cases o with
  | command event => exact absurd rfl (ho.2 event)
  | write writer packet => cases writer <;> exact hs.inCommand
  | _ => exact hs.inCommand

theorem Steady.only_ensures {h : Events} (hs : Steady h) {α : Type} {x : ProcessorM α}
    (hx : x.Only Op.Plain) {R : α → Prop} (hr : x.Ensures R) :
    Spared x (fun a h' => R a ∧ Steady h') h :=
  hx.safe_admitted hr (fun _ hs => hs.crashFree) (fun _ ho _ hs r => hs.snoc ho r) hs

theorem Steady.only {h : Events} (hs : Steady h) {α : Type} {x : ProcessorM α}
    (hx : x.Only Op.Plain) : Spared x (fun _ => Steady) h :=
  (hs.only_ensures hx x.ensures_trivial).mono fun _ _ h => h.2

theorem CrashFree.only_ensures {h : Events} (hc : CrashFree h) {α : Type} {x : ProcessorM α}
    (hx : x.Only (· ≠ .crash)) {R : α → Prop} (hr : x.Ensures R) :
    Spared x (fun a h' => R a ∧ CrashFree h') h :=
  hx.safe_admitted hr (fun _ => id) (fun _ ho _ hc r => hc.snoc ho r) hc

theorem plain_of_ordinary (o : Op) (ho : o.Ordinary) : o.Plain := by
  refine ⟨ho.2, ?_⟩
  rintro event rfl
  exact ho.1

theorem plain_write (writer : Writer) (packet : DataPacket) : (Op.write writer packet).Plain :=
  ⟨by simp, by simp⟩

namespace Processor

theorem perform_spared {o : Op} (ho : o.Plain) {h : Events} (hs : Steady h) :
    Spared (Prog.perform o) (fun _ => Steady) h :=
  hs.only (x := Prog.perform o) ⟨ho, fun _ => trivial⟩

/-! ### Commands -/

theorem processCommand_spared (cfg : ProcessorConfig) (p : Processor) (c : CustomCommand)
    {h : Events} (hc : CrashFree h) :
    Spared (p.processCommand cfg c) (fun _ => CrashFree) h := by
  have hordinary : ∀ o : Op, o.Ordinary → o ≠ .crash := fun _ ho => ho.2
  unfold processCommand
  have hbody : ∀ {α : Type} {x : ProcessorM α}, x.Only (· ≠ .crash) → ∀ {R : α → Prop},
      x.Ensures R → ∀ {h}, CrashFree h → Spared x (fun a h' => R a ∧ CrashFree h') h :=
    fun hx _ hr _ hc => hc.only_ensures hx hr
  refine (hbody (x := write .processCommand c.dataPacket) ⟨by simp, fun _ => trivial⟩
    (Prog.ensures_trivial _) hc).bind fun _ h₁ hc₁ => ?_
  refine (hbody (waitForKsuActivity_only hordinary p _) (waitForKsuActivity_ensures p _)
    hc₁.2).bind fun received h₂ hc₂ => ?_
  refine (hbody (commandReply_only hordinary (by simp) p c hc₂.1) (commandReply_ensures p c hc₂.1)
    hc₂.2).bind fun r h₃ hc₃ => ?_
  exact (hbody (setReply_only hordinary (by simp) cfg _ c hc₃.1) (Prog.ensures_trivial _)
    hc₃.2).mono fun _ _ hc₄ => hc₄.2

theorem drainRound_spared (cfg : ProcessorConfig) (p : Processor) {h : Events} (hs : Steady h) :
    Spared (p.drainRound cfg) (fun _ => Steady) h := by
  unfold drainRound
  refine (perform_spared ⟨by simp, by simp⟩ hs).bind fun _ h₁ hs₁ => ?_
  refine (perform_spared ⟨by simp, by simp⟩ hs₁).bind fun pending h₂ hs₂ => ?_
  refine (perform_spared ⟨by simp, by simp⟩ hs₂).bind fun _ h₃ hs₃ => ?_
  cases pending with
  | some c =>
    refine Prog.safe_admitted_op fun r _ => ?_
    have hc₄ := hs₃.crashFree.snoc (o := .command (.handedOver c)) (by simp) r
    refine ⟨hc₄, (processCommand_spared cfg p c hc₄).bind fun q h₅ hc₅ => ?_⟩
    refine Prog.safe_admitted_op fun r _ => ?_
    have hc₆ := hc₅.snoc (o := .command (.returned c)) (by simp) r
    refine ⟨hc₆, hc₆, ?_⟩
    rw [cyclePoint_snoc]
    rfl
  | none => exact hs₃

/-! ### The cycle through the modes -/

theorem requestCurrentData_spared {h : Events} (hs : Steady h) :
    Spared requestCurrentData (fun _ h' => Steady h' ∧ (cyclePoint h').requested = true) h := by
  refine (hs.only (time_only plain_of_ordinary)).bind fun now h₁ hs₁ => ?_
  refine Prog.safe_admitted_op fun r _ => ?_
  have hs₂ := hs₁.snoc (plain_write .requestCurrentData (requestCurrentDataPacket now)) r
  refine ⟨hs₂.crashFree, hs₂, ?_⟩
  rw [cyclePoint_snoc]
  exact congrArg (!·) hs₁.inCommand

theorem waitForInfo_spared (p : Processor) (timeout : ℕ) {h : Events} (hs : Steady h)
    (hrequested : (cyclePoint h).requested = true) :
    Spared (p.waitForKsuActivity timeout)
      (fun received h' => received.1.isSome = true ∧ Steady h') h := by
  refine Prog.safe_admitted_op fun r hinformed => ?_
  have hs' := hs.snoc (o := .wait timeout) ⟨by simp, by simp⟩ r
  refine ⟨hs'.crashFree, ?_, hs'⟩
  rw [informed, hrequested] at hinformed
  obtain ⟨w, now⟩ := r
  cases w with
  | ok frame => rfl
  | error e => cases hinformed

theorem modeCycle_spared (cfg : ProcessorConfig) (p : Processor) (modes : List ℕ) {h : Events}
    (hs : Steady h) : Spared (p.modeCycle cfg modes) (fun _ => Steady) h := by
  induction modes generalizing h with
  | nil => exact hs
  | cons i rest ih =>
    unfold modeCycle
    split
    · exact ih hs
    · refine (hs.only (changeMode_only plain_of_ordinary p _ fun _ => plain_write _ _)).bind
        fun changed h₁ hs₁ => ?_
      split
      · refine (requestCurrentData_spared hs₁).bind fun _ h₂ hs₂ => ?_
        refine (waitForInfo_spared p _ hs₂.1 hs₂.2).bind fun received h₃ hs₃ => ?_
        obtain ⟨packet, error⟩ := received
        obtain ⟨q, -, hq⟩ := deref_eq hs₃.1
        show Spared ((deref packet).bind _) _ h₃
        rw [hq, Prog.ret_bind]
        split
        · exact (hs₃.2.only (reportData_only plain_of_ordinary cfg _)).bind fun _ _ hs => ih hs
        · exact ih hs₃.2
      · exact hs₁

/-! ### The thread -/

theorem captured_spared (cfg : ProcessorConfig) (fuel : ℕ) (p : Processor) {settings : DataPacket}
    (hsettings : settings.cmd = ackAllSettings) {h : Events} (hs : Steady h) :
    Spared (p.captured cfg fuel settings) (fun _ => Steady) h := by
  unfold captured
  refine (hs.only (readData_only plain_of_ordinary settings _)).bind fun writeMode h₁ hs₁ => ?_
  refine (hs₁.only (checkSettings_only plain_of_ordinary cfg _ hsettings)).bind fun p h₂ hs₂ => ?_
  refine (Prog.Safe.loop (J := fun _ => Steady) (Q := fun _ => Steady) (fun p h hs =>
    (drainRound_spared cfg p hs).mono fun x _ hs => ?_) fuel hs₂).bind fun p h₃ hs₃ => ?_
  · cases x <;> exact hs
  refine (hs₃.only (time_only plain_of_ordinary)).bind fun now h₄ hs₄ => ?_
  split
  · refine (modeCycle_spared cfg p _ hs₄).bind fun _ h₅ hs₅ => ?_
    exact (hs₅.only (time_only plain_of_ordinary)).bind fun _ _ hs => hs
  · exact hs₄

theorem processCapture_spared (cfg : ProcessorConfig) (fuel : ℕ) (p : Processor) {h : Events}
    (hs : Steady h) : Spared (p.processCapture cfg fuel) (fun _ => Steady) h := by
  unfold processCapture
  refine (hs.only (captureDevice_only plain_of_ordinary (fun _ => plain_write _ _) p)).bind
    fun result h₁ hs₁ => ?_
  split
  · refine (hs₁.only (getPasswords_only plain_of_ordinary (fun _ => plain_write _ _) p)).bind
      fun passwords h₂ hs₂ => ?_
    cases passwords with
    | none => exact hs₂
    | some passwords =>
      refine (hs₂.only_ensures (setPassword_only plain_of_ordinary p _ fun _ => plain_write _ _)
        (setPassword_ensures p _)).bind fun r h₃ hs₃ => ?_
      obtain ⟨result, settings⟩ := r
      obtain ⟨hsettings, hs₃⟩ := hs₃
      dsimp only
      split
      · cases settings with
        | none => exact hs₃
        | some settings => exact captured_spared cfg fuel p (hsettings _ rfl) hs₃
      · exact hs₃
  · exact hs₁

theorem processState_spared (cfg : ProcessorConfig) (fuel : ℕ) (p : Processor) {h : Events}
    (hs : Steady h) : Spared (p.processState cfg fuel) (fun _ => Steady) h := by
  unfold processState
  split
  · exact hs.only (processTraffic_only plain_of_ordinary ⟨by simp, by simp⟩ cfg p)
  · exact processCapture_spared cfg fuel p hs

theorem runRound_spared (cfg : ProcessorConfig) (fuel : ℕ) (p : Processor) {h : Events}
    (hs : Steady h) : Spared (p.runRound cfg fuel) (fun _ => Steady) h := by
  unfold runRound
  refine (perform_spared ⟨by simp, by simp⟩ hs).bind fun doRun h₁ hs₁ => ?_
  split
  · refine (perform_spared ⟨by simp, by simp⟩ hs₁).bind fun _ h₂ hs₂ => ?_
    refine (processState_spared cfg fuel _ hs₂).bind fun p h₃ hs₃ => ?_
    split
    · exact (perform_spared ⟨by simp, by simp⟩ hs₃).bind fun _ _ hs => hs
    · refine (perform_spared ⟨by simp, by simp⟩ hs₃).bind fun empty h₄ hs₄ => ?_
      exact (perform_spared ⟨by simp, by simp⟩ hs₄).bind fun _ _ hs => hs
  · exact hs₁

theorem run_spared (cfg : ProcessorConfig) (fuel : ℕ) (p : Processor) :
    Spared (p.run cfg fuel) (fun _ => Steady) [] := by
  have hstart : Steady [] := ⟨by simp [CrashFree], rfl⟩
  have hplain : ∀ {o : Op}, o ≠ .crash → (∀ event, o ≠ .command event) → o.Plain :=
    fun hcrash hcommand => ⟨hcrash, hcommand⟩
  unfold run
  refine (hstart.only (waitForStart_only (hplain (by simp) (by simp)) (hplain (by simp) (by simp))
    (hplain (by simp) (by simp)) (hplain (by simp) (by simp)) (hplain (by simp) (by simp))
    cfg fuel)).bind fun _ h₁ hs₁ => ?_
  refine (hs₁.only (time_only plain_of_ordinary)).bind fun now h₂ hs₂ => ?_
  refine (Prog.Safe.loop (J := fun _ => Steady) (Q := fun _ => Steady) (fun p h hs =>
    (runRound_spared cfg fuel p hs).mono fun x _ hs => ?_) fuel hs₂).bind fun _ h₃ hs₃ => ?_
  · cases x <;> exact hs
  refine (perform_spared ⟨by simp, by simp⟩ hs₃).bind fun _ h₄ hs₄ => ?_
  refine (hs₄.only (Prog.Only.loop (fun _ => clearRound_only (hplain (by simp) (by simp))) fuel
    ())).bind fun _ h₅ hs₅ => ?_
  refine (perform_spared ⟨by simp, by simp⟩ hs₅).bind fun _ h₆ hs₆ => ?_
  exact (perform_spared ⟨by simp, by simp⟩ hs₆).bind fun _ _ hs => hs

end Processor

/-- In every run in which the information comes whenever the cycle through the modes waits for it, no
null pointer is followed. -/
theorem run_crashFree (cfg : ProcessorConfig) (fuel : ℕ) (p : Processor)
    {c : ProcessorM Unit × Events}
    (h : (admittedEnv informed).Reaches (p.run cfg fuel, []) c) : CrashFree c.2 :=
  (Processor.run_spared cfg fuel p).reaches (by simp [CrashFree])
    (fun _ _ _ hd => (admittedEnv_drift hd).elim) h

def infoScript (w : Wait) : Events :=
  noticeScript ++ captureScript ++ cycleScript ++ [⟨.wait 1500, (w, (1 : ℤ))⟩]

theorem run_crashFree_info : ∃ h : Events, h.length = 36 ∧ CrashFree h := by
  obtain ⟨c, hc, hlength⟩ := Prog.exists_reaches_of_replay (admittedNext informed) still
    ((infoScript (.ok infoFrame)).map .answer) (c := (knownProcessor.run (unfilteredConfig true) 2, []))
    List.length (t := 36) (by decide +kernel)
  exact ⟨c.2, hlength, run_crashFree (unfilteredConfig true) 2 knownProcessor hc⟩

/-- The station does not answer in time. -/
theorem run_crashFree_false : ¬ ∀ (cfg : ProcessorConfig) (fuel : ℕ) (p : Processor)
    (c : ProcessorM Unit × Events),
    (historyEnv Op Res).Reaches (p.run cfg fuel, []) c → CrashFree c.2 := by
  intro hall
  obtain ⟨c, hc, hcrash⟩ := Prog.exists_reaches_of_replay record still
    ((infoScript (.error .timeout)).map .answer ++ [.answer ⟨.crash, ()⟩])
    (c := (knownProcessor.run (unfilteredConfig true) 2, []))
    (fun h => h.any fun e => e.1 = .crash) (t := true) (by decide +kernel)
  obtain ⟨e, he, hcrash⟩ := List.any_eq_true.mp hcrash
  exact hall (unfilteredConfig true) 2 knownProcessor c hc e he (of_decide_eq_true hcrash)

end Ritex
