import Ritex.ServerThread
import Ritex.CommandRun

/-! The end of the processor in one-shot mode: when a command that the server queues is deleted by
the loop at the exit or stays in the queue behind it. -/
namespace Ritex
open Interaction

/-- No command was deleted by the loop at the exit, and none is in the queue behind it. -/
def NothingLost (s : ShutdownWorld) : Prop := s.deleted = [] ∧ (s.passed = true → s.queue = [])

/-- The main loop ends with an empty queue only. -/
def mayAnswer : Op → ShutdownWorld → Bool
  | .loopTest, s => s.doRun || s.queue.isEmpty
  | _, _ => true

/-- Nothing is queued for a processor that has left its main loop. -/
def mayMove : ShutdownWorld.ServerMove → ShutdownWorld → Bool
  | .sendCustomCmd, s => !s.left
  | _, _ => true

def orderlyEnv : Env Op Res ShutdownWorld :=
  Env.guarded ShutdownWorld.next ShutdownWorld.move mayAnswer mayMove

/-! ### In the main loop -/

structure Running (s : ShutdownWorld) : Prop where
  left : s.left = false
  passed : s.passed = false
  deleted : s.deleted = []

structure Ended (s : ShutdownWorld) : Prop where
  left : s.left = true
  queue : s.queue = []
  deleted : s.deleted = []

theorem Running.nothingLost {s : ShutdownWorld} (h : Running s) : NothingLost s :=
  ⟨h.deleted, fun hpassed => by simp [h.passed] at hpassed⟩

theorem Ended.nothingLost {s : ShutdownWorld} (h : Ended s) : NothingLost s :=
  ⟨h.deleted, fun _ => h.queue⟩

theorem move_keeps {m : ShutdownWorld.ServerMove} {s s' : ShutdownWorld}
    (h : ShutdownWorld.move m s = some s') :
    s'.left = s.left ∧ s'.passed = s.passed ∧ s'.deleted = s.deleted ∧
      (m = .sendCustomCmd ∨ s'.toCommandWorld = s.toCommandWorld) := by
  cases m with
  | request command now =>
    obtain ⟨-, hs'⟩ := Option.ite_none_right_eq_some.mp h
    cases hs'
    unfold ShutdownWorld.request
    split <;> exact ⟨rfl, rfl, rfl, .inr rfl⟩
  | isRunning =>
    simp only [ShutdownWorld.move] at h
    split at h
    next c _ =>
      cases h
      unfold ShutdownWorld.checked
      split
      · split <;> exact ⟨rfl, rfl, rfl, .inr rfl⟩
      · exact ⟨rfl, rfl, rfl, .inr rfl⟩
    next => cases h
  | create isOpened isCreated =>
    simp only [ShutdownWorld.move] at h
    split at h
    next c _ =>
      cases h
      unfold ShutdownWorld.create
      split <;> exact ⟨rfl, rfl, rfl, .inr rfl⟩
    next => cases h
  | sendCustomCmd =>
    simp only [ShutdownWorld.move] at h
    split at h
    next c _ =>
      obtain ⟨w, -, rfl⟩ := Option.map_eq_some_iff.mp h
      exact ⟨rfl, rfl, rfl, .inl rfl⟩
    next => cases h
  | lockStart | setDoRun | unlockStart | resume =>
    obtain ⟨-, hs'⟩ := Option.ite_none_right_eq_some.mp h
    cases hs'
    exact ⟨rfl, rfl, rfl, .inr rfl⟩

theorem Running.move {s s' : ShutdownWorld} (h : Running s) (hd : orderlyEnv.drift s s') :
    Running s' := by
  obtain ⟨m, -, hm⟩ := Env.guarded_drift hd
  obtain ⟨hleft, hpassed, hdeleted, -⟩ := move_keeps hm
  exact ⟨hleft.trans h.left, hpassed.trans h.passed, hdeleted.trans h.deleted⟩

theorem Ended.move {s s' : ShutdownWorld} (h : Ended s) (hd : orderlyEnv.drift s s') :
    Ended s' := by
  obtain ⟨m, hmay, hm⟩ := Env.guarded_drift hd
  obtain ⟨hleft, -, hdeleted, hsend | hcommands⟩ := move_keeps hm
  · rw [hsend, mayMove, h.left] at hmay
    cases hmay
  · exact ⟨hleft.trans h.left, hcommands ▸ h.queue, hdeleted.trans h.deleted⟩

/-! ### Operations of the processor -/

theorem read_eq_some {s s' : ShutdownWorld} {found flag : Bool}
    (h : s.read found flag = some s') : found = flag ∧ s' = s := by
  obtain ⟨hfound, hs'⟩ := Option.ite_none_right_eq_some.mp h
  exact ⟨hfound, (Option.some.inj hs').symm⟩

theorem next_commands {o : Op} {s : ShutdownWorld} {r : Res o} {s' : ShutdownWorld}
    (h : ShutdownWorld.next o s r = some s') :
    CommandWorld.next o s.toCommandWorld r = some s'.toCommandWorld := by
  cases o with
  | loopTest =>
    obtain ⟨t, ht, rfl⟩ := Option.map_eq_some_iff.mp h
    obtain ⟨-, rfl⟩ := read_eq_some ht
    rfl
  | deleteFront | popFront | lockCmd =>
    obtain ⟨w, hw, rfl⟩ := Option.map_eq_some_iff.mp h
    exact hw
  | startTest | queueEmpty =>
    obtain ⟨-, rfl⟩ := read_eq_some h
    rfl
  | lockStart =>
    obtain ⟨-, hs'⟩ := Option.ite_none_right_eq_some.mp h
    cases hs'
    rfl
  | wokenStart =>
    obtain ⟨-, hs'⟩ := Option.ite_none_left_eq_some.mp h
    cases hs'
    rfl
  | _ =>
    cases h
    rfl

theorem next_keeps {o : Op} {s : ShutdownWorld} {r : Res o} {s' : ShutdownWorld}
    (h : ShutdownWorld.next o s r = some s') :
    (o ≠ .loopTest → s'.left = s.left) ∧
    (o ≠ .deleteFront → s'.passed = s.passed ∧ s'.deleted = s.deleted) := by
  cases o with
  | loopTest =>
    obtain ⟨t, ht, rfl⟩ := Option.map_eq_some_iff.mp h
    obtain ⟨-, rfl⟩ := read_eq_some ht
    exact ⟨fun hne => absurd rfl hne, fun _ => ⟨rfl, rfl⟩⟩
  | deleteFront =>
    obtain ⟨w, hw, rfl⟩ := Option.map_eq_some_iff.mp h
    exact ⟨fun _ => rfl, fun hne => absurd rfl hne⟩
  | popFront | lockCmd =>
    obtain ⟨w, hw, rfl⟩ := Option.map_eq_some_iff.mp h
    exact ⟨fun _ => rfl, fun _ => ⟨rfl, rfl⟩⟩
  | startTest | queueEmpty =>
    obtain ⟨-, rfl⟩ := read_eq_some h
    exact ⟨fun _ => rfl, fun _ => ⟨rfl, rfl⟩⟩
  | lockStart =>
    obtain ⟨-, hs'⟩ := Option.ite_none_right_eq_some.mp h
    cases hs'
    exact ⟨fun _ => rfl, fun _ => ⟨rfl, rfl⟩⟩
  | wokenStart =>
    obtain ⟨-, hs'⟩ := Option.ite_none_left_eq_some.mp h
    cases hs'
    exact ⟨fun _ => rfl, fun _ => ⟨rfl, rfl⟩⟩
  | _ =>
    cases h
    exact ⟨fun _ => rfl, fun _ => ⟨rfl, rfl⟩⟩

theorem deleteFront_keeps {s s' : ShutdownWorld} {front : Option CustomCommand}
    (h : ShutdownWorld.next .deleteFront s front = some s') (hqueue : s.queue = []) :
    s'.deleted = s.deleted := by
  obtain ⟨w, hw, rfl⟩ := Option.map_eq_some_iff.mp h
  obtain ⟨rfl, -⟩ := CommandWorld.takeFront_eq_some hw
  show s.deleted ++ s.queue.head?.toList = s.deleted
  rw [hqueue]
  exact List.append_nil _

def KeepsRunning (o : Op) : Prop := o ≠ .loopTest ∧ o ≠ .deleteFront

theorem Running.next {o : Op} (ho : KeepsRunning o) (s : ShutdownWorld) (r : Res o)
    (s' : ShutdownWorld) (h : Running s) (ha : orderlyEnv.answer o s r s') : Running s' := by
  obtain ⟨-, hn⟩ := Env.guarded_answer ha
  obtain ⟨hleft, hexit⟩ := next_keeps hn
  obtain ⟨hpassed, hdeleted⟩ := hexit ho.2
  exact ⟨(hleft ho.1).trans h.left, hpassed.trans h.passed, hdeleted.trans h.deleted⟩

theorem loopTest_left {s s' : ShutdownWorld} {doRun : Bool}
    (h : ShutdownWorld.next .loopTest s doRun = some s') :
    doRun = s.doRun ∧ s' = { s with left := s.left || !s.doRun } := by
  obtain ⟨t, ht, rfl⟩ := Option.map_eq_some_iff.mp h
  obtain ⟨hfound, rfl⟩ := read_eq_some ht
  exact ⟨hfound, rfl⟩

theorem Ended.next (o : Op) (s : ShutdownWorld) (r : Res o) (s' : ShutdownWorld) (h : Ended s)
    (ha : orderlyEnv.answer o s r s') : Ended s' := by
  obtain ⟨-, hn⟩ := Env.guarded_answer ha
  obtain ⟨hleft, hexit⟩ := next_keeps hn
  refine ⟨?_, CommandWorld.next_empty (next_commands hn) h.queue, ?_⟩
  · by_cases ho : o = .loopTest
    · subst ho
      obtain ⟨-, rfl⟩ := loopTest_left hn
      show (s.left || !s.doRun) = true
      rw [h.left, Bool.true_or]
    · exact (hleft ho).trans h.left
  · by_cases ho : o = .deleteFront
    · subst ho
      exact (deleteFront_keeps hn h.queue).trans h.deleted
    · exact (hexit ho).2.trans h.deleted

/-! ### The thread -/

abbrev Orderly {α : Type} (x : ProcessorM α) (Q : α → ShutdownWorld → Prop) (s : ShutdownWorld) :
    Prop :=
  x.Safe orderlyEnv (fun s => Running s ∨ Ended s) Q s

theorem Running.only {α : Type} {x : ProcessorM α} (hx : x.Only KeepsRunning) {s : ShutdownWorld}
    (h : Running s) : Orderly x (fun _ => Running) s :=
  hx.safe (fun _ h => .inl h) (fun _ _ h hd => h.move hd) (fun _ ho => Running.next ho) h

theorem Ended.all {α : Type} (x : ProcessorM α) {s : ShutdownWorld} (h : Ended s) :
    Orderly x (fun _ => Ended) s :=
  (x.only_of_forall (P := fun _ => True) fun _ => trivial).safe (fun _ h => .inr h)
    (fun _ _ h hd => h.move hd) (fun o _ => Ended.next o) h

theorem loopTest_orderly {s : ShutdownWorld} (h : Running s) :
    Orderly (Prog.perform Op.loopTest) (fun (doRun : Bool) s' =>
      (doRun = true → Running s') ∧ (doRun = false → Ended s')) s := by
  intro s₁ hd doRun s₂ ha
  have h₁ : Running s₁ := Prog.drift_invariant (fun _ _ h hd => h.move hd) hd h
  obtain ⟨hmay, hn⟩ := Env.guarded_answer ha
  obtain ⟨rfl, rfl⟩ := loopTest_left hn
  have hrunning : s₁.doRun = true → Running { s₁ with left := s₁.left || !s₁.doRun } := by
    intro hrun
    refine ⟨?_, h₁.passed, h₁.deleted⟩
    show (s₁.left || !s₁.doRun) = false
    rw [h₁.left, hrun]
    rfl
  have hended : s₁.doRun = false → Ended { s₁ with left := s₁.left || !s₁.doRun } := by
    intro hrun
    rw [mayAnswer, hrun, Bool.false_or, List.isEmpty_iff] at hmay
    refine ⟨?_, hmay, h₁.deleted⟩
    show (s₁.left || !s₁.doRun) = true
    rw [hrun]
    exact Bool.or_true _
  refine ⟨?_, hrunning, hended⟩
  cases hrun : s₁.doRun with
  | true => exact .inl (hrun ▸ hrunning hrun)
  | false => exact .inr (hrun ▸ hended hrun)

namespace Processor

theorem keepsRunning_local (o : Op) (ho : o.Local) : KeepsRunning o := by
  constructor <;> rintro rfl <;> exact ho

theorem runRound_orderly (cfg : ProcessorConfig) (fuel : ℕ) (p : Processor) {s : ShutdownWorld}
    (h : Running s) :
    Orderly (p.runRound cfg fuel)
      (fun x s' => match x with | .inl _ => Running s' | .inr _ => Ended s') s := by
  unfold runRound
  refine (loopTest_orderly h).bind fun doRun s₁ h₁ => ?_
  cases doRun with
  | false => exact h₁.2 rfl
  | true =>
    have hkeep : ∀ {o : Op}, o ≠ .loopTest → o ≠ .deleteFront → ∀ {s}, Running s →
        Orderly (Prog.perform o) (fun _ => Running) s := fun htest hdelete _ h =>
      Running.only (x := Prog.perform _) ⟨⟨htest, hdelete⟩, fun _ => trivial⟩ h
    refine (hkeep (by simp) (by simp) (h₁.1 rfl)).bind fun _ s₂ h₂ => ?_
    have honly : ∀ p : Processor, (p.processState cfg fuel).Only KeepsRunning :=
      processState_only (Op.ordinary_of_local keepsRunning_local) (keepsRunning_local _ trivial) (fun _ => ⟨by simp, by simp⟩)
        (fun _ _ => ⟨by simp, by simp⟩) ⟨by simp, by simp⟩ ⟨by simp, by simp⟩ ⟨by simp, by simp⟩
        ⟨by simp, by simp⟩ cfg fuel
    refine (Running.only (honly _) h₂).bind fun p s₃ h₃ => ?_
    split
    · exact (hkeep (by simp) (by simp) h₃).bind fun _ _ h => h
    · refine (hkeep (by simp) (by simp) h₃).bind fun empty s₄ h₄ => ?_
      exact (hkeep (by simp) (by simp) h₄).bind fun _ _ h => h

theorem run_orderly (cfg : ProcessorConfig) (fuel : ℕ) (p : Processor) :
    Orderly (p.run cfg fuel) (fun _ => Ended) .initial := by
  have hinitial : Running .initial := ⟨rfl, rfl, rfl⟩
  unfold run
  refine (Running.only (waitForStart_only ⟨by simp, by simp⟩ ⟨by simp, by simp⟩
    ⟨by simp, by simp⟩ ⟨by simp, by simp⟩ ⟨by simp, by simp⟩ cfg fuel) hinitial).bind
    fun _ s₁ h₁ => ?_
  refine (Running.only (time_only (Op.ordinary_of_local keepsRunning_local)) h₁).bind fun now s₂ h₂ => ?_
  refine (Prog.Safe.loop (J := fun _ => Running) (Q := fun _ => Ended)
    (fun p s h => (runRound_orderly cfg fuel p h).mono fun x _ h => ?_) fuel h₂).bind
    fun _ s₃ h₃ => h₃.all _
  cases x <;> exact h

end Processor

/-- No command is lost in a run in which the processor leaves its main loop with an empty queue only
and nothing is queued once it has left. -/
theorem nothing_lost (cfg : ProcessorConfig) (fuel : ℕ) (p : Processor)
    {c : ProcessorM Unit × ShutdownWorld}
    (h : orderlyEnv.Reaches (p.run cfg fuel, .initial) c) : NothingLost c.2 := by
  have hdrift : ∀ s s', Running s ∨ Ended s → orderlyEnv.drift s s' → Running s' ∨ Ended s' := by
    rintro s s' (hrunning | hended) hd
    · exact .inl (hrunning.move hd)
    · exact .inr (hended.move hd)
  rcases (Processor.run_orderly cfg fuel p).reaches (.inl ⟨rfl, rfl, rfl⟩) hdrift h with hr | he
  · exact hr.nothingLost
  · exact he.nothingLost

/-! ### The commands -/

theorem sendCustomCmd_commands {s s' : ShutdownWorld}
    (h : ShutdownWorld.move .sendCustomCmd s = some s') :
    ∃ c, CommandWorld.push c s.toCommandWorld = some s'.toCommandWorld := by
  simp only [ShutdownWorld.move] at h
  split at h
  next c _ =>
    obtain ⟨w, hw, rfl⟩ := Option.map_eq_some_iff.mp h
    exact ⟨c, hw⟩
  next => cases h

/-- The server is one of the threads that queue commands at any time. -/
theorem shutdown_simulates : shutdownEnv.Simulates commandEnv ShutdownWorld.toCommandWorld where
  answer := fun _ _ _ _ ha => next_commands ha
  drift := by
    rintro s s' ⟨m, hm⟩
    obtain ⟨-, -, -, rfl | hcommands⟩ := move_keeps hm
    · exact .single (sendCustomCmd_commands hm)
    · rw [hcommands]

/-- Beside the server, too, the commands are handed over in the order in which they were queued,
and each of them gets one reply. -/
theorem shutdown_commandInv (cfg : ProcessorConfig) (fuel : ℕ) (p : Processor)
    {c : ProcessorM Unit × ShutdownWorld}
    (h : shutdownEnv.Reaches (p.run cfg fuel, .initial) c) : CommandInv c.2.toCommandWorld :=
  run_commandInv cfg fuel p (shutdown_simulates.reaches h)

/-! ### Runs -/

def drainedScript : List (Event Op Res) :=
  [⟨.lockCmd, ()⟩, ⟨.popFront, none⟩, ⟨.unlockCmd, ()⟩, ⟨.time, (0 : ℤ)⟩, ⟨.queueEmpty, true⟩]

/-- The first command: the server creates the processor, which waits for its start, captures the
device and gets no answer. -/
def firstCommand : List (Turn Op Res ShutdownWorld.ServerMove) :=
  [.move (.request ⟨.testDevice, []⟩ 0), .move .isRunning, .move (.create true true),
   .answer ⟨.lockStart, ()⟩, .answer ⟨.startTest, false⟩, .answer ⟨.waitStart, ()⟩,
   .move .sendCustomCmd, .move .lockStart, .move .setDoRun, .move .unlockStart,
   .answer ⟨.wokenStart, ()⟩, .answer ⟨.unlockStart, ()⟩, .answer ⟨.startTest, true⟩] ++
  noticeScript.map .answer ++ .answer ⟨.queueEmpty, false⟩ ::
  (captureScript ++ (unansweredScript ++ drainedScript)).map .answer

def engineOff : CmdExternal where
  template := ⟨reqVdOff, 0⟩
  param2 := 0
  sourceRaw := ""
  cmdIdRaw := ""
  template_mem := by decide

/-- The next command: the server is free once it is notified of the first, and queues another
before the processor acts on the empty queue that it found. -/
def nextCommand : List (Turn Op Res ShutdownWorld.ServerMove) :=
  [.move .resume, .move (.request ⟨.external engineOff, []⟩ 0), .move .isRunning,
   .move .sendCustomCmd, .answer ⟨.setDoRun false, ()⟩, .answer ⟨.loopTest, false⟩,
   .answer ⟨.lockCmd, ()⟩,
   .answer ⟨.deleteFront, some ⟨⟨.cmd, ksuAddress, reqVdOff, 0, [], nil_length_lt⟩,
     ⟨.external engineOff, [0]⟩⟩⟩]

def exitScript : List (Event Op Res) :=
  [⟨.setDoRun false, ()⟩, ⟨.loopTest, false⟩, ⟨.lockCmd, ()⟩, ⟨.deleteFront, none⟩,
   ⟨.unlockCmd, ()⟩, ⟨.notifyExit, ()⟩]

theorem nothing_lost_exit : ∃ c : ProcessorM Unit × ShutdownWorld,
    c.2.passed = true ∧ NothingLost c.2 := by
  obtain ⟨c, hreaches, hpassed⟩ := Prog.exists_reaches_of_replay
    (guardNext mayAnswer ShutdownWorld.next) (guardMove mayMove ShutdownWorld.move)
    (firstCommand ++ exitScript.map .answer)
    (c := (knownProcessor.run (unfilteredConfig false) 3, ShutdownWorld.initial))
    (fun s => s.passed) (t := true) (by decide +kernel)
  exact ⟨c, hpassed, nothing_lost _ _ _ hreaches⟩

theorem nothing_lost_false : ¬ ∀ (cfg : ProcessorConfig) (fuel : ℕ) (p : Processor)
    (c : ProcessorM Unit × ShutdownWorld), cfg.isDataCapture = false →
      shutdownEnv.Reaches (p.run cfg fuel, .initial) c → NothingLost c.2 := by
  intro h
  obtain ⟨c, hreaches, hdeleted⟩ := Prog.exists_reaches_of_replay
    ShutdownWorld.next ShutdownWorld.move (firstCommand ++ nextCommand)
    (c := (knownProcessor.run (unfilteredConfig false) 3, ShutdownWorld.initial))
    (fun s => s.deleted.length) (t := 1) (by decide +kernel)
  have hnothing := (h _ _ _ c rfl hreaches).1
  rw [hnothing] at hdeleted
  cases hdeleted

end Ritex
