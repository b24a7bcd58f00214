import Ritex.ProcessorEffects
import Ritex.ThreadPool

/-! The start of the processor in one-shot mode: `Create` and `Start` of the server thread beside the
section of `Run` in which the processor waits for its start. -/
namespace Ritex
open Interaction

inductive Starter
  | processor
  | server
  deriving DecidableEq

/-- What the server does next. -/
inductive StartPc
  | idle
  | lock
  | setDoRun
  | unlock
  | signal
  deriving DecidableEq

structure StartWorld where
  /-- `m_fd` is not -1. -/
  isRunning : Bool
  isCreated : Bool
  doRun : Bool
  startMutex : Mutex Starter
  server : StartPc
  /-- A thread has unlocked the mutex, or has waited on it, without holding it. -/
  misused : Bool
  /-- `Run` is past the section in which it waits. -/
  left : Bool
  deriving DecidableEq

namespace StartWorld

def initial : StartWorld where
  isRunning := false
  isCreated := false
  doRun := true
  startMutex := none
  server := .idle
  misused := false
  left := false

/-- Whoever holds the mutex, it is free. -/
def release (s : StartWorld) (i : Starter) : StartWorld :=
  { s with startMutex := none, misused := s.misused || decide (s.startMutex ≠ some i) }

def lock (s : StartWorld) (i : Starter) : Option StartWorld :=
  (s.startMutex.lock i).map fun m => { s with startMutex := m }

def leave (s : StartWorld) : StartWorld := { s with left := true }

def next : (o : Op) → StartWorld → Res o → Option StartWorld
  | .lockStart, s, _ => if s.isCreated then s.lock .processor else none
  | .startTest, s, (doRun : Bool) => if doRun = s.doRun then some s else none
  | .waitStart, s, _ => some (s.release .processor)
  -- woken by a signal or by nothing
  | .wokenStart, s, _ => s.lock .processor
  | .unlockStart, s, _ => some (s.release .processor)
  | .loopTest, s, (doRun : Bool) => if doRun = s.doRun then some s.leave else none
  | .setDoRun value, s, _ => some { s.leave with doRun := value }
  | _, s, _ => some s.leave

inductive StartMove
  | create (isOpened isCreated : Bool)
  | start
  | lock
  | setDoRun
  | unlock
  | signal
  deriving DecidableEq

/-- `Create` in one-shot mode. -/
def create (s : StartWorld) (isOpened isCreated : Bool) : StartWorld :=
  if s.isRunning then s
  else if isOpened then
    { s with isRunning := true, isCreated := isCreated, doRun := false, startMutex := none }
  else s

/-- `Start` is called once the port is open. -/
def move : StartMove → StartWorld → Option StartWorld
  | .create isOpened isCreated, s =>
    if s.server = .idle then some (s.create isOpened isCreated) else none
  | .start, s =>
    if s.server = .idle ∧ s.isRunning = true then some { s with server := .lock } else none
  | .lock, s =>
    if s.server = .lock then (s.lock .server).map fun s => { s with server := .setDoRun } else none
  | .setDoRun, s =>
    if s.server = .setDoRun then some { s with doRun := true, server := .unlock } else none
  | .unlock, s =>
    if s.server = .unlock then some { s.release .server with server := .signal } else none
  | .signal, s => if s.server = .signal then some { s with server := .idle } else none

end StartWorld

def startEnv : Env Op Res StartWorld := Env.ofSteps StartWorld.next StartWorld.move

/-- A call of `Start` that has begun can be completed. -/
def StartCompletes (s : StartWorld) : Prop :=
  ∃ s', Relation.ReflTransGen (fun s s' => ∃ m, StartWorld.move m s = some s') s s' ∧
    s'.server = .idle

/-- The mutex is unlocked and waited on by its holder, and a processor that has left the section
does not hold it. -/
structure Balanced (s : StartWorld) : Prop where
  used : s.misused = false
  free : s.left = true → s.startMutex ≠ some .processor
  completes : s.left = true → StartCompletes s

/-- The processor comes to its lock before a call of `Start`, and wakes up after one. -/
def startsOnce : Op → StartWorld → Bool
  | .lockStart, s => !s.doRun
  | .wokenStart, s => s.doRun
  | _, _ => true

def startedOnceEnv : Env Op Res StartWorld :=
  Env.guarded StartWorld.next StartWorld.move startsOnce fun _ _ => true

/-! ### Moves of the server -/

/-- The server holds the mutex where it may, and nobody holds one that does not exist. -/
structure Sound (s : StartWorld) : Prop where
  used : s.misused = false
  server : s.startMutex = some .server ↔ s.server = .setDoRun ∨ s.server = .unlock
  busy : s.server ≠ .idle → s.isRunning = true
  mutex : s.startMutex ≠ none → s.isRunning = true
  created : s.isCreated = true → s.isRunning = true

/-- What the processor knows of a move of the server. -/
structure ServerKeeps (s s' : StartWorld) : Prop where
  holds : s'.startMutex = some .processor ↔ s.startMutex = some .processor
  left : s'.left = s.left
  running : s.isRunning = true → s'.isRunning = true
  started : s.isRunning = true → s.doRun = true → s'.doRun = true
  held : s.startMutex = some .processor → s'.doRun = s.doRun

theorem ServerKeeps.of_eq {s s' : StartWorld}
    (hmutex : s'.startMutex = some .processor ↔ s.startMutex = some .processor)
    (hleft : s'.left = s.left) (hrunning : s'.isRunning = s.isRunning) (hdoRun : s'.doRun = s.doRun) :
    ServerKeeps s s' :=
  ⟨hmutex, hleft, by simp [hrunning], by simp [hdoRun], fun _ => hdoRun⟩

theorem sound_initial : Sound .initial :=
  ⟨rfl, by simp [StartWorld.initial], by simp [StartWorld.initial], by simp [StartWorld.initial],
    by simp [StartWorld.initial]⟩

theorem Sound.create {s : StartWorld} (h : Sound s) (hserver : s.server = .idle)
    (isOpened isCreated : Bool) :
    Sound (s.create isOpened isCreated) ∧ ServerKeeps s (s.create isOpened isCreated) := by
  unfold StartWorld.create
  by_cases hrunning : s.isRunning = true
  · rw [if_pos hrunning]
    exact ⟨h, .of_eq .rfl rfl rfl rfl⟩
  · rw [if_neg hrunning]
    have hfree : s.startMutex = none := by
      by_contra hmutex
      exact hrunning (h.mutex hmutex)
    cases isOpened with
    | false => exact ⟨h, .of_eq .rfl rfl rfl rfl⟩
    | true =>
      refine ⟨⟨h.used, by simp [hserver], by simp, by simp, by simp⟩, ⟨by simp [hfree], rfl, by simp, ?_, ?_⟩⟩
      · exact fun hrunning' => absurd hrunning' hrunning
      · simp [hfree]

theorem Sound.move {m : StartWorld.StartMove} {s s' : StartWorld} (h : Sound s)
    (hm : StartWorld.move m s = some s') : Sound s' ∧ ServerKeeps s s' := by
  have hserver := h.server
  cases m with
  | create isOpened isCreated =>
    obtain ⟨hidle, hs'⟩ := Option.ite_none_right_eq_some.mp hm
    cases hs'
    exact h.create hidle isOpened isCreated
  | start =>
    obtain ⟨⟨hidle, hrunning⟩, hs'⟩ := Option.ite_none_right_eq_some.mp hm
    cases hs'
    have hnot : s.startMutex ≠ some .server := by simp [hserver, hidle]
    exact ⟨⟨h.used, by simp [hnot], fun _ => hrunning, h.mutex, h.created⟩, .of_eq .rfl rfl rfl rfl⟩
  | lock =>
    obtain ⟨hpc, hs'⟩ := Option.ite_none_right_eq_some.mp hm
    obtain ⟨t, ht, rfl⟩ := Option.map_eq_some_iff.mp hs'
    obtain ⟨m, hlock, rfl⟩ := Option.map_eq_some_iff.mp ht
    obtain ⟨hnone, rfl⟩ := Mutex.lock_eq_some hlock
    have hrunning : s.isRunning = true := h.busy (by simp [hpc])
    exact ⟨⟨h.used, by simp, fun _ => hrunning, fun _ => hrunning, h.created⟩,
      .of_eq (by simp [hnone]) rfl rfl rfl⟩
  | setDoRun =>
    obtain ⟨hpc, hs'⟩ := Option.ite_none_right_eq_some.mp hm
    cases hs'
    have hholds : s.startMutex = some .server := hserver.mpr (.inl hpc)
    have hrunning : s.isRunning = true := h.busy (by simp [hpc])
    exact ⟨⟨h.used, by simp [hholds], fun _ => hrunning, h.mutex, h.created⟩,
      ⟨.rfl, rfl, id, fun _ _ => rfl, by simp [hholds]⟩⟩
  | unlock =>
    obtain ⟨hpc, hs'⟩ := Option.ite_none_right_eq_some.mp hm
    cases hs'
    have hholds : s.startMutex = some .server := hserver.mpr (.inr hpc)
    have hrunning : s.isRunning = true := h.busy (by simp [hpc])
    exact ⟨⟨by simp [StartWorld.release, h.used, hholds], by simp [StartWorld.release],
      fun _ => hrunning, by simp [StartWorld.release], h.created⟩,
      .of_eq (by simp [StartWorld.release, hholds]) rfl rfl rfl⟩
  | signal =>
    obtain ⟨hpc, hs'⟩ := Option.ite_none_right_eq_some.mp hm
    cases hs'
    have hnot : s.startMutex ≠ some .server := by simp [hserver, hpc]
    exact ⟨⟨h.used, by simp [hnot], by simp, h.mutex, h.created⟩, .of_eq .rfl rfl rfl rfl⟩

/-- A call of `Start` waits for nobody but the processor. -/
theorem Sound.startCompletes {s : StartWorld} (h : Sound s) (hfree : s.startMutex ≠ some .processor) :
    StartCompletes s := by
  have hsignal : ∀ s : StartWorld, s.server = .signal → StartCompletes s := fun s hpc =>
    ⟨_, .single ⟨.signal, if_pos hpc⟩, rfl⟩
  have hunlock : ∀ s : StartWorld, s.server = .unlock → StartCompletes s := fun s hpc => by
    obtain ⟨s', hmoves, hidle⟩ := hsignal { s.release .server with server := .signal } rfl
    exact ⟨s', hmoves.head ⟨.unlock, if_pos hpc⟩, hidle⟩
  have hset : ∀ s : StartWorld, s.server = .setDoRun → StartCompletes s := fun s hpc => by
    obtain ⟨s', hmoves, hidle⟩ := hunlock { s with doRun := true, server := .unlock } rfl
    exact ⟨s', hmoves.head ⟨.setDoRun, if_pos hpc⟩, hidle⟩
  cases hpc : s.server with
  | idle => exact ⟨s, .refl, hpc⟩
  | lock =>
    have hnone : s.startMutex = none := by
      cases hmutex : s.startMutex with
      | none => rfl
      | some i =>
        cases i with
        | processor => exact absurd hmutex hfree
        | server =>
          have hholds := h.server.mp hmutex
          simp [hpc] at hholds
    obtain ⟨s', hmoves, hidle⟩ := hset { s with startMutex := some .server, server := .setDoRun } rfl
    refine ⟨s', hmoves.head ⟨.lock, ?_⟩, hidle⟩
    simp [StartWorld.move, StartWorld.lock, Mutex.lock, hpc, hnone]
  | setDoRun => exact hset s hpc
  | unlock => exact hunlock s hpc
  | signal => exact hsignal s hpc

/-! ### The processor -/

/-- The processor does not hold the mutex. -/
def Outside (s : StartWorld) : Prop := Sound s ∧ s.startMutex ≠ some .processor

def Waiting (s : StartWorld) : Prop := Outside s ∧ s.left = false

/-- The processor holds the mutex, with this value of `m_doRun`. -/
def Holding (doRun : Bool) (s : StartWorld) : Prop :=
  Sound s ∧ s.startMutex = some .processor ∧ s.left = false ∧ s.doRun = doRun

/-- The processor will find itself started. -/
def Started (s : StartWorld) : Prop := Waiting s ∧ s.isRunning = true ∧ s.doRun = true

/-- What every state of a run keeps. -/
def StartInv (s : StartWorld) : Prop := Sound s ∧ (s.left = true → s.startMutex ≠ some .processor)

variable {s s' : StartWorld}

theorem startedOnce_drift (h : Sound s) (hd : startedOnceEnv.drift s s') :
    Sound s' ∧ ServerKeeps s s' := by
  obtain ⟨m, -, hm⟩ := Env.guarded_drift hd
  exact h.move hm

theorem Outside.drift (h : Outside s) (hd : startedOnceEnv.drift s s') : Outside s' := by
  obtain ⟨hsound, hkeeps⟩ := startedOnce_drift h.1 hd
  exact ⟨hsound, fun hholds => h.2 (hkeeps.holds.mp hholds)⟩

theorem Waiting.drift (h : Waiting s) (hd : startedOnceEnv.drift s s') : Waiting s' := by
  obtain ⟨-, hkeeps⟩ := startedOnce_drift h.1.1 hd
  exact ⟨h.1.drift hd, hkeeps.left.trans h.2⟩

theorem Holding.drift {doRun : Bool} (h : Holding doRun s) (hd : startedOnceEnv.drift s s') :
    Holding doRun s' := by
  obtain ⟨hsound, hkeeps⟩ := startedOnce_drift h.1 hd
  exact ⟨hsound, hkeeps.holds.mpr h.2.1, hkeeps.left.trans h.2.2.1,
    (hkeeps.held h.2.1).trans h.2.2.2⟩

theorem Started.drift (h : Started s) (hd : startedOnceEnv.drift s s') : Started s' := by
  obtain ⟨-, hkeeps⟩ := startedOnce_drift h.1.1.1 hd
  exact ⟨h.1.drift hd, hkeeps.running h.2.1, hkeeps.started h.2.1 h.2.2⟩

theorem StartInv.drift (h : StartInv s) (hd : startedOnceEnv.drift s s') : StartInv s' := by
  obtain ⟨hsound, hkeeps⟩ := startedOnce_drift h.1 hd
  exact ⟨hsound, fun hleft hholds => h.2 (hkeeps.left ▸ hleft) (hkeeps.holds.mp hholds)⟩

theorem Outside.startInv (h : Outside s) : StartInv s := ⟨h.1, fun _ => h.2⟩

theorem Holding.startInv {doRun : Bool} (h : Holding doRun s) : StartInv s :=
  ⟨h.1, fun hleft => by simp [h.2.2.1] at hleft⟩

theorem StartInv.balanced (h : StartInv s) : Balanced s :=
  ⟨h.1.used, h.2, fun hleft => h.1.startCompletes (h.2 hleft)⟩

abbrev Starts {α : Type} (x : ProcessorM α) (Q : α → StartWorld → Prop) (s : StartWorld) : Prop :=
  x.Safe startedOnceEnv StartInv Q s

theorem Waiting.lock (h : Waiting s) (hrunning : s.isRunning = true)
    (hlock : s.lock .processor = some s') : Holding s.doRun s' := by
  obtain ⟨m, hm, rfl⟩ := Option.map_eq_some_iff.mp hlock
  obtain ⟨hnone, rfl⟩ := Mutex.lock_eq_some hm
  obtain ⟨⟨hsound, -⟩, hleft⟩ := h
  have hserver : ¬(s.server = .setDoRun ∨ s.server = .unlock) := by
    rw [← hsound.server, hnone]
    simp
  exact ⟨⟨hsound.used, by simp [hserver], hsound.busy, fun _ => hrunning, hsound.created⟩, rfl, hleft, rfl⟩

theorem Holding.release {doRun : Bool} (h : Holding doRun s) :
    Waiting (s.release .processor) ∧ (s.release .processor).isRunning = true := by
  obtain ⟨hsound, hholds, hleft, -⟩ := h
  have hserver : ¬(s.server = .setDoRun ∨ s.server = .unlock) := by
    rw [← hsound.server, hholds]
    simp
  have hsound' : Sound (s.release .processor) :=
    ⟨by simp [StartWorld.release, hsound.used, hholds], by simp [StartWorld.release, hserver],
      hsound.busy, by simp [StartWorld.release], hsound.created⟩
  exact ⟨⟨⟨hsound', by simp [StartWorld.release]⟩, hleft⟩, hsound.mutex (by simp [hholds])⟩

theorem lockStart_starts (h : Waiting s) :
    Starts (Prog.perform Op.lockStart) (fun _ => Holding false) s := by
  refine Prog.safe_op h (fun _ _ => Waiting.drift) fun s₁ h₁ r s₂ ha => ?_
  obtain ⟨hmay, hn⟩ := Env.guarded_answer ha
  obtain ⟨hcreated, hlock⟩ := Option.ite_none_right_eq_some.mp hn
  have hholding : Holding false s₂ := by
    have hdoRun : s₁.doRun = false := by simpa [startsOnce] using hmay
    exact hdoRun ▸ h₁.lock (h₁.1.1.created hcreated) hlock
  exact ⟨hholding.startInv, hholding⟩

/-- The first round finds the processor not started, and any other one started. -/
def AfterStartRound : Unit ⊕ Unit → StartWorld → Prop
  | .inl _, s => Holding false s ∨ Started s
  | .inr _, s => Outside s

theorem waitStart_starts (h : Holding false s) :
    Starts (Prog.op Op.waitStart fun _ => .op Op.wokenStart fun _ => .op Op.unlockStart fun _ =>
      .ret (.inl ())) AfterStartRound s := by
  refine Prog.safe_op h (fun _ _ => Holding.drift) fun s₁ h₁ r s₂ ha => ?_
  obtain ⟨-, hn⟩ := Env.guarded_answer ha
  cases hn
  obtain ⟨hwaiting, hrunning⟩ := h₁.release
  have hasleep : ∀ s s', Waiting s ∧ s.isRunning = true → startedOnceEnv.drift s s' →
      Waiting s' ∧ s'.isRunning = true := fun s s' h hd =>
    ⟨h.1.drift hd, (startedOnce_drift h.1.1.1 hd).2.running h.2⟩
  refine ⟨hwaiting.1.startInv, Prog.safe_op ⟨hwaiting, hrunning⟩ hasleep fun s₃ h₃ r s₄ ha => ?_⟩
  obtain ⟨hmay, hlock⟩ := Env.guarded_answer ha
  have hholding : Holding true s₄ := by
    have hdoRun : s₃.doRun = true := hmay
    exact hdoRun ▸ h₃.1.lock h₃.2 hlock
  refine ⟨hholding.startInv, Prog.safe_op hholding (fun _ _ => Holding.drift) fun s₅ h₅ r s₆ ha => ?_⟩
  obtain ⟨-, hn⟩ := Env.guarded_answer ha
  cases hn
  obtain ⟨hwaiting, hrunning⟩ := h₅.release
  exact ⟨hwaiting.1.startInv, .inr ⟨hwaiting, hrunning, h₅.2.2.2⟩⟩

theorem startTest_eq {r : Bool} (ha : startedOnceEnv.answer .startTest s r s') :
    r = s.doRun ∧ s' = s := by
  obtain ⟨-, hn⟩ := Env.guarded_answer ha
  obtain ⟨hr, hs'⟩ := Option.ite_none_right_eq_some.mp hn
  exact ⟨hr, (Option.some.inj hs').symm⟩

theorem startRound_starts (h : Holding false s ∨ Started s) :
    Starts (Processor.startRound ()) AfterStartRound s := by
  rcases h with hholding | hstarted
  · refine Prog.safe_op hholding (fun _ _ => Holding.drift) fun s₁ h₁ doRun s₂ ha => ?_
    obtain ⟨rfl, rfl⟩ := startTest_eq ha
    refine ⟨h₁.startInv, ?_⟩
    rw [h₁.2.2.2]
    exact waitStart_starts h₁
  · refine Prog.safe_op hstarted (fun _ _ => Started.drift) fun s₁ h₁ doRun s₂ ha => ?_
    obtain ⟨rfl, rfl⟩ := startTest_eq ha
    refine ⟨h₁.1.1.startInv, ?_⟩
    rw [h₁.2.2]
    exact h₁.1.1

theorem waitForStart_starts (cfg : ProcessorConfig) (fuel : ℕ) (h : Waiting s) :
    Starts (Processor.waitForStart cfg fuel) (fun _ => Outside) s := by
  unfold Processor.waitForStart
  split
  · exact h.1
  · refine (lockStart_starts h).bind fun _ s₁ h₁ => ?_
    refine Prog.Safe.loop (J := fun _ s => Holding false s ∨ Started s) (fun _ s₂ h₂ => ?_) fuel (.inl h₁)
    refine (startRound_starts h₂).mono fun x s₃ h₃ => ?_
    cases x with
    | inl _ => exact h₃
    | inr _ => exact h₃

/-- Past the section no operation is one of the mutex. -/
def Op.Past (o : Op) : Prop :=
  o ≠ .lockStart ∧ o ≠ .startTest ∧ o ≠ .waitStart ∧ o ≠ .wokenStart ∧ o ≠ .unlockStart

/-- Such an operation reads or writes `m_doRun`, or nothing of this. -/
theorem next_past {o : Op} (ho : o.Past) {r : Res o} (hn : StartWorld.next o s r = some s') :
    ∃ doRun, s' = { s.leave with doRun := doRun } := by
  cases o with
  | lockStart => exact absurd rfl ho.1
  | startTest => exact absurd rfl ho.2.1
  | waitStart => exact absurd rfl ho.2.2.1
  | wokenStart => exact absurd rfl ho.2.2.2.1
  | unlockStart => exact absurd rfl ho.2.2.2.2
  | loopTest =>
    obtain ⟨-, hs'⟩ := Option.ite_none_right_eq_some.mp hn
    cases hs'
    exact ⟨s.doRun, rfl⟩
  | setDoRun value =>
    cases hn
    exact ⟨value, rfl⟩
  | _ =>
    cases hn
    exact ⟨s.doRun, rfl⟩

theorem Outside.next {o : Op} (ho : o.Past) (s : StartWorld) (r : Res o) (s' : StartWorld)
    (h : Outside s) (ha : startedOnceEnv.answer o s r s') : Outside s' := by
  obtain ⟨-, hn⟩ := Env.guarded_answer ha
  obtain ⟨doRun, rfl⟩ := next_past ho hn
  obtain ⟨hsound, hfree⟩ := h
  exact ⟨⟨hsound.used, hsound.server, hsound.busy, hsound.mutex, hsound.created⟩, hfree⟩

theorem Outside.only {α : Type} {x : ProcessorM α} (hx : x.Only Op.Past) (h : Outside s) :
    Starts x (fun _ => Outside) s :=
  hx.safe (fun _ h => h.startInv) (fun _ _ h hd => h.drift hd) (fun _ ho => Outside.next ho) h

theorem past_local (o : Op) (ho : o.Local) : o.Past := by
  refine ⟨?_, ?_, ?_, ?_, ?_⟩ <;> rintro rfl <;> exact ho

theorem perform_past {o : Op} (ho : o.Past) : (Prog.perform o : ProcessorM (Res o)).Only Op.Past :=
  ⟨ho, fun _ => trivial⟩

theorem runRound_past (cfg : ProcessorConfig) (fuel : ℕ) (p : Processor) :
    (p.runRound cfg fuel).Only Op.Past := by
  have hstate : ∀ p : Processor, (p.processState cfg fuel).Only Op.Past :=
    Processor.processState_only (Op.ordinary_of_local past_local) (past_local _ trivial)
      (fun _ => by simp [Op.Past]) (fun _ _ => by simp [Op.Past]) (by simp [Op.Past])
      (by simp [Op.Past]) (by simp [Op.Past]) (by simp [Op.Past]) cfg fuel
  unfold Processor.runRound
  refine (perform_past (by simp [Op.Past])).bind fun (doRun : Bool) => ?_
  cases doRun with
  | false => trivial
  | true =>
    refine (perform_past (by simp [Op.Past])).bind fun _ => (hstate _).bind fun p => ?_
    split
    · exact (perform_past (by simp [Op.Past])).bind fun _ => trivial
    · refine (perform_past (by simp [Op.Past])).bind fun empty => ?_
      exact (perform_past (by simp [Op.Past])).bind fun _ => trivial

theorem run_starts (cfg : ProcessorConfig) (fuel : ℕ) (p : Processor) :
    Starts (p.run cfg fuel) (fun _ => Outside) .initial := by
  have hinitial : Waiting .initial := ⟨⟨sound_initial, by simp [StartWorld.initial]⟩, rfl⟩
  unfold Processor.run
  refine (waitForStart_starts cfg fuel hinitial).bind fun _ s₁ h₁ => h₁.only ?_
  refine (Processor.time_only (Op.ordinary_of_local past_local)).bind fun now => ?_
  refine (Prog.Only.loop (fun p => runRound_past cfg fuel p) fuel _).bind fun _ => ?_
  refine (perform_past (by simp [Op.Past])).bind fun _ => ?_
  refine (Prog.Only.loop (fun _ => Processor.clearRound_only (by simp [Op.Past])) fuel _).bind fun _ => ?_
  refine (perform_past (by simp [Op.Past])).bind fun _ => ?_
  exact (perform_past (by simp [Op.Past])).bind fun _ => trivial

/-- If the processor locks the mutex before `Start` is called and is woken after that, the mutex is
used by its holder only and is free for every later call of `Start`. -/
theorem start_balanced (cfg : ProcessorConfig) (fuel : ℕ) (p : Processor)
    {c : ProcessorM Unit × StartWorld}
    (h : startedOnceEnv.Reaches (p.run cfg fuel, .initial) c) : Balanced c.2 := by
  have hinitial : StartInv .initial := ⟨sound_initial, by simp [StartWorld.initial]⟩
  have hinv := (run_starts cfg fuel p).reaches hinitial (fun _ _ h hd => h.drift hd) h
  exact hinv.balanced

/-- `Start` is called twice, the second time for a processor that runs. -/
def handshakeScript : List (Turn Op Res StartWorld.StartMove) :=
  [.move (.create true true), .answer ⟨.lockStart, ()⟩, .answer ⟨.startTest, false⟩,
   .answer ⟨.waitStart, ()⟩, .move .start, .move .lock, .move .setDoRun, .move .unlock,
   .move .signal, .answer ⟨.wokenStart, ()⟩, .answer ⟨.unlockStart, ()⟩, .answer ⟨.startTest, true⟩,
   .answer ⟨.time, (0 : ℤ)⟩, .move .start]

theorem start_balanced_second : ∃ c : ProcessorM Unit × StartWorld,
    c.2.left = true ∧ c.2.server = .lock ∧ Balanced c.2 := by
  obtain ⟨c, hreaches, hc⟩ := Prog.exists_reaches_of_replay
    (guardNext startsOnce StartWorld.next) (guardMove (fun _ _ => true) StartWorld.move)
    handshakeScript (c := (Processor.run (unfilteredConfig false) 2 knownProcessor, .initial))
    (fun s => (s.left, s.server)) (t := (true, .lock)) (by decide +kernel)
  exact ⟨c, congrArg Prod.fst hc, congrArg Prod.snd hc,
    start_balanced (unfilteredConfig false) 2 knownProcessor hreaches⟩

/-- The first call of `Start` comes before the processor looks. -/
def earlyScript : List (Turn Op Res StartWorld.StartMove) :=
  [.move (.create true true), .move .start, .move .lock, .move .setDoRun, .move .unlock,
   .move .signal, .answer ⟨.lockStart, ()⟩, .answer ⟨.startTest, true⟩, .answer ⟨.time, (0 : ℤ)⟩]

theorem start_balanced_false : ¬∀ (cfg : ProcessorConfig) (fuel : ℕ) (p : Processor)
    (c : ProcessorM Unit × StartWorld), cfg.isDataCapture = false →
    startEnv.Reaches (p.run cfg fuel, .initial) c → Balanced c.2 := by
  intro hall
  obtain ⟨c, hreaches, hc⟩ := Prog.exists_reaches_of_replay StartWorld.next StartWorld.move
    earlyScript (c := (Processor.run (unfilteredConfig false) 2 knownProcessor, .initial))
    (fun s => (s.left, s.startMutex)) (t := (true, some .processor)) (by decide +kernel)
  have hbalanced := hall _ _ _ c rfl hreaches
  exact hbalanced.free (congrArg Prod.fst hc) (congrArg Prod.snd hc)

end Ritex
