import Ritex.RelyGuarantee

/-! Processes that run programs, fork and may die at any time. What a process was answered is its log,
which a new process begins with as well. -/
namespace Ritex.Interaction

variable {Op : Type} {Res : Op → Type} {α κ S : Type}

structure Process (Op : Type) (Res : Op → Type) (α : Type) where
  left : Prog Op Res α
  log : List (Event Op Res)
  isAlive : Bool

structure ProcessWorld (Op : Type) (Res : Op → Type) (α κ : Type) where
  procs : List (Process Op Res α)
  shared : κ

/-- The answers to the processes, with what they make of the shared state. By some answers a process
forks, and the new process gets an answer of its own. -/
structure Kernel (Op : Type) (Res : Op → Type) (α κ : Type) where
  next : ProcessWorld Op Res α κ → Process Op Res α → (o : Op) → Res o → Option κ
  forks : (o : Op) → Res o → Option (Res o)

namespace Process

def answered (p : Process Op Res α) {o : Op} (k : Res o → Prog Op Res α) (r : Res o) :
    Process Op Res α :=
  ⟨k r, p.log ++ [⟨o, r⟩], true⟩

def dead (p : Process Op Res α) : Process Op Res α := { p with isAlive := false }

def view (next : S → Event Op Res → S) (s₀ : S) (p : Process Op Res α) : S := p.log.foldl next s₀

variable {p : Process Op Res α} {o : Op} {k : Res o → Prog Op Res α}

@[simp] theorem answered_left (r : Res o) : (p.answered k r).left = k r := rfl

@[simp] theorem answered_isAlive (r : Res o) : (p.answered k r).isAlive = true := rfl

@[simp] theorem answered_view (next : S → Event Op Res → S) (s₀ : S) (r : Res o) :
    (p.answered k r).view next s₀ = next (p.view next s₀) ⟨o, r⟩ := by
  simp [view, answered]

@[simp] theorem dead_left : p.dead.left = p.left := rfl

@[simp] theorem dead_isAlive : p.dead.isAlive = false := rfl

@[simp] theorem dead_view (next : S → Event Op Res → S) (s₀ : S) :
    p.dead.view next s₀ = p.view next s₀ := rfl

end Process

namespace Kernel

variable (K : Kernel Op Res α κ)

/-- The new process, if there is one. -/
def forked (p : Process Op Res α) {o : Op} (k : Res o → Prog Op Res α) (r : Res o) :
    List (Process Op Res α) :=
  ((K.forks o r).map (p.answered k)).toList

inductive Moves : ProcessWorld Op Res α κ → ProcessWorld Op Res α κ → Prop
  | answer {before after : List (Process Op Res α)} {p : Process Op Res α} {o : Op}
      {k : Res o → Prog Op Res α} {r : Res o} {s s' : κ} (halive : p.isAlive = true)
      (hleft : p.left = .op o k) (hnext : K.next ⟨before ++ p :: after, s⟩ p o r = some s') :
      Moves ⟨before ++ p :: after, s⟩ ⟨before ++ p.answered k r :: (after ++ K.forked p k r), s'⟩

inductive Dies : ProcessWorld Op Res α κ → ProcessWorld Op Res α κ → Prop
  | die {before after : List (Process Op Res α)} {p : Process Op Res α} {s : κ}
      (halive : p.isAlive = true) : Dies ⟨before ++ p :: after, s⟩ ⟨before ++ p.dead :: after, s⟩

def Step (w w' : ProcessWorld Op Res α κ) : Prop := K.Moves w w' ∨ Dies w w'

def first (root : Prog Op Res α) (s : κ) : ProcessWorld Op Res α κ := ⟨[⟨root, [], true⟩], s⟩

def Reaches (root : Prog Op Res α) (s : κ) (w : ProcessWorld Op Res α κ) : Prop :=
  Relation.ReflTransGen K.Step (first root s) w

variable {K}

/-- What holds of the first process, and is kept by what it is answered and when it dies, holds of all
processes. -/
theorem forall_reaches {good : Process Op Res α → Prop} {root : Prog Op Res α} {t : κ}
    {w : ProcessWorld Op Res α κ} (h : K.Reaches root t w) (hroot : good ⟨root, [], true⟩)
    (hanswer : ∀ w p o k r s, good p → p.left = .op o k → K.next w p o r = some s →
      good (p.answered k r) ∧ ∀ r' ∈ K.forks o r, good (p.answered k r'))
    (hdead : ∀ p, good p → good p.dead) : ∀ p ∈ w.procs, good p := by
  induction h with
  | refl =>
    intro p hp
    obtain rfl := List.mem_singleton.mp hp
    exact hroot
  | tail _ hstep ih =>
    intro q hq
    rcases hstep with ⟨@⟨before, after, p, o, k, r, s, s', halive, hleft, hnext⟩⟩ |
      ⟨@⟨before, after, p, s, halive⟩⟩
    · obtain ⟨hr, hr'⟩ := hanswer _ p o k r s' (ih p (by simp)) hleft hnext
      simp only [List.mem_append, List.mem_cons] at hq
      rcases hq with hq | rfl | hq | hq
      · exact ih q (by simp [hq])
      · exact hr
      · exact ih q (by simp [hq])
      · obtain ⟨r', hforks, rfl⟩ := Option.map_eq_some_iff.mp (Option.mem_toList.mp hq)
        exact hr' r' hforks
    · simp only [List.mem_append, List.mem_cons] at hq
      rcases hq with hq | rfl | hq
      · exact ih q (by simp [hq])
      · exact hdead p (ih p (by simp))
      · exact ih q (by simp [hq])

/-- If the program is not cut off anywhere, no process is. -/
theorem finishes_reaches {root : Prog Op Res α} (hroot : root.Finishes) {t : κ}
    {w : ProcessWorld Op Res α κ} (h : K.Reaches root t w) : ∀ p ∈ w.procs, p.left.Finishes := by
  refine forall_reaches h hroot (fun _ p o k r _ hp hleft _ => ?_) fun _ hp => hp
  rw [hleft] at hp
  exact ⟨hp r, fun r' _ => hp r'⟩

/-! ### What each process guarantees -/

/-- The kernel gives only answers that are relied on. -/
def Keeps (K : Kernel Op Res α κ) (G : RelyGuarantee Op Res S) (s₀ : S) : Prop :=
  ∀ w (p : Process Op Res α) o r s, K.next w p o r = some s → G.relies (p.view G.next s₀) ⟨o, r⟩ ∧
    ∀ r' ∈ K.forks o r, G.relies (p.view G.next s₀) ⟨o, r'⟩

/-- The process guarantees what it should and goes on to do so. -/
structure Good (G : RelyGuarantee Op Res S) (Q : α → S → Prop) (s₀ : S) (p : Process Op Res α) :
    Prop where
  guarantees : G.guarantees (p.view G.next s₀)
  meets : p.left.Meets G Q (p.view G.next s₀)

variable {G : RelyGuarantee Op Res S} {Q : α → S → Prop} {s₀ : S} {p : Process Op Res α}

theorem Good.answered (h : Good G Q s₀ p) {o : Op} {k : Res o → Prog Op Res α}
    (hleft : p.left = .op o k) {r : Res o} (hr : G.relies (p.view G.next s₀) ⟨o, r⟩) :
    Good G Q s₀ (p.answered k r) := by
  have hmeets := h.meets
  rw [hleft] at hmeets
  obtain ⟨hguarantees, hk⟩ := hmeets r hr
  constructor
  · rwa [Process.answered_view]
  · rwa [Process.answered_view]

/-- If the program guarantees, every process that comes of it does. -/
theorem good_reaches {root : Prog Op Res α} (hroot : root.Meets G Q s₀) (hs₀ : G.guarantees s₀)
    (hkeeps : K.Keeps G s₀) {t : κ} {w : ProcessWorld Op Res α κ} (h : K.Reaches root t w) :
    ∀ p ∈ w.procs, Good G Q s₀ p := by
  refine forall_reaches h ⟨hs₀, hroot⟩ (fun w p o k r s hp hleft hnext => ?_)
    fun p hp => ⟨hp.guarantees, hp.meets⟩
  obtain ⟨hr, hr'⟩ := hkeeps w p o r s hnext
  exact ⟨hp.answered hleft hr, fun r' hforks => hp.answered hleft (hr' r' hforks)⟩

end Kernel

/-! ### Every run comes to an end -/

/-- Every answer leaves a program of a smaller rank. -/
noncomputable def Prog.rank : Prog Op Res α → Ordinal.{0}
  | .ret _ => 0
  | .cut => 0
  | .op _ k => ⨆ r, (k r).rank + 1

theorem Prog.rank_lt {o : Op} (k : Res o → Prog Op Res α) (r : Res o) :
    (k r).rank < (Prog.op o k).rank :=
  Ordinal.lt_iSup_add_one (fun r => (k r).rank) r

/-- The ranks of the processes that are alive. -/
noncomputable def ranks (procs : List (Process Op Res α)) : Multiset Ordinal.{0} :=
  (procs.filter (·.isAlive)).map fun p => p.left.rank

theorem ranks_append (procs procs' : List (Process Op Res α)) :
    ranks (procs ++ procs') = ranks procs + ranks procs' := by
  simp [ranks]

theorem ranks_alive {p : Process Op Res α} (hp : p.isAlive = true) (procs : List (Process Op Res α)) :
    ranks (p :: procs) = {p.left.rank} + ranks procs := by
  simp [ranks, hp]

theorem ranks_dead (p : Process Op Res α) (procs : List (Process Op Res α)) :
    ranks (p.dead :: procs) = ranks procs := by
  simp [ranks]

namespace Kernel

variable {K : Kernel Op Res α κ}

theorem ranks_step {w w' : ProcessWorld Op Res α κ} (h : K.Step w w') :
    Multiset.IsDershowitzMannaLT (ranks w'.procs) (ranks w.procs) := by
  rcases h with ⟨@⟨before, after, p, o, k, r, s, s', halive, hleft, hnext⟩⟩ |
    ⟨@⟨before, after, p, s, halive⟩⟩
  · refine ⟨ranks before + ranks after, {(k r).rank} + ranks (K.forked p k r), {p.left.rank}, by simp,
      ?_, ?_, fun y hy => ⟨p.left.rank, by simp, ?_⟩⟩
    · rw [ranks_append, ranks_alive (p := p.answered k r) rfl, ranks_append, Process.answered_left]
      abel
    · rw [ranks_append, ranks_alive halive]
      abel
    · rw [hleft]
      rcases Multiset.mem_add.mp hy with hy | hy
      · rw [Multiset.mem_singleton.mp hy]
        exact Prog.rank_lt k r
      · rw [forked] at hy
        cases hforks : K.forks o r with
        | none => simp [hforks, ranks] at hy
        | some r' =>
          obtain rfl : (k r').rank = y := by simpa [hforks, ranks] using hy
          exact Prog.rank_lt k r'
  · refine ⟨ranks before + ranks after, 0, {p.left.rank}, by simp, ?_, ?_, by simp⟩
    · rw [ranks_append, ranks_dead, add_zero]
    · rw [ranks_append, ranks_alive halive]
      abel

theorem step_wellFounded (K : Kernel Op Res α κ) : WellFounded fun w' w => K.Step w w' :=
  Subrelation.wf (fun {_ _} h => ranks_step h)
    (InvImage.wf (fun w : ProcessWorld Op Res α κ => ranks w.procs)
      Multiset.wellFounded_isDershowitzMannaLT)

end Kernel

/-! ### Scripts -/

namespace Process

variable [DecidableEq Op]

def after (p : Process Op Res α) (e : Event Op Res) : Option (Process Op Res α) :=
  (p.left.after e).map fun left => ⟨left, p.log ++ [e], true⟩

variable {p q : Process Op Res α} {o : Op}

theorem after_eq_some {r : Res o} (h : p.after ⟨o, r⟩ = some q) :
    ∃ k, p.left = .op o k ∧ q = p.answered k r := by
  obtain ⟨left, hafter, rfl⟩ := Option.map_eq_some_iff.mp h
  obtain ⟨k, hleft, rfl⟩ := Prog.after_eq_some hafter
  exact ⟨k, hleft, rfl⟩

theorem after_of_left {k : Res o → Prog Op Res α} (h : p.left = .op o k) (r : Res o) :
    p.after ⟨o, r⟩ = some (p.answered k r) := by
  rw [after, h]
  simp [Prog.after, answered]

end Process

namespace Kernel

variable [DecidableEq Op] (K : Kernel Op Res α κ)

/-- The process with the number `i` is answered. -/
def play (i : ℕ) (e : Event Op Res) (w : ProcessWorld Op Res α κ) :
    Option (ProcessWorld Op Res α κ) :=
  (w.procs[i]?).bind fun p => (p.after e).bind fun q =>
    if p.isAlive then (K.next w p e.1 e.2).map fun s =>
      ⟨w.procs.take i ++ q :: (w.procs.drop (i + 1) ++
        ((K.forks e.1 e.2).bind fun r => p.after ⟨e.1, r⟩).toList), s⟩
    else none

def replay : List (ℕ × Event Op Res) → ProcessWorld Op Res α κ → Option (ProcessWorld Op Res α κ)
  | [], w => some w
  | turn :: turns, w => (K.play turn.1 turn.2 w).bind (replay turns)

variable {K}

theorem step_of_play {i : ℕ} {e : Event Op Res} {w w' : ProcessWorld Op Res α κ}
    (h : K.play i e w = some w') : K.Step w w' := by
  obtain ⟨procs, s⟩ := w
  obtain ⟨o, r⟩ := e
  obtain ⟨p, hp, hrest⟩ := Option.bind_eq_some_iff.mp h
  obtain ⟨q, hafter, hrest⟩ := Option.bind_eq_some_iff.mp hrest
  obtain ⟨halive, hrest⟩ := Option.ite_none_right_eq_some.mp hrest
  obtain ⟨s', hnext, rfl⟩ := Option.map_eq_some_iff.mp hrest
  obtain ⟨k, hleft, rfl⟩ := Process.after_eq_some hafter
  obtain ⟨hi, rfl⟩ := List.getElem?_eq_some_iff.mp hp
  have hsplit : procs = procs.take i ++ procs[i] :: procs.drop (i + 1) := by
    rw [List.cons_getElem_drop_succ, List.take_append_drop]
  have hforked : ((K.forks o r).bind fun r' => procs[i].after ⟨o, r'⟩).toList =
      K.forked procs[i] k r := by
    unfold forked
    cases K.forks o r with
    | none => rfl
    | some r' => simp [Process.after_of_left hleft]
  have hmoves : K.Moves ⟨procs.take i ++ procs[i] :: procs.drop (i + 1), s⟩
      ⟨procs.take i ++ procs[i].answered k r :: (procs.drop (i + 1) ++ K.forked procs[i] k r), s'⟩ :=
    .answer halive hleft (by rwa [← hsplit])
  rw [← hsplit, ← hforked] at hmoves
  exact .inl hmoves

theorem reaches_of_replay {root : Prog Op Res α} {t : κ} (turns : List (ℕ × Event Op Res))
    {w w' : ProcessWorld Op Res α κ} (hw : K.Reaches root t w) (h : K.replay turns w = some w') :
    K.Reaches root t w' := by
  induction turns generalizing w with
  | nil =>
    cases h
    exact hw
  | cons turn turns ih =>
    obtain ⟨w₁, hplay, hrest⟩ := Option.bind_eq_some_iff.mp h
    exact ih (hw.tail (step_of_play hplay)) hrest

theorem exists_reaches_of_replay (K : Kernel Op Res α κ) (root : Prog Op Res α) (t : κ)
    (turns : List (ℕ × Event Op Res)) (f : ProcessWorld Op Res α κ → Bool)
    (h : (K.replay turns (first root t)).any f = true) : ∃ w, K.Reaches root t w ∧ f w = true := by
  obtain ⟨w, hreplay, hf⟩ := (Option.any_eq_true _ _).mp h
  exact ⟨w, reaches_of_replay turns .refl hreplay, hf⟩

end Kernel

end Ritex.Interaction
