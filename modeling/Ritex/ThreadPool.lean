import Ritex.History

/-! Threads that run programs over one shared state. A thread relies on a relation that the steps
of every other thread keep, and all of them keep an invariant. -/
namespace Ritex.Interaction

variable {ι κ Op : Type} {Res : Op → Type} {α β γ σ : Type}

/-- The answers that each thread gets, and the calls it may make when it has no program. -/
structure Threads (ι κ Op : Type) (Res : Op → Type) (α σ : Type) where
  next : ι → (o : Op) → σ → Res o → Option σ
  start : ι → κ → σ → Option (Prog Op Res α × σ)

/-- What each thread has left of its program, and the shared state. -/
structure Pool (ι Op : Type) (Res : Op → Type) (α σ : Type) where
  left : ι → Prog Op Res α
  state : σ

namespace Pool

variable [DecidableEq ι]

def set (c : Pool ι Op Res α σ) (i : ι) (p : Prog Op Res α) (s : σ) : Pool ι Op Res α σ :=
  ⟨Function.update c.left i p, s⟩

variable (c : Pool ι Op Res α σ) (i : ι) (p : Prog Op Res α) (s : σ)

@[simp] theorem set_state : (c.set i p s).state = s := rfl

@[simp] theorem set_left_self : (c.set i p s).left i = p := Function.update_self ..

theorem set_left_of_ne {j : ι} (h : j ≠ i) : (c.set i p s).left j = c.left j :=
  Function.update_of_ne h ..

end Pool

namespace Threads

variable [DecidableEq ι]

inductive Step (T : Threads ι κ Op Res α σ) : Pool ι Op Res α σ → Pool ι Op Res α σ → Prop
  | answer {c : Pool ι Op Res α σ} {i : ι} {o : Op} {k : Res o → Prog Op Res α} {r : Res o} {s' : σ}
      (hi : c.left i = .op o k) (ha : T.next i o c.state r = some s') :
      Step T c (c.set i (k r) s')
  | start {c : Pool ι Op Res α σ} {i : ι} {a : α} {call : κ} {p : Prog Op Res α} {s' : σ}
      (hi : c.left i = .ret a) (hs : T.start i call c.state = some (p, s')) :
      Step T c (c.set i p s')

def Reaches (T : Threads ι κ Op Res α σ) : Pool ι Op Res α σ → Pool ι Op Res α σ → Prop :=
  Relation.ReflTransGen T.Step

end Threads

/-- What all threads keep, and what a thread may rely on. -/
structure Contract (ι σ : Type) where
  inv : σ → Prop
  rely : ι → σ → σ → Prop

def Contract.Grants (C : Contract ι σ) (i : ι) (s s' : σ) : Prop :=
  C.inv s' ∧ ∀ j, j ≠ i → C.rely j s s'

/-- Every step of the program in the thread is granted to the others, as long as they do what the
thread relies on, and `Q` holds where the program returns. -/
def Prog.Cooperates (T : Threads ι κ Op Res β σ) (C : Contract ι σ) (i : ι) :
    Prog Op Res α → (α → σ → Prop) → σ → Prop
  | .ret a, Q, s => Q a s
  | .cut, _, _ => True
  | .op o k, Q, s => ∀ s₁, Relation.ReflTransGen (C.rely i) s s₁ → C.inv s₁ →
      ∀ r s₂, T.next i o s₁ r = some s₂ → C.Grants i s₁ s₂ ∧ (k r).Cooperates T C i Q s₂

namespace Prog

variable {T : Threads ι κ Op Res β σ} {C : Contract ι σ} {i : ι}

theorem Cooperates.mono {p : Prog Op Res α} {P Q : α → σ → Prop} {s : σ}
    (hp : p.Cooperates T C i P s) (hPQ : ∀ a s, P a s → Q a s) : p.Cooperates T C i Q s := by
  induction p generalizing s with
  | ret a => exact hPQ a s hp
  | cut => trivial
  | op o k ih =>
    intro s₁ hd hI r s₂ ha
    obtain ⟨hgrants, hk⟩ := hp s₁ hd hI r s₂ ha
    exact ⟨hgrants, ih r hk⟩

theorem Cooperates.bind {p : Prog Op Res α} {f : α → Prog Op Res γ} {P : α → σ → Prop}
    {Q : γ → σ → Prop} {s : σ} (hp : p.Cooperates T C i P s)
    (hf : ∀ a s, P a s → (f a).Cooperates T C i Q s) : (p.bind f).Cooperates T C i Q s := by
  induction p generalizing s with
  | ret a => exact hf a s hp
  | cut => trivial
  | op o k ih =>
    intro s₁ hd hI r s₂ ha
    obtain ⟨hgrants, hk⟩ := hp s₁ hd hI r s₂ ha
    exact ⟨hgrants, ih r hk⟩

theorem rely_invariant {J : σ → Prop} (hrely : ∀ s s', J s → C.rely i s s' → J s') {s s' : σ}
    (h : Relation.ReflTransGen (C.rely i) s s') (hs : J s) : J s' := by
  induction h with
  | refl => exact hs
  | tail _ hstep ih => exact hrely _ _ ih hstep

/-- An operation of a thread that knows `J`, which the others do not disturb. -/
theorem cooperates_op {J : σ → Prop} {o : Op} {k : Res o → Prog Op Res α} {Q : α → σ → Prop} {s : σ}
    (hJ : J s) (hrely : ∀ s s', J s → C.rely i s s' → J s')
    (hk : ∀ s₁, J s₁ → C.inv s₁ → ∀ r s₂, T.next i o s₁ r = some s₂ →
      C.Grants i s₁ s₂ ∧ (k r).Cooperates T C i Q s₂) : (op o k).Cooperates T C i Q s := by
  intro s₁ hd hI r s₂ ha
  exact hk s₁ (rely_invariant hrely hd hJ) hI r s₂ ha

theorem Cooperates.ite {c : Prop} [Decidable c] {p q : Prog Op Res α} {Q : α → σ → Prop} {s : σ}
    (hp : c → p.Cooperates T C i Q s) (hq : ¬c → q.Cooperates T C i Q s) :
    (if c then p else q).Cooperates T C i Q s := by
  by_cases hc : c
  · rw [if_pos hc]
    exact hp hc
  · rw [if_neg hc]
    exact hq hc

theorem Cooperates.loop {body : α → Prog Op Res (α ⊕ γ)} {J : α → σ → Prop} {Q : γ → σ → Prop}
    (hbody : ∀ a s, J a s → (body a).Cooperates T C i
      (fun x s' => (∀ a', x = .inl a' → J a' s') ∧ ∀ b, x = .inr b → Q b s') s)
    (n : ℕ) {a : α} {s : σ} (ha : J a s) : (Prog.loop body n a).Cooperates T C i Q s := by
  induction n generalizing a s with
  | zero => trivial
  | succ n ih =>
    refine (hbody a s ha).bind fun x s' hx => ?_
    cases x with
    | inl a' => exact ih (hx.1 a' rfl)
    | inr b => exact hx.2 b rfl

/-- The rule for a loop over a list: `J` speaks of the entries that are left. -/
theorem Cooperates.forM {f : γ → Prog Op Res PUnit} {J : List γ → σ → Prop}
    (hf : ∀ x xs s, J (x :: xs) s → (f x).Cooperates T C i (fun _ s' => J xs s') s) {xs : List γ}
    {s : σ} (hs : J xs s) : (xs.forM f).Cooperates T C i (fun _ s' => J [] s') s := by
  induction xs generalizing s with
  | nil => exact hs
  | cons x xs ih => exact (hf x xs s hs).bind fun _ s' hs' => ih hs'

theorem Cooperates.foldlM {f : α → γ → Prog Op Res α} {J : List γ → α → σ → Prop}
    (hf : ∀ a x xs s, J (x :: xs) a s → (f a x).Cooperates T C i (fun a' s' => J xs a' s') s)
    {xs : List γ} {a : α} {s : σ} (hs : J xs a s) :
    (xs.foldlM f a).Cooperates T C i (fun a' s' => J [] a' s') s := by
  induction xs generalizing a s with
  | nil => exact hs
  | cons x xs ih => exact (hf a x xs s hs).bind fun a' s' hs' => ih hs'

end Prog

def Pool.Cooperates (T : Threads ι κ Op Res α σ) (C : Contract ι σ) (rest : ι → α → σ → Prop)
    (c : Pool ι Op Res α σ) : Prop :=
  C.inv c.state ∧ ∀ i, ∃ s, Relation.ReflTransGen (C.rely i) s c.state ∧
    (c.left i).Cooperates T C i (rest i) s

namespace Pool.Cooperates

variable {T : Threads ι κ Op Res α σ} {C : Contract ι σ} {rest : ι → α → σ → Prop}
  {c c' : Pool ι Op Res α σ}

theorem rests (h : c.Cooperates T C rest)
    (hrest : ∀ i a s s', rest i a s → C.rely i s s' → rest i a s') {i : ι} {a : α}
    (hi : c.left i = .ret a) : rest i a c.state := by
  obtain ⟨s, hrely, hleft⟩ := h.2 i
  rw [hi] at hleft
  exact Prog.rely_invariant (hrest i a) hrely hleft

variable [DecidableEq ι]

theorem update (h : c.Cooperates T C rest) {i : ι} {p : Prog Op Res α} {s' : σ}
    (hgrants : C.Grants i c.state s') (hp : p.Cooperates T C i (rest i) s') :
    (c.set i p s').Cooperates T C rest := by
  refine ⟨hgrants.1, fun j => ?_⟩
  by_cases hj : j = i
  · subst hj
    exact ⟨s', .refl, by rwa [set_left_self]⟩
  · obtain ⟨s, hrely, hleft⟩ := h.2 j
    exact ⟨s, hrely.tail (hgrants.2 j hj), by rwa [set_left_of_ne c i p s' hj]⟩

theorem step (h : c.Cooperates T C rest)
    (hrest : ∀ i a s s', rest i a s → C.rely i s s' → rest i a s')
    (hstart : ∀ i a call s p s', rest i a s → C.inv s → T.start i call s = some (p, s') →
      C.Grants i s s' ∧ p.Cooperates T C i (rest i) s')
    (hstep : T.Step c c') : c'.Cooperates T C rest := by
  cases hstep with
  | @answer i _ _ _ _ hi ha =>
    obtain ⟨s, hrely, hleft⟩ := h.2 i
    rw [hi] at hleft
    obtain ⟨hgrants, hk⟩ := hleft _ hrely h.1 _ _ ha
    exact h.update hgrants hk
  | start hi hs =>
    obtain ⟨hgrants, hp⟩ := hstart _ _ _ _ _ _ (h.rests hrest hi) h.1 hs
    exact h.update hgrants hp

/-- The rule for pools: threads that cooperate when they start go on to cooperate. -/
theorem reaches (h : c.Cooperates T C rest)
    (hrest : ∀ i a s s', rest i a s → C.rely i s s' → rest i a s')
    (hstart : ∀ i a call s p s', rest i a s → C.inv s → T.start i call s = some (p, s') →
      C.Grants i s s' ∧ p.Cooperates T C i (rest i) s')
    (hreaches : T.Reaches c c') : c'.Cooperates T C rest := by
  induction hreaches with
  | refl => exact h
  | tail _ hstep ih => exact ih.step hrest hstart hstep

end Pool.Cooperates

/-! ### Mutexes -/

/-- The holder of a recursive mutex, and how often it has locked the mutex again. -/
abbrev RecursiveMutex (ι : Type) := Option (ι × ℕ)

namespace RecursiveMutex

def Held (m : RecursiveMutex ι) (i : ι) : Prop := ∃ depth, m = some (i, depth)

variable {m m' : RecursiveMutex ι} {i j : ι} {depth : ℕ}

variable [DecidableEq ι]

/-- `none` if the thread has to wait. -/
def lock (m : RecursiveMutex ι) (i : ι) : Option (RecursiveMutex ι) :=
  match m with
  | none => some (some (i, 0))
  | some (j, depth) => if j = i then some (some (i, depth + 1)) else none

/-- A thread that does not hold the mutex gets an error. -/
def unlock (m : RecursiveMutex ι) (i : ι) : RecursiveMutex ι :=
  match m with
  | none => none
  | some (j, depth) => if j = i then if depth = 0 then none else some (i, depth - 1) else m

end RecursiveMutex

abbrev Mutex (ι : Type) := Option ι

namespace Mutex

variable {m m' : Mutex ι} {i j : ι}

/-- `none` if the thread has to wait, be it for itself. -/
def lock (m : Mutex ι) (i : ι) : Option (Mutex ι) := if m = none then some (some i) else none

theorem lock_eq_some (h : m.lock i = some m') : m = none ∧ m' = some i := by
  obtain ⟨hnone, hm'⟩ := Option.ite_none_right_eq_some.mp h
  exact ⟨hnone, (Option.some.inj hm').symm⟩

theorem ne_of_holder (h : m = some i) (hj : j ≠ i) : m ≠ some j := by
  rw [h]
  exact fun heq => hj (Option.some.inj heq).symm

variable [DecidableEq ι]

def unlock (m : Mutex ι) (i : ι) : Mutex ι := if m = some i then none else m

@[simp] theorem unlock_self : Mutex.unlock (some i) i = none := if_pos rfl

theorem ne_of_unlock (h : m = some i) (j : ι) : m.unlock i ≠ some j := by
  simp [h]

end Mutex

/-! ### Scripts -/

/-- An entry of a script: a thread is answered, or makes a call. -/
inductive PoolTurn (ι κ Op : Type) (Res : Op → Type)
  | answer (i : ι) (e : Event Op Res)
  | start (i : ι) (call : κ)

namespace Threads

variable [DecidableEq ι] [DecidableEq Op]

def play (T : Threads ι κ Op Res α σ) :
    PoolTurn ι κ Op Res → Pool ι Op Res α σ → Option (Pool ι Op Res α σ)
  | .answer i e, c => do
    let p ← (c.left i).after e
    let s ← T.next i e.1 c.state e.2
    return c.set i p s
  | .start i call, c =>
    match c.left i with
    | .ret _ => (T.start i call c.state).map fun x => c.set i x.1 x.2
    | _ => none

def replay (T : Threads ι κ Op Res α σ) :
    List (PoolTurn ι κ Op Res) → Pool ι Op Res α σ → Option (Pool ι Op Res α σ)
  | [], c => some c
  | turn :: turns, c => (T.play turn c).bind (T.replay turns)

theorem step_of_play {T : Threads ι κ Op Res α σ} {turn : PoolTurn ι κ Op Res}
    {c c' : Pool ι Op Res α σ} (h : T.play turn c = some c') : T.Step c c' := by
  cases turn with
  | answer i e =>
    obtain ⟨p, hafter, hrest⟩ := Option.bind_eq_some_iff.mp h
    obtain ⟨s, hnext, hc'⟩ := Option.bind_eq_some_iff.mp hrest
    cases hc'
    obtain ⟨k, hleft, rfl⟩ := Prog.after_eq_some hafter
    exact .answer hleft hnext
  | start i call =>
    rw [play] at h
    split at h
    next a hleft =>
      obtain ⟨⟨p, s⟩, hstart, rfl⟩ := Option.map_eq_some_iff.mp h
      exact .start hleft hstart
    next => cases h

theorem reaches_of_replay {T : Threads ι κ Op Res α σ} (turns : List (PoolTurn ι κ Op Res))
    {c c' : Pool ι Op Res α σ} (h : T.replay turns c = some c') : T.Reaches c c' := by
  induction turns generalizing c with
  | nil =>
    cases h
    exact Relation.ReflTransGen.refl
  | cons turn turns ih =>
    obtain ⟨c₁, hplay, hrest⟩ := Option.bind_eq_some_iff.mp h
    exact Relation.ReflTransGen.head (step_of_play hplay) (ih hrest)

theorem exists_reaches_of_replay (T : Threads ι κ Op Res α σ) (turns : List (PoolTurn ι κ Op Res))
    (c : Pool ι Op Res α σ) (f : Pool ι Op Res α σ → Bool) (h : (T.replay turns c).any f = true) :
    ∃ c', T.Reaches c c' ∧ f c' = true := by
  obtain ⟨c', hreplay, hf⟩ := (Option.any_eq_true _ _).mp h
  exact ⟨c', reaches_of_replay turns hreplay, hf⟩

end Threads

end Ritex.Interaction
