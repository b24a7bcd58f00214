import Mathlib

/-! Programs as trees of operations answered by an environment. A program names the
operation it performs next and continues with the answer; a loop is unrolled to a bound
and cut there, so that every finite run of the loop is a run of some unrolling. -/
namespace Ritex.Interaction

inductive Prog (Op : Type) (Res : Op → Type) (α : Type) : Type
  | ret (a : α)
  | op (o : Op) (k : Res o → Prog Op Res α)
  | cut

variable {Op : Type} {Res : Op → Type} {α β γ σ τ : Type}

namespace Prog

def bind : Prog Op Res α → (α → Prog Op Res β) → Prog Op Res β
  | .ret a, f => f a
  | .op o k, f => .op o fun r => (k r).bind f
  | .cut, _ => .cut

instance : Monad (Prog Op Res) where
  pure := .ret
  bind := .bind

def perform (o : Op) : Prog Op Res (Res o) := .op o .ret

/-- At most `n` rounds of a loop body, which goes on with `inl` and leaves with `inr`. -/
def loop (body : α → Prog Op Res (α ⊕ β)) : ℕ → α → Prog Op Res β
  | 0, _ => .cut
  | n + 1, a => (body a).bind fun
    | .inl a' => loop body n a'
    | .inr b => .ret b

@[simp] theorem pure_eq (a : α) : (pure a : Prog Op Res α) = .ret a := rfl

@[simp] theorem bind_eq (p : Prog Op Res α) (f : α → Prog Op Res β) : p >>= f = p.bind f := rfl

@[simp] theorem ret_bind (a : α) (f : α → Prog Op Res β) : (ret a).bind f = f a := rfl

@[simp] theorem op_bind (o : Op) (k : Res o → Prog Op Res α) (f : α → Prog Op Res β) :
    (op o k).bind f = .op o fun r => (k r).bind f := rfl

@[simp] theorem cut_bind (f : α → Prog Op Res β) : (cut : Prog Op Res α).bind f = .cut := rfl

@[simp] theorem perform_bind (o : Op) (f : Res o → Prog Op Res β) :
    (perform o).bind f = .op o f := rfl

theorem bind_assoc (p : Prog Op Res α) (f : α → Prog Op Res β) (g : β → Prog Op Res γ) :
    (p.bind f).bind g = p.bind fun a => (f a).bind g := by
  induction p with
  | ret a => rfl
  | op o k ih =>
    simp only [op_bind]
    exact congrArg (op o) (funext ih)
  | cut => rfl

/-! ### Evaluation against a handler -/

/-- Run a program on a machine state; a handler that gives no answer blocks the run. -/
def eval (h : (o : Op) → σ → Option (Res o) × σ) : Prog Op Res α → σ → Option α × σ
  | .ret a, s => (some a, s)
  | .cut, s => (none, s)
  | .op o k, s =>
    match h o s with
    | (some r, s') => (k r).eval h s'
    | (none, s') => (none, s')

def calls (h : (o : Op) → σ → Option (Res o) × σ) : Prog Op Res α → σ → List (Op × σ)
  | .ret _, _ => []
  | .cut, _ => []
  | .op o k, s => (o, s) ::
    match h o s with
    | (some r, s') => (k r).calls h s'
    | (none, _) => []

variable {h : (o : Op) → σ → Option (Res o) × σ}

theorem eval_op_some {o : Op} {k : Res o → Prog Op Res α} {s s' : σ} {r : Res o}
    (hr : h o s = (some r, s')) : (op o k).eval h s = (k r).eval h s' := by
  simp [eval, hr]

theorem eval_op_none {o : Op} {k : Res o → Prog Op Res α} {s s' : σ}
    (hr : h o s = (none, s')) : (op o k).eval h s = (none, s') := by
  simp [eval, hr]

theorem eval_bind (p : Prog Op Res α) (f : α → Prog Op Res β) (s : σ) :
    (p.bind f).eval h s = match p.eval h s with
      | (some a, s') => (f a).eval h s'
      | (none, s') => (none, s') := by
  induction p generalizing s with
  | ret a => rfl
  | cut => rfl
  | op o k ih =>
    rcases hr : h o s with ⟨_ | r, s'⟩
    · simp [eval_op_none hr]
    · simp only [op_bind, eval_op_some hr, ih]

/-- A program on machine states that are seen through `f`. -/
theorem eval_map {h' : (o : Op) → τ → Option (Res o) × τ} {f : σ → τ}
    (hf : ∀ o s, h' o (f s) = ((h o s).1, f (h o s).2)) (p : Prog Op Res α) (s : σ) :
    p.eval h' (f s) = ((p.eval h s).1, f (p.eval h s).2) := by
  induction p generalizing s with
  | ret a => rfl
  | cut => rfl
  | op o k ih =>
    have hmap := hf o s
    rcases hr : h o s with ⟨_ | r, s'⟩
    · rw [hr] at hmap
      rw [eval_op_none hr, eval_op_none hmap]
    · rw [hr] at hmap
      rw [eval_op_some hr, eval_op_some hmap]
      exact ih r s'

/-- What every operation keeps, the program keeps. -/
theorem eval_invariant {J : σ → Prop} (hJ : ∀ o s, J s → J (h o s).2) (p : Prog Op Res α) {s : σ}
    (hs : J s) : J (p.eval h s).2 := by
  induction p generalizing s with
  | ret a => exact hs
  | cut => exact hs
  | op o k ih =>
    have hkeeps := hJ o s hs
    rcases hr : h o s with ⟨_ | r, s'⟩
    · rw [eval_op_none hr]
      rwa [hr] at hkeeps
    · rw [eval_op_some hr]
      rw [hr] at hkeeps
      exact ih r hkeeps

/-! ### Operations a program may issue -/

def Only (P : Op → Prop) : Prog Op Res α → Prop
  | .ret _ => True
  | .cut => True
  | .op o k => P o ∧ ∀ r, (k r).Only P

theorem Only.bind {P : Op → Prop} {p : Prog Op Res α} {f : α → Prog Op Res β}
    (hp : p.Only P) (hf : ∀ a, (f a).Only P) : (p.bind f).Only P := by
  induction p with
  | ret a => exact hf a
  | cut => trivial
  | op o k ih => exact ⟨hp.1, fun r => ih r (hp.2 r)⟩

theorem Only.loop {P : Op → Prop} {body : α → Prog Op Res (α ⊕ β)}
    (hb : ∀ a, (body a).Only P) (n : ℕ) (a : α) : (Prog.loop body n a).Only P := by
  induction n generalizing a with
  | zero => trivial
  | succ n ih =>
    refine (hb a).bind fun x => ?_
    cases x with
    | inl a' => exact ih a'
    | inr b => trivial

theorem Only.mono {P R : Op → Prop} {p : Prog Op Res α} (hPR : ∀ o, P o → R o)
    (hp : p.Only P) : p.Only R := by
  induction p with
  | ret a => trivial
  | cut => trivial
  | op o k ih => exact ⟨hPR o hp.1, fun r => ih r (hp.2 r)⟩

theorem only_of_forall {P : Op → Prop} (hP : ∀ o, P o) (p : Prog Op Res α) : p.Only P := by
  induction p with
  | ret a => trivial
  | cut => trivial
  | op o k ih => exact ⟨hP o, ih⟩

/-- Whatever it is answered, the program returns a value in `Q`. -/
def Ensures (Q : α → Prop) : Prog Op Res α → Prop
  | .ret a => Q a
  | .cut => True
  | .op _ k => ∀ r, (k r).Ensures Q

theorem Ensures.bind {Q : α → Prop} {R : β → Prop} {p : Prog Op Res α}
    {f : α → Prog Op Res β} (hp : p.Ensures Q) (hf : ∀ a, Q a → (f a).Ensures R) :
    (p.bind f).Ensures R := by
  induction p with
  | ret a => exact hf a hp
  | cut => trivial
  | op o k ih => exact fun r => ih r (hp r)

theorem Only.bind_ensures {P : Op → Prop} {Q : α → Prop} {p : Prog Op Res α}
    {f : α → Prog Op Res β} (hp : p.Only P) (hq : p.Ensures Q) (hf : ∀ a, Q a → (f a).Only P) :
    (p.bind f).Only P := by
  induction p with
  | ret a => exact hf a hq
  | cut => trivial
  | op o k ih => exact ⟨hp.1, fun r => ih r (hp.2 r) (hq r)⟩

theorem Ensures.loop {body : α → Prog Op Res (α ⊕ β)} {J : α → Prop} {Q : β → Prop}
    (hb : ∀ a, J a → (body a).Ensures (Sum.elim J Q)) (n : ℕ) {a : α} (ha : J a) :
    (Prog.loop body n a).Ensures Q := by
  induction n generalizing a with
  | zero => trivial
  | succ n ih =>
    refine (hb a ha).bind fun x hx => ?_
    cases x with
    | inl a' => exact ih hx
    | inr b => exact hx

theorem Ensures.eval {Q : α → Prop} {p : Prog Op Res α} (hp : p.Ensures Q) {s s' : σ} {a : α}
    (he : p.eval h s = (some a, s')) : Q a := by
  induction p generalizing s with
  | ret b =>
    simp only [Prog.eval, Prod.mk.injEq, Option.some.injEq] at he
    exact he.1 ▸ hp
  | cut => simp [Prog.eval] at he
  | op o k ih =>
    rcases hr : h o s with ⟨_ | r, s₁⟩
    · simp [eval_op_none hr] at he
    · exact ih r (hp r) (by rwa [eval_op_some hr] at he)

/-- Whatever it is answered, the program returns: no loop is cut. -/
def Finishes : Prog Op Res α → Prop
  | .ret _ => True
  | .cut => False
  | .op _ k => ∀ r, (k r).Finishes

theorem Finishes.bind {Q : α → Prop} {p : Prog Op Res α} {f : α → Prog Op Res β}
    (hp : p.Finishes) (hq : p.Ensures Q) (hf : ∀ a, Q a → (f a).Finishes) :
    (p.bind f).Finishes := by
  induction p with
  | ret a => exact hf a hq
  | cut => exact hp.elim
  | op o k ih => exact fun r => ih r (hp r) (hq r)

theorem ensures_trivial (p : Prog Op Res α) : p.Ensures fun _ => True := by
  induction p with
  | ret a => trivial
  | cut => trivial
  | op o k ih => exact fun r => ih r

theorem Finishes.then {p : Prog Op Res α} {f : α → Prog Op Res β} (hp : p.Finishes)
    (hf : ∀ a, (f a).Finishes) : (p.bind f).Finishes :=
  hp.bind p.ensures_trivial fun a _ => hf a

end Prog

/-! ### Programs in an environment that also moves by itself -/

/-- The answers an environment may give to an operation, and the moves it makes between
two operations of the program. -/
structure Env (Op : Type) (Res : Op → Type) (σ : Type) where
  answer : (o : Op) → σ → Res o → σ → Prop
  drift : σ → σ → Prop

namespace Env

inductive Step (E : Env Op Res σ) : Prog Op Res α × σ → Prog Op Res α × σ → Prop
  | answer {o : Op} {k : Res o → Prog Op Res α} {s s' : σ} {r : Res o}
      (ha : E.answer o s r s') : Step E (.op o k, s) (k r, s')
  | drift {p : Prog Op Res α} {s s' : σ} (hd : E.drift s s') : Step E (p, s) (p, s')

def Reaches (E : Env Op Res σ) : Prog Op Res α × σ → Prog Op Res α × σ → Prop :=
  Relation.ReflTransGen E.Step

/-- Every step of an environment is one of another, seen through `f`. -/
structure Simulates (E : Env Op Res σ) (E' : Env Op Res τ) (f : σ → τ) : Prop where
  answer : ∀ o s r s', E.answer o s r s' → E'.answer o (f s) r (f s')
  drift : ∀ s s', E.drift s s' → Relation.ReflTransGen E'.drift (f s) (f s')

theorem Simulates.reaches {E : Env Op Res σ} {E' : Env Op Res τ} {f : σ → τ}
    (h : E.Simulates E' f) {c c' : Prog Op Res α × σ} (hc : E.Reaches c c') :
    E'.Reaches (c.1, f c.2) (c'.1, f c'.2) := by
  induction hc with
  | refl => exact .refl
  | tail _ hstep ih =>
    cases hstep with
    | answer ha => exact ih.tail (.answer (h.answer _ _ _ _ ha))
    | drift hd => exact ih.trans ((h.drift _ _ hd).lift _ fun _ _ => .drift)

end Env

/-- Whatever the environment does, the state satisfies `I` after every answer, and `Q`
holds where the program returns. -/
def Prog.Safe (E : Env Op Res σ) (I : σ → Prop) :
    Prog Op Res α → (α → σ → Prop) → σ → Prop
  | .ret a, Q, s => Q a s
  | .cut, _, _ => True
  | .op o k, Q, s => ∀ s₁, Relation.ReflTransGen E.drift s s₁ →
      ∀ r s₂, E.answer o s₁ r s₂ → I s₂ ∧ (k r).Safe E I Q s₂

namespace Prog

variable {E : Env Op Res σ} {I : σ → Prop}

theorem Safe.mono {p : Prog Op Res α} {Q R : α → σ → Prop} {s : σ}
    (hp : p.Safe E I Q s) (hQR : ∀ a s, Q a s → R a s) : p.Safe E I R s := by
  induction p generalizing s with
  | ret a => exact hQR a s hp
  | cut => trivial
  | op o k ih =>
    intro s₁ hd r s₂ ha
    obtain ⟨hI, hk⟩ := hp s₁ hd r s₂ ha
    exact ⟨hI, ih r hk⟩

theorem Safe.bind {p : Prog Op Res α} {f : α → Prog Op Res β} {Q : α → σ → Prop}
    {R : β → σ → Prop} {s : σ} (hp : p.Safe E I Q s)
    (hf : ∀ a s, Q a s → (f a).Safe E I R s) : (p.bind f).Safe E I R s := by
  induction p generalizing s with
  | ret a => exact hf a s hp
  | cut => trivial
  | op o k ih =>
    intro s₁ hd r s₂ ha
    obtain ⟨hI, hk⟩ := hp s₁ hd r s₂ ha
    exact ⟨hI, ih r hk⟩

/-- Two specifications of one program hold together. -/
theorem Safe.and {I' : σ → Prop} {p : Prog Op Res α} {Q R : α → σ → Prop} {s : σ}
    (hp : p.Safe E I Q s) (hp' : p.Safe E I' R s) : p.Safe E I (fun a s' => Q a s' ∧ R a s') s := by
  induction p generalizing s with
  | ret a => exact ⟨hp, hp'⟩
  | cut => trivial
  | op o k ih =>
    intro s₁ hd r s₂ ha
    obtain ⟨hI, hk⟩ := hp s₁ hd r s₂ ha
    obtain ⟨-, hk'⟩ := hp' s₁ hd r s₂ ha
    exact ⟨hI, ih r hk hk'⟩

/-- The invariant rule for loops: a body that restores `J` keeps it for any bound. -/
theorem Safe.loop {body : α → Prog Op Res (α ⊕ β)} {J : α → σ → Prop} {Q : β → σ → Prop}
    (hb : ∀ a s, J a s → (body a).Safe E I
      (fun x s' => match x with | .inl a' => J a' s' | .inr b => Q b s') s)
    (n : ℕ) {a : α} {s : σ} (ha : J a s) : (Prog.loop body n a).Safe E I Q s := by
  induction n generalizing a s with
  | zero => trivial
  | succ n ih =>
    refine (hb a s ha).bind fun x s' hx => ?_
    cases x with
    | inl a' => exact ih hx
    | inr b => exact hx

theorem drift_invariant {J : σ → Prop} (hd : ∀ s s', J s → E.drift s s' → J s') {s s' : σ}
    (h : Relation.ReflTransGen E.drift s s') (hs : J s) : J s' := by
  induction h with
  | refl => exact hs
  | tail _ hstep ih => exact hd _ _ ih hstep

/-- An operation of a program that knows `J`, which the moves of the environment keep. -/
theorem safe_op {J : σ → Prop} {o : Op} {k : Res o → Prog Op Res α} {Q : α → σ → Prop} {s : σ}
    (hJ : J s) (hd : ∀ s s', J s → E.drift s s' → J s')
    (hk : ∀ s₁, J s₁ → ∀ r s₂, E.answer o s₁ r s₂ → I s₂ ∧ (k r).Safe E I Q s₂) :
    (op o k).Safe E I Q s := by
  intro s₁ hdrift r s₂ ha
  exact hk s₁ (drift_invariant hd hdrift hJ) r s₂ ha

/-- What a program returns whatever it is answered, beside what it promises here. -/
theorem Safe.ensures {p : Prog Op Res α} {Q : α → σ → Prop} {R : α → Prop} {s : σ}
    (hp : p.Safe E I Q s) (hr : p.Ensures R) : p.Safe E I (fun a s' => R a ∧ Q a s') s := by
  induction p generalizing s with
  | ret a => exact ⟨hr, hp⟩
  | cut => trivial
  | op o k ih =>
    intro s₁ hd r s₂ ha
    obtain ⟨hI, hk⟩ := hp s₁ hd r s₂ ha
    exact ⟨hI, ih r hk (hr r)⟩

theorem Only.safe {P : Op → Prop} {J : σ → Prop} {p : Prog Op Res α}
    (hp : p.Only P) (hJI : ∀ s, J s → I s)
    (hd : ∀ s s', J s → E.drift s s' → J s')
    (ha : ∀ o, P o → ∀ s r s', J s → E.answer o s r s' → J s')
    {s : σ} (hs : J s) : p.Safe E I (fun _ => J) s := by
  induction p generalizing s with
  | ret a => exact hs
  | cut => trivial
  | op o k ih =>
    intro s₁ hdr r s₂ hans
    have h₂ : J s₂ := ha o hp.1 s₁ r s₂ (drift_invariant hd hdr hs) hans
    exact ⟨hJI s₂ h₂, ih r (hp.2 r) h₂⟩

theorem Only.safe_ensures {P : Op → Prop} {J : σ → Prop} {R : α → Prop} {p : Prog Op Res α}
    (hp : p.Only P) (hr : p.Ensures R) (hJI : ∀ s, J s → I s)
    (hd : ∀ s s', J s → E.drift s s' → J s')
    (ha : ∀ o, P o → ∀ s r s', J s → E.answer o s r s' → J s')
    {s : σ} (hs : J s) : p.Safe E I (fun a s' => R a ∧ J s') s :=
  (hp.safe hJI hd ha hs).ensures hr

/-- A safe program keeps the invariant in every configuration it reaches, provided that
the moves of the environment keep it. -/
theorem Safe.reaches {p : Prog Op Res α} {Q : α → σ → Prop} {s : σ}
    (hp : p.Safe E I Q s) (hs : I s) (hd : ∀ s s', I s → E.drift s s' → I s')
    {c : Prog Op Res α × σ} (hc : E.Reaches (p, s) c) : I c.2 := by
  suffices h : I c.2 ∧ ∃ s₀, Relation.ReflTransGen E.drift s₀ c.2 ∧ c.1.Safe E I Q s₀ from h.1
  induction hc with
  | refl => exact ⟨hs, s, .refl, hp⟩
  | tail _ hstep ih =>
    obtain ⟨hI, s₀, hdr, hsafe⟩ := ih
    cases hstep with
    | answer ha =>
      obtain ⟨hI', hk⟩ := hsafe _ hdr _ _ ha
      exact ⟨hI', _, .refl, hk⟩
    | drift hmove => exact ⟨hd _ _ hI hmove, s₀, hdr.tail hmove, hsafe⟩

end Prog

end Ritex.Interaction
