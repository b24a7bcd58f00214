import Ritex.History

/-! The rounds of a loop one by one: what its body starts them with, what holds at the start of
every round, and that they are the rounds of the loop. -/
namespace Ritex.Interaction

variable {Op : Type} {Res : Op → Type} {α β γ M σ : Type}

namespace Env

variable {E : Env Op Res σ} {body : α → Prog Op Res (α ⊕ β)}

theorem Step.bind {p p' : Prog Op Res α} {s s' : σ} (h : E.Step (p, s) (p', s'))
    (f : α → Prog Op Res β) : E.Step (p.bind f, s) (p'.bind f, s') := by
  cases h with
  | answer ha => exact .answer ha
  | drift hd => exact .drift hd

theorem Reaches.bind {c c' : Prog Op Res α × σ} (h : E.Reaches c c') (f : α → Prog Op Res β) :
    E.Reaches (c.1.bind f, c.2) (c'.1.bind f, c'.2) := by
  induction h with
  | refl => exact Relation.ReflTransGen.refl
  | tail _ hstep ih => exact ih.tail (hstep.bind f)

/-- The body goes on with the second value. -/
def Round (E : Env Op Res σ) (body : α → Prog Op Res (α ⊕ β)) (c c' : α × σ) : Prop :=
  E.Reaches (body c.1, c.2) (.ret (.inl c'.1), c'.2)

inductive Rounds (E : Env Op Res σ) (body : α → Prog Op Res (α ⊕ β)) (c : α × σ) : ℕ → α × σ → Prop
  | start : Rounds E body c 0 c
  | next {n : ℕ} {c₁ c₂ : α × σ} (hrounds : Rounds E body c n c₁) (hround : E.Round body c₁ c₂) :
      Rounds E body c (n + 1) c₂

theorem Round.reaches {c c' : α × σ} (h : E.Round body c c') (n : ℕ) :
    E.Reaches (Prog.loop body (n + 1) c.1, c.2) (Prog.loop body n c'.1, c'.2) :=
  Reaches.bind h _

theorem Rounds.reaches {n : ℕ} {c c' : α × σ} (h : E.Rounds body c n c') (m : ℕ) :
    E.Reaches (Prog.loop body (n + m) c.1, c.2) (Prog.loop body m c'.1, c'.2) := by
  induction h generalizing m with
  | start =>
    rw [Nat.zero_add]
    exact Relation.ReflTransGen.refl
  | @next n c₁ c₂ _ hround ih =>
    have h := ih (m + 1)
    rw [← Nat.add_assoc, Nat.add_right_comm] at h
    exact h.trans (hround.reaches m)

theorem Rounds.reaches_body {n : ℕ} {c c' : α × σ} (h : E.Rounds body c n c') (m : ℕ)
    (f : β → Prog Op Res γ) : ∃ rest : α ⊕ β → Prog Op Res γ,
      E.Reaches ((Prog.loop body (n + m + 1) c.1).bind f, c.2) ((body c'.1).bind rest, c'.2) := by
  have hrest := (h.reaches (m + 1)).bind f
  rw [Prog.loop, Prog.bind_assoc] at hrest
  exact ⟨_, hrest⟩

end Env

namespace Prog

theorem Ensures.mono {Q R : α → Prop} {p : Prog Op Res α} (hp : p.Ensures Q)
    (hQR : ∀ a, Q a → R a) : p.Ensures R := by
  induction p with
  | ret a => exact hQR a hp
  | cut => trivial
  | op o k ih => exact fun r => ih r (hp r)

variable {E : Env Op Res σ} {I : σ → Prop}

/-- What a safe program promises on its result, the moves after it aside. -/
theorem Safe.returns {p : Prog Op Res α} {Q : α → σ → Prop} {s s' : σ} {a : α}
    (hp : p.Safe E I Q s) (hQ : ∀ s s', Q a s → E.drift s s' → Q a s')
    (h : E.Reaches (p, s) (.ret a, s')) : Q a s' := by
  suffices hsuff : ∀ c, E.Reaches (p, s) c →
      ∃ s₀, Relation.ReflTransGen E.drift s₀ c.2 ∧ c.1.Safe E I Q s₀ by
    obtain ⟨s₀, hdrift, hsafe⟩ := hsuff _ h
    exact drift_invariant hQ hdrift hsafe
  intro c hc
  induction hc with
  | refl => exact ⟨s, .refl, hp⟩
  | tail _ hstep ih =>
    obtain ⟨s₀, hdrift, hsafe⟩ := ih
    cases hstep with
    | answer ha => exact ⟨_, .refl, (hsafe _ hdrift _ _ ha).2⟩
    | drift hd => exact ⟨s₀, hdrift.tail hd, hsafe⟩

/-- The invariant rule for the starts of the rounds. -/
theorem Safe.rounds {body : α → Prog Op Res (α ⊕ β)} {J : α → σ → Prop}
    (hbody : ∀ a s, J a s → (body a).Safe E I (fun x s' => ∀ a', x = .inl a' → J a' s') s)
    (hJ : ∀ a s s', J a s → E.drift s s' → J a s') {n : ℕ} {c c' : α × σ} (hc : J c.1 c.2)
    (h : E.Rounds body c n c') : J c'.1 c'.2 := by
  induction h with
  | start => exact hc
  | @next n c₁ c₂ _ hround ih =>
    refine (hbody c₁.1 c₁.2 ih).returns (fun s s' hQ hd a' ha' => ?_) hround c₂.1 rfl
    exact hJ a' s s' (hQ a' ha') hd

/-- A script after which the program and the state pass a test. -/
theorem exists_reaches_of_replay_test [DecidableEq Op] (next : (o : Op) → σ → Res o → Option σ)
    (move : M → σ → Option σ) (ts : List (Turn Op Res M)) {c : Prog Op Res α × σ}
    (f : Prog Op Res α → σ → Bool) (h : (replay next move ts c).any (fun c => f c.1 c.2) = true) :
    ∃ p s, (Env.ofSteps next move).Reaches c (p, s) ∧ f p s = true := by
  obtain ⟨⟨p, s⟩, hreplay, hf⟩ := (Option.any_eq_true _ _).mp h
  exact ⟨p, s, reaches_of_replay ts hreplay, hf⟩

end Prog

end Ritex.Interaction
