import Ritex.History

/-! What a program guarantees of a state that follows its operations, if the answers are such as it
relies on. -/
namespace Ritex.Interaction

variable {Op : Type} {Res : Op → Type} {α β S : Type}

structure RelyGuarantee (Op : Type) (Res : Op → Type) (S : Type) where
  next : S → Event Op Res → S
  relies : S → Event Op Res → Prop
  guarantees : S → Prop

namespace Prog

variable {G : RelyGuarantee Op Res S}

/-- Every state that a relied-on answer leads to is guaranteed, and `Q` holds where the program
returns. -/
def Meets (G : RelyGuarantee Op Res S) : Prog Op Res α → (α → S → Prop) → S → Prop
  | .ret a, Q, s => Q a s
  | .cut, _, _ => True
  | .op o k, Q, s => ∀ r, G.relies s ⟨o, r⟩ →
      G.guarantees (G.next s ⟨o, r⟩) ∧ (k r).Meets G Q (G.next s ⟨o, r⟩)

theorem Meets.mono {p : Prog Op Res α} {Q R : α → S → Prop} {s : S} (hp : p.Meets G Q s)
    (hQR : ∀ a s, Q a s → R a s) : p.Meets G R s := by
  induction p generalizing s with
  | ret a => exact hQR a s hp
  | cut => trivial
  | op o k ih => exact fun r hr => ⟨(hp r hr).1, ih r (hp r hr).2⟩

theorem Meets.bind {p : Prog Op Res α} {f : α → Prog Op Res β} {Q : α → S → Prop}
    {R : β → S → Prop} {s : S} (hp : p.Meets G Q s) (hf : ∀ a s, Q a s → (f a).Meets G R s) :
    (p.bind f).Meets G R s := by
  induction p generalizing s with
  | ret a => exact hf a s hp
  | cut => trivial
  | op o k ih => exact fun r hr => ⟨(hp r hr).1, ih r (hp r hr).2⟩

/-- The invariant rule for loops. -/
theorem Meets.loop {body : α → Prog Op Res (α ⊕ β)} {J : α → S → Prop} {Q : β → S → Prop}
    (hbody : ∀ a s, J a s → (body a).Meets G (fun x s' => Sum.elim (J · s') (Q · s') x) s)
    (n : ℕ) {a : α} {s : S} (ha : J a s) : (Prog.loop body n a).Meets G Q s := by
  induction n generalizing a s with
  | zero => trivial
  | succ n ih =>
    refine (hbody a s ha).bind fun x s' hx => ?_
    cases x with
    | inl a' => exact ih hx
    | inr b => exact hx

/-- A program of operations that keep `J`. -/
theorem Only.meets {P : Op → Prop} {J : S → Prop} {R : α → Prop} {p : Prog Op Res α}
    (hp : p.Only P) (hr : p.Ensures R) (hJG : ∀ s, J s → G.guarantees s)
    (hJ : ∀ o, P o → ∀ s, J s → ∀ r, G.relies s ⟨o, r⟩ → J (G.next s ⟨o, r⟩)) {s : S} (hs : J s) :
    p.Meets G (fun a s' => R a ∧ J s') s := by
  induction p generalizing s with
  | ret a => exact ⟨hr, hs⟩
  | cut => trivial
  | op o k ih =>
    intro r hrely
    have hs' := hJ o hp.1 s hs r hrely
    exact ⟨hJG _ hs', ih r (hp.2 r) (hr r) hs'⟩

end Prog

/-- What a program guarantees whatever the answers holds along every history. -/
theorem Prog.Meets.safe_history {G : RelyGuarantee Op Res S} {p : Prog Op Res α} {Q : α → S → Prop}
    {s : S} {h : List (Event Op Res)} (hp : p.Meets G Q (h.foldl G.next s))
    (hrely : ∀ s e, G.relies s e) : p.Safe (historyEnv Op Res)
      (fun h' => G.guarantees (h'.foldl G.next s)) (fun a h' => Q a (h'.foldl G.next s)) h := by
  induction p generalizing h with
  | ret a => exact hp
  | cut => trivial
  | op o k ih =>
    refine Prog.safe_history_op fun r => ?_
    obtain ⟨hguarantee, hmeets⟩ := hp r (hrely _ _)
    have hsnoc : (h ++ [(⟨o, r⟩ : Event Op Res)]).foldl G.next s =
        G.next (h.foldl G.next s) ⟨o, r⟩ := by
      rw [List.foldl_append]
      rfl
    rw [hsnoc]
    exact ⟨hguarantee, ih r (hsnoc ▸ hmeets)⟩

/-! ### Whole runs -/

theorem monitored_snoc {ε τ : Type} {f : τ → ε → τ} {P : τ → ε → Prop} {t : τ} {log : List ε} {e : ε} :
    Monitored f P t (log ++ [e]) ↔ Monitored f P t log ∧ P (log.foldl f t) e := by
  induction log generalizing t with
  | nil => simp [Monitored]
  | cons first log ih => simp only [List.cons_append, Monitored, ih, List.foldl_cons, and_assoc]

theorem monitored_of_forall {ε τ : Type} {f : τ → ε → τ} {P : τ → ε → Prop} (hP : ∀ t e, P t e) (t : τ)
    (log : List ε) : Monitored f P t log := by
  induction log generalizing t with
  | nil => trivial
  | cons e log ih => exact ⟨hP t e, ih (f t e)⟩

/-- A run in which all answers are relied on keeps the guarantee. -/
theorem Prog.Meets.reaches {G : RelyGuarantee Op Res S} {p : Prog Op Res α} {Q : α → S → Prop} {s : S}
    (hp : p.Meets G Q s) (hs : G.guarantees s) {c : Prog Op Res α × List (Event Op Res)}
    (hc : (historyEnv Op Res).Reaches (p, []) c) (hrely : Monitored G.next G.relies s c.2) :
    G.guarantees (c.2.foldl G.next s) := by
  suffices hsuff : G.guarantees (c.2.foldl G.next s) ∧ c.1.Meets G Q (c.2.foldl G.next s) from hsuff.1
  induction hc with
  | refl => exact ⟨hs, hp⟩
  | tail _ hstep ih =>
    cases hstep with
    | drift hd => exact (historyEnv_drift hd).elim
    | @answer o k h h' r ha =>
      cases ha
      obtain ⟨hbefore, hlast⟩ := monitored_snoc.mp hrely
      obtain ⟨-, hmeets⟩ := ih hbefore
      rw [List.foldl_append]
      exact hmeets r hlast

end Ritex.Interaction
