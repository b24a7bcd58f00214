import Ritex.Interaction

/-! Operations that stand for programs: a program whose operations are calls becomes one that does
what is called, and its runs are those against a handler that runs every call. -/
namespace Ritex.Interaction.Prog

variable {Op Op' : Type} {Res : Op → Type} {Res' : Op' → Type} {α β σ : Type}

def expand (f : (o : Op) → Prog Op' Res' (Res o)) : Prog Op Res α → Prog Op' Res' α
  | .ret a => .ret a
  | .op o k => (f o).bind fun r => (k r).expand f
  | .cut => .cut

variable (f : (o : Op) → Prog Op' Res' (Res o))

theorem expand_bind (p : Prog Op Res α) (g : α → Prog Op Res β) :
    (p.bind g).expand f = (p.expand f).bind fun a => (g a).expand f := by
  induction p with
  | ret a => rfl
  | cut => rfl
  | op o k ih =>
    rw [op_bind, expand, expand, bind_assoc]
    exact congrArg _ (funext ih)

theorem eval_expand (h : (o : Op') → σ → Option (Res' o) × σ) (p : Prog Op Res α) (s : σ) :
    (p.expand f).eval h s = p.eval (fun o s => (f o).eval h s) s := by
  induction p generalizing s with
  | ret a => rfl
  | cut => rfl
  | op o k ih =>
    rw [expand, eval_bind, eval]
    rcases (f o).eval h s with ⟨_ | r, s'⟩
    · rfl
    · exact ih r s'

/-- Calls of single operations, expanded to what they call. -/
theorem expand_expand_perform {Op'' : Type} {Res'' : Op'' → Type}
    {g : (o : Op') → Prog Op'' Res'' (Res' o)} {h : (o : Op) → Prog Op'' Res'' (Res o)}
    (hgh : ∀ o, (f o).expand g = h o) (p : Prog Op Res α) : (p.expand f).expand g = p.expand h := by
  induction p with
  | ret a => rfl
  | cut => rfl
  | op o k ih =>
    rw [expand, expand_bind, hgh, expand]
    exact congrArg _ (funext ih)

theorem expand_perform (p : Prog Op Res α) : p.expand perform = p := by
  induction p with
  | ret a => rfl
  | cut => rfl
  | op o k ih =>
    rw [expand, perform_bind]
    exact congrArg _ (funext ih)

end Ritex.Interaction.Prog
