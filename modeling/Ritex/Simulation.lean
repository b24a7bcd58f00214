import Mathlib

/-! Machines that take a script turn by turn, and what carries over from one machine to another
that takes the same script. -/
namespace Ritex.Transition

variable {σ ρ τ : Type}

/-- The machine takes all turns of the script. -/
def takes (next : σ → τ → Option σ) : List τ → σ → Option σ
  | [], s => some s
  | t :: ts, s => (next s t).bind (takes next ts)

theorem takes_cons {next : σ → τ → Option σ} {t : τ} {ts : List τ} {s s' : σ} :
    takes next (t :: ts) s = some s' ↔ ∃ s₁, next s t = some s₁ ∧ takes next ts s₁ = some s' := by
  rw [takes, Option.bind_eq_some_iff]

/-- A machine follows another one if it follows every turn; the relation knows what is left of
the script. -/
theorem takes_of_follows {next : σ → τ → Option σ} {next' : ρ → τ → Option ρ}
    {R : List τ → σ → ρ → Prop}
    (hstep : ∀ t ts s r r', R (t :: ts) s r → next' r t = some r' →
      ∃ s', next s t = some s' ∧ R ts s' r')
    {ts : List τ} {s : σ} {r r' : ρ} (hR : R ts s r) (h : takes next' ts r = some r') :
    ∃ s', takes next ts s = some s' ∧ R [] s' r' := by
  induction ts generalizing s r with
  | nil =>
    cases h
    exact ⟨s, rfl, hR⟩
  | cons t ts ih =>
    obtain ⟨r₁, hr₁, hrest⟩ := takes_cons.mp h
    obtain ⟨s₁, hs₁, hR₁⟩ := hstep t ts s r r₁ hR hr₁
    obtain ⟨s', hs', hR'⟩ := ih hR₁ hrest
    exact ⟨s', takes_cons.mpr ⟨s₁, hs₁, hs'⟩, hR'⟩

end Ritex.Transition
