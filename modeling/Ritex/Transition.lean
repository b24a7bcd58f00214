import Mathlib

/-! Transition systems: a state type, the states a run starts in and a step relation. Runs whose
steps all meet a condition are the runs of the restricted system. -/
namespace Ritex.Transition

structure System (σ : Type) where
  init : σ → Prop
  step : σ → σ → Prop

variable {σ : Type}

namespace System

inductive Reachable (S : System σ) : σ → Prop
  | init {s : σ} : S.init s → Reachable S s
  | step {s s' : σ} : Reachable S s → S.step s s' → Reachable S s'

/-- Holds at the start and is kept by every step. -/
structure Invariant (S : System σ) (I : σ → Prop) : Prop where
  init : ∀ s, S.init s → I s
  step : ∀ s s', I s → S.step s s' → I s'

theorem Invariant.reachable {S : System σ} {I : σ → Prop} (h : S.Invariant I) {s : σ}
    (hs : S.Reachable s) : I s := by
  induction hs with
  | init hi => exact h.init _ hi
  | step _ hstep ih => exact h.step _ _ ih hstep

theorem Reachable.trans {S : System σ} {s s' : σ} (hs : S.Reachable s)
    (h : Relation.ReflTransGen S.step s s') : S.Reachable s' := by
  induction h with
  | refl => exact hs
  | tail _ hstep ih => exact ih.step hstep

end System

end Ritex.Transition
