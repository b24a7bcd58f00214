import Mathlib

/-! A table of values and the log of its changes: every entry names the value that it replaces, so
that the entries of one key lead from the first value to the last. -/
namespace Ritex.ChangeLog

structure Change (κ ν : Type*) where
  key : κ
  oldValue : ν
  newValue : ν

variable {κ ν : Type*}

/-- Every entry starts where the one before it ended. -/
inductive Chain : ν → List (Change κ ν) → ν → Prop
  | nil (v : ν) : Chain v [] v
  | cons (c : Change κ ν) {log : List (Change κ ν)} {v : ν} (h : Chain c.newValue log v) :
      Chain c.oldValue (c :: log) v

theorem Chain.append {u v w : ν} {log log' : List (Change κ ν)} (h : Chain u log v)
    (h' : Chain v log' w) : Chain u (log ++ log') w := by
  induction h with
  | nil v => exact h'
  | cons c _ ih => exact .cons c (ih h')

variable [DecidableEq κ]

def ofKey (k : κ) (log : List (Change κ ν)) : List (Change κ ν) := log.filter fun c => c.key = k

theorem ofKey_append (k : κ) (log log' : List (Change κ ν)) :
    ofKey k (log ++ log') = ofKey k log ++ ofKey k log' :=
  List.filter_append _ _

/-- The log tells how every value of a table became that of another. -/
def Records (t : κ → ν) (log : List (Change κ ν)) (t' : κ → ν) : Prop :=
  ∀ k, Chain (t k) (ofKey k log) (t' k)

namespace Records

variable {t t' t'' : κ → ν} {log log' : List (Change κ ν)}

theorem refl (t : κ → ν) : Records t [] t := fun k => .nil (t k)

theorem trans (h : Records t log t') (h' : Records t' log' t'') : Records t (log ++ log') t'' := by
  intro k
  rw [ofKey_append]
  exact (h k).append (h' k)

theorem update (t : κ → ν) (k : κ) (v : ν) : Records t [⟨k, t k, v⟩] (Function.update t k v) := by
  intro k'
  by_cases hk : k = k'
  · subst hk
    rw [Function.update_self, ofKey, List.filter_singleton]
    simpa using Chain.cons ⟨k, t k, v⟩ (.nil v)
  · rw [Function.update_of_ne (Ne.symm hk), ofKey, List.filter_singleton]
    simpa [hk] using Chain.nil (t k')

end Records

end Ritex.ChangeLog
