import Mathlib

/-! A table that keeps for every key the first of the items with the greatest value. -/
namespace Ritex.NewestPerKey

variable {α κ δ : Type} [LinearOrder δ] {f : α → δ}

variable [DecidableEq κ] (key : α → κ) (f : α → δ)

/-- What the table holds after the items. -/
def newest (items : List α) (k : κ) : Option α := (items.filter fun item => key item = k).argmax f

/-- The item takes the place of an item with a smaller value. -/
def put (held : κ → Option α) (item : α) : κ → Option α :=
  if (held (key item)).all (fun old => decide (f old < f item)) then
    Function.update held (key item) (some item)
  else held

variable {held : κ → Option α} {item : α}

end Ritex.NewestPerKey
