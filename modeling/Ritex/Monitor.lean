import Mathlib

/-! Monitors: machines that look at items one after another and answer every one of them. What a
state says about the items before it explains the answers. -/
namespace Ritex.Monitor

variable {σ α β γ : Type*}

/-- The state behind the items, and the answer to each of them. -/
def run (step : σ → α → σ × β) (s : σ) : List α → σ × List β
  | [] => (s, [])
  | a :: items =>
    let (s', answer) := step s a
    let (s'', answers) := run step s' items
    (s'', answer :: answers)

theorem run_append (step : σ → α → σ × β) (s : σ) (items items' : List α) :
    run step s (items ++ items') =
      ((run step (run step s items).1 items').1,
        (run step s items).2 ++ (run step (run step s items).1 items').2) := by
  induction items generalizing s with
  | nil => rfl
  | cons a items ih => simp [run, ih]

theorem run_concat (step : σ → α → σ × β) (s : σ) (items : List α) (a : α) :
    run step s (items ++ [a]) =
      ((step (run step s items).1 a).1, (run step s items).2 ++ [(step (run step s items).1 a).2]) :=
  run_append step s items [a]

/-- `I` tells what a state knows of the items before it, and that is enough to give the answer. -/
structure Explains (step : σ → α → σ × β) (I : List α → σ → Prop) (answer : List α → α → β) :
    Prop where
  state : ∀ before s a, I before s → I (before ++ [a]) (step s a).1
  answer : ∀ before s a, I before s → (step s a).2 = answer before a

variable {step : σ → α → σ × β} {I : List α → σ → Prop} {answer : List α → α → β} {s : σ}

theorem Explains.run_state (h : Explains step I answer) (hs : I [] s) (items : List α) :
    I items (run step s items).1 := by
  induction items using List.reverseRecOn with
  | nil => exact hs
  | append_singleton items a ih =>
    rw [run_concat]
    exact h.state items _ a ih

theorem Explains.run_answers (h : Explains step I answer) (hs : I [] s) (items : List α) :
    (run step s items).2 = items.mapIdx fun i a => answer (items.take i) a := by
  induction items using List.reverseRecOn with
  | nil => rfl
  | append_singleton items a ih =>
    have hanswer : (step (run step s items).1 a).2 = answer items a :=
      h.answer items _ a (h.run_state hs items)
    have hbefore : (items.mapIdx fun i b => answer ((items ++ [a]).take i) b) =
        items.mapIdx fun i b => answer (items.take i) b := by
      rw [List.mapIdx_eq_mapIdx_iff]
      intro i hi
      rw [List.take_append_of_le_length (by omega)]
    rw [run_concat, List.mapIdx_concat, ih, hanswer, hbefore, List.take_left]

/-! ### The latest value -/

/-- The value of the last item that has one. -/
def latest (f : α → Option γ) (items : List α) : Option γ := (items.filterMap f).getLast?

variable (f : α → Option γ) (items : List α) (a : α)

@[simp] theorem latest_nil : latest f [] = none := rfl

theorem latest_concat : latest f (items ++ [a]) = (f a).or (latest f items) := by
  rw [latest, List.filterMap_append, List.getLast?_append]
  cases h : f a with
  | none => simp [h, latest]
  | some v => simp [h]

theorem latest_concat_some {f : α → Option γ} {a : α} {v : γ} (h : f a = some v) :
    latest f (items ++ [a]) = some v := by
  rw [latest_concat, h, Option.some_or]

theorem latest_concat_none {f : α → Option γ} {a : α} (h : f a = none) :
    latest f (items ++ [a]) = latest f items := by
  rw [latest_concat, h, Option.none_or]

end Ritex.Monitor
