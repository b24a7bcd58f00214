import Mathlib.Data.List.Basic

/-! Texts of lines of fields, and how they are taken apart again. -/
namespace DelimitedText

variable {α : Type}

/-- Every line ends with the mark. -/
def lines (mark : α) (ls : List (List α)) : List α := ls.flatMap (· ++ [mark])

/-- The mark stands between the fields. -/
def fields (mark : α) (ls : List (List α)) : List α := [mark].intercalate ls

theorem lines_eq (mark : α) (ls : List (List α)) : lines mark ls = fields mark (ls ++ [[]]) := by
  induction ls with
  | nil => rfl
  | cons l ls ih =>
    have hcons : fields mark (l :: (ls ++ [[]])) = l ++ [mark] ++ fields mark (ls ++ [[]]) := by
      cases ls <;> simp [fields, List.intercalate]
    rw [List.cons_append, hcons, ← ih]
    rfl

/-- No line mark gets in by the field marks. -/
theorem not_mem_fields {x mark : α} (hx : x ≠ mark) {ls : List (List α)} (h : ∀ l ∈ ls, x ∉ l) :
    x ∉ fields mark ls := by
  unfold fields
  induction ls with
  | nil => simp
  | cons l ls ih =>
    obtain ⟨hl, hls⟩ := List.forall_mem_cons.mp h
    cases ls with
    | nil => simpa [List.intercalate] using hl
    | cons l' ls =>
      have hrest := ih hls
      simp only [List.intercalate, List.intersperse_cons_cons, List.flatten_cons,
        List.mem_append, List.mem_singleton] at hrest ⊢
      tauto

section Reading

variable [BEq α] [LawfulBEq α]

def readLines (mark : α) (s : List α) : List (List α) := (s.splitOn mark).dropLast

/-- What stands before the first mark, and behind it. -/
def cut (mark : α) (s : List α) : List α × List α :=
  (s.takeWhile (· != mark), (s.dropWhile (· != mark)).tail)

theorem readLines_lines {mark : α} {ls : List (List α)} (h : ∀ l ∈ ls, mark ∉ l) :
    readLines mark (lines mark ls) = ls := by
  rw [readLines, lines_eq, fields, List.splitOn_intercalate mark ?_ (by simp),
    List.dropLast_concat]
  intro l hl
  rcases List.mem_append.mp hl with hl | hl
  · exact h l hl
  · rw [List.mem_singleton.mp hl]
    exact List.not_mem_nil

theorem splitOn_fields {mark : α} {ls : List (List α)} (h : ∀ l ∈ ls, mark ∉ l) (hne : ls ≠ []) :
    (fields mark ls).splitOn mark = ls :=
  List.splitOn_intercalate mark h hne

theorem cut_append {mark : α} {before : List α} (h : mark ∉ before) (behind : List α) :
    cut mark (before ++ mark :: behind) = (before, behind) := by
  have hbefore : ∀ c ∈ before, (c != mark) = true := fun c hc =>
    bne_iff_ne.mpr fun heq => h (heq ▸ hc)
  rw [cut, List.takeWhile_append_of_pos hbefore, List.dropWhile_append_of_pos hbefore,
    List.takeWhile_cons_of_neg (by simp), List.dropWhile_cons_of_neg (by simp)]
  simp

end Reading

end DelimitedText
