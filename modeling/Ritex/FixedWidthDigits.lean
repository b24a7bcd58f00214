import Mathlib.Data.List.Lex
import Mathlib.Data.Nat.Digits.Defs
import Mathlib.Order.Interval.Set.Defs
import Mathlib.Order.Monotone.Defs

/-! Texts of numbers of fixed widths compare as the numbers do. -/
namespace FixedWidth

/-- The last `w` digits of `n` to base `b`, the highest one first. -/
def digits (b : ℕ) : ℕ → ℕ → List ℕ
  | 0, _ => []
  | w + 1, n => digits b w (n / b) ++ [n % b]

@[simp] theorem length_digits (b w n : ℕ) : (digits b w n).length = w := by
  induction w generalizing n with
  | zero => rfl
  | succ w ih => simp [digits, ih]

theorem digits_zero (b w : ℕ) : digits b w 0 = List.replicate w 0 := by
  induction w with
  | zero => rfl
  | succ w ih => simp [digits, ih, List.replicate_succ']

theorem digit_lt {b : ℕ} (hb : 0 < b) {w n d : ℕ} (h : d ∈ digits b w n) : d < b := by
  induction w generalizing n with
  | zero => simp [digits] at h
  | succ w ih =>
    rcases List.mem_append.mp h with hhigh | hlow
    · exact ih hhigh
    · rw [List.mem_singleton.mp hlow]
      exact Nat.mod_lt n hb

theorem div_lt_pow {b w n : ℕ} (h : n < b ^ (w + 1)) : n / b < b ^ w :=
  Nat.div_lt_of_lt_mul (by rwa [pow_succ'] at h)

section Lex

variable {α : Type} [LinearOrder α]

theorem append_lt_append_iff {as bs cs ds : List α} (h : as.length = bs.length) :
    as ++ cs < bs ++ ds ↔ as < bs ∨ as = bs ∧ cs < ds := by
  induction as generalizing bs with
  | nil =>
    have hbs : bs = [] := List.length_eq_zero_iff.mp h.symm
    simp [hbs]
  | cons a as ih =>
    cases bs with
    | nil => simp at h
    | cons b bs =>
      have hrest := ih (Nat.succ.inj h)
      simp only [List.cons_append, List.cons_lt_cons_iff, hrest, List.cons.injEq]
      tauto

end Lex

theorem digits_injOn (b w : ℕ) : Set.InjOn (digits b w) {n | n < b ^ w} := by
  induction w with
  | zero =>
    intro n hn m hm _
    rw [Set.mem_ofPred_eq, pow_zero] at hn hm
    omega
  | succ w ih =>
    intro n hn m hm h
    obtain ⟨hhigh, hlow⟩ := List.append_inj' h rfl
    have hdiv : n / b = m / b := ih (div_lt_pow hn) (div_lt_pow hm) hhigh
    have hmod : n % b = m % b := List.cons.inj hlow |>.1
    rw [← Nat.div_add_mod n b, hdiv, hmod, Nat.div_add_mod]

theorem lt_iff_div_mod (b n m : ℕ) :
    n < m ↔ n / b < m / b ∨ n / b = m / b ∧ n % b < m % b := by
  constructor
  · intro h
    rcases (Nat.div_le_div_right h.le : n / b ≤ m / b).lt_or_eq with hlt | heq
    · exact .inl hlt
    · have hn := Nat.div_add_mod n b
      have hm := Nat.div_add_mod m b
      rw [heq] at hn
      exact .inr ⟨heq, by omega⟩
  · rintro (hlt | ⟨heq, hlow⟩)
    · exact Nat.lt_of_div_lt_div hlt
    · rw [← Nat.div_add_mod n b, ← Nat.div_add_mod m b, heq]
      omega

theorem digits_lt_iff {b w n m : ℕ} (hn : n < b ^ w) (hm : m < b ^ w) :
    digits b w n < digits b w m ↔ n < m := by
  induction w generalizing n m with
  | zero =>
    rw [pow_zero] at hn hm
    have hnm : n = m := by omega
    simp [hnm]
  | succ w ih =>
    have hhigh := ih (div_lt_pow hn) (div_lt_pow hm)
    have hsame : digits b w (n / b) = digits b w (m / b) ↔ n / b = m / b :=
      (digits_injOn b w).eq_iff (div_lt_pow hn) (div_lt_pow hm)
    rw [digits, digits, append_lt_append_iff (by simp), hhigh, hsame, lt_iff_div_mod b n m]
    simp [List.cons_lt_cons_iff]

/-! ### Records of fields -/

section Records

variable {α : Type} {code : ℕ → α} {b : ℕ}

/-- The text of numbers: each with the width of its field, and the text between it and the next. -/
def render (code : ℕ → α) (b : ℕ) : List (ℕ × List α) → List ℕ → List α
  | (w, separator) :: layout, n :: fields =>
    (digits b w n).map code ++ separator ++ render code b layout fields
  | _, _ => []

theorem map_render {β : Type} (f : α → β) (layout : List (ℕ × List α)) (fields : List ℕ) :
    (render code b layout fields).map f =
      render (f ∘ code) b (layout.map fun field => (field.1, field.2.map f)) fields := by
  induction layout generalizing fields with
  | nil => rfl
  | cons field layout ih =>
    cases fields with
    | nil => rfl
    | cons n fields => simp [render, ih]

/-- Every number fits its field. -/
def Fits (b : ℕ) (layout : List (ℕ × List α)) (fields : List ℕ) : Prop :=
  List.Forall₂ (fun field n => n < b ^ field.1) layout fields

variable [LinearOrder α]

theorem map_lt_map_iff (hcode : StrictMonoOn code (Set.Iio b)) {ds es : List ℕ}
    (hds : ∀ d ∈ ds, d < b) (hes : ∀ e ∈ es, e < b) :
    ds.map code < es.map code ↔ ds < es := by
  induction ds generalizing es with
  | nil => cases es <;> simp
  | cons d ds ih =>
    cases es with
    | nil => simp
    | cons e es =>
      obtain ⟨hd, hds⟩ := List.forall_mem_cons.mp hds
      obtain ⟨he, hes⟩ := List.forall_mem_cons.mp hes
      simp only [List.map_cons, List.cons_lt_cons_iff, ih hds hes, hcode.lt_iff_lt hd he,
        hcode.injOn.eq_iff hd he]

theorem map_digits_injOn (hcode : StrictMonoOn code (Set.Iio b)) (hb : 0 < b) (w : ℕ) :
    Set.InjOn (fun n => (digits b w n).map code) {n | n < b ^ w} := by
  intro n hn m hm (h : (digits b w n).map code = (digits b w m).map code)
  have hlt := map_lt_map_iff hcode (fun _ => digit_lt (w := w) (n := n) hb)
    (fun _ => digit_lt (w := w) (n := m) hb)
  have hgt := map_lt_map_iff hcode (fun _ => digit_lt (w := w) (n := m) hb)
    (fun _ => digit_lt (w := w) (n := n) hb)
  rw [h, digits_lt_iff hn hm] at hlt
  rw [h, digits_lt_iff hm hn] at hgt
  have hnot := lt_irrefl ((digits b w m).map code)
  have hle : ¬n < m := fun hnm => hnot (hlt.mpr hnm)
  have hge : ¬m < n := fun hmn => hnot (hgt.mpr hmn)
  omega

/-- The texts of two records compare as their numbers do, field by field. -/
theorem render_lt_iff (hcode : StrictMonoOn code (Set.Iio b)) (hb : 0 < b)
    {layout : List (ℕ × List α)} {fields others : List ℕ}
    (hfields : Fits b layout fields) (hothers : Fits b layout others) :
    render code b layout fields < render code b layout others ↔ fields < others := by
  induction layout generalizing fields others with
  | nil =>
    cases hfields
    cases hothers
    simp [render]
  | cons field layout ih =>
    cases hfields with
    | cons hn hfields =>
    cases hothers with
    | cons hm hothers =>
    rename_i n fields m others
    have hdigits := map_lt_map_iff hcode (fun _ => digit_lt (w := field.1) (n := n) hb)
      (fun _ => digit_lt (w := field.1) (n := m) hb)
    have hsame : (digits b field.1 n).map code = (digits b field.1 m).map code ↔ n = m :=
      (map_digits_injOn hcode hb field.1).eq_iff hn hm
    rw [render, render, List.append_assoc, List.append_assoc, append_lt_append_iff (by simp),
      append_lt_append_iff rfl, hdigits, digits_lt_iff hn hm, hsame, ih hfields hothers,
      List.cons_lt_cons_iff]
    simp

end Records

end FixedWidth
