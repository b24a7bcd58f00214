import Ritex.CommandCompile
import Ritex.Reports

/-! Decimal texts: the text of a positive number is the one that is read back as it. -/
namespace Ritex

/-- The text of a positive number: digits, the first of them not 0. -/
structure IsDecimal (s : Text) : Prop where
  nonempty : s ≠ []
  digits : ∀ c ∈ s, c.isDigit = true
  leading : s.head? ≠ some '0'

theorem itoa_natCast (n : ℕ) : (itoa n).toList = Nat.toDigits 10 n := Nat.toList_repr

theorem leadingNumber_digits {s : Text} (h : ∀ c ∈ s, c.isDigit = true) :
    leadingNumber s = Nat.ofDigitChars 10 s 0 := by
  rw [leadingNumber, List.takeWhile_eq_self_iff.mpr h]
  rfl

theorem toDigits_isDigit (n : ℕ) : ∀ c ∈ Nat.toDigits 10 n, c.isDigit = true :=
  fun _ hc => Nat.isDigit_of_mem_toDigits (by omega) (by omega) hc

theorem leadingNumber_toDigits (n : ℕ) : leadingNumber (Nat.toDigits 10 n) = n := by
  rw [leadingNumber_digits (toDigits_isDigit n)]
  exact Nat.ofDigitChars_ten_toDigits

theorem toDigits_head {n : ℕ} (hn : 0 < n) : (Nat.toDigits 10 n).head? ≠ some '0' := by
  induction n using Nat.strong_induction_on with
  | _ n ih =>
    by_cases hlt : n < 10
    · rw [Nat.toDigits_of_lt_base hlt]
      interval_cases n <;> decide
    · have hdiv : 0 < n / 10 := by omega
      rw [Nat.toDigits_of_base_le (by omega) (by omega), List.head?_append_of_ne_nil _ Nat.toDigits_ne_nil]
      exact ih (n / 10) (by omega) hdiv

theorem isDecimal_toDigits {n : ℕ} (hn : 0 < n) : IsDecimal (Nat.toDigits 10 n) :=
  ⟨Nat.toDigits_ne_nil, toDigits_isDigit n, toDigits_head hn⟩

theorem digit_value {c : Char} (h : c.isDigit = true) :
    c.toNat - '0'.toNat < 10 ∧ Nat.digitChar (c.toNat - '0'.toNat) = c := by
  have hrange : 48 ≤ c.toNat ∧ c.toNat ≤ 57 := by
    simpa [Char.isDigit, UInt32.le_iff_toNat_le] using h
  have hzero : '0'.toNat = 48 := rfl
  rw [hzero]
  refine ⟨by omega, ?_⟩
  have hvalue : ∀ d < 10, (Nat.digitChar d).toNat = d + 48 := by decide
  apply Char.toNat_inj.mp
  rw [hvalue _ (by omega)]
  omega

/-- Digits behind a positive number are digits of the number that they make of it. -/
theorem toDigits_ofDigitChars {acc : ℕ} (hacc : 0 < acc) {s : Text}
    (h : ∀ c ∈ s, c.isDigit = true) :
    Nat.toDigits 10 (Nat.ofDigitChars 10 s acc) = Nat.toDigits 10 acc ++ s := by
  induction s generalizing acc with
  | nil => simp
  | cons c s ih =>
    obtain ⟨hlt, hchar⟩ := digit_value (h c List.mem_cons_self)
    have hrest : ∀ c ∈ s, c.isDigit = true := fun c hc => h c (List.mem_cons_of_mem _ hc)
    have hstep := Nat.toDigits_append_toDigits (b := 10) (by omega) hacc hlt
    rw [Nat.toDigits_of_lt_base hlt, hchar] at hstep
    rw [Nat.ofDigitChars_cons, ih (by omega) hrest, ← hstep, List.append_assoc]
    rfl

/-- A decimal text is written back as it was read. -/
theorem IsDecimal.toDigits_leadingNumber {s : Text} (h : IsDecimal s) :
    Nat.toDigits 10 (leadingNumber s) = s := by
  rw [leadingNumber_digits h.digits]
  cases s with
  | nil => exact absurd rfl h.nonempty
  | cons c s =>
    obtain ⟨hlt, hchar⟩ := digit_value (h.digits c List.mem_cons_self)
    have hrest : ∀ c ∈ s, c.isDigit = true := fun c hc => h.digits c (List.mem_cons_of_mem _ hc)
    have hpos : 0 < c.toNat - '0'.toNat := by
      by_contra hzero
      rw [show c.toNat - '0'.toNat = 0 by omega] at hchar
      exact h.leading (congrArg some hchar.symm)
    rw [Nat.ofDigitChars_cons, toDigits_ofDigitChars (by omega) hrest, Nat.mul_zero, Nat.zero_add,
      Nat.toDigits_of_lt_base hlt, hchar]
    rfl

theorem IsDecimal.leadingNumber_pos {s : Text} (h : IsDecimal s) : 0 < leadingNumber s := by
  by_contra hzero
  have hs := h.toDigits_leadingNumber
  rw [show leadingNumber s = 0 by omega] at hs
  exact h.leading (by rw [← hs]; rfl)

theorem isSpace_digit {c : Char} (h : c.isDigit = true) : isSpace c = false := by
  have hspace : ∀ b : Char, b.isDigit = false → c ≠ b := by
    rintro b hb rfl
    rw [h] at hb
    cases hb
  simp [isSpace, hspace]

theorem strtol_digits {s : Text} (h : ∀ c ∈ s, c.isDigit = true) :
    strtol s = clampLong (leadingNumber s) := by
  have hspaces : s.dropWhile isSpace = s := by
    cases s with
    | nil => rfl
    | cons c s => exact List.dropWhile_cons_of_neg (by simp [isSpace_digit (h c List.mem_cons_self)])
  unfold strtol
  rw [hspaces]
  split
  next =>
    have hminus := h '-' List.mem_cons_self
    cases hminus
  next =>
    have hplus := h '+' List.mem_cons_self
    cases hplus
  next => rfl

theorem strtol_lt (s : Text) : strtol s < 2 ^ 31 := by
  have hclamp : ∀ i, clampLong i < 2 ^ 31 := by
    intro i
    unfold clampLong
    omega
  unfold strtol
  split <;> exact hclamp _

/-- The text of an integer. -/
inductive IntegerText : Text → ℤ → Prop
  | digits {s : Text} (hs : s ≠ []) (h : ∀ c ∈ s, c.isDigit = true) : IntegerText s (leadingNumber s)
  | plus {s : Text} (hs : s ≠ []) (h : ∀ c ∈ s, c.isDigit = true) :
      IntegerText ('+' :: s) (leadingNumber s)
  | minus {s : Text} (hs : s ≠ []) (h : ∀ c ∈ s, c.isDigit = true) :
      IntegerText ('-' :: s) (-leadingNumber s)

theorem IntegerText.of_digits {s : Text} {n : ℕ} (hs : s ≠ []) (h : ∀ c ∈ s, c.isDigit = true)
    (hn : leadingNumber s = n) : IntegerText s n := hn ▸ .digits hs h

theorem IntegerText.ne_nil {s : Text} {v : ℤ} (h : IntegerText s v) : s ≠ [] := by
  cases h with
  | digits hs _ => exact hs
  | plus => exact List.cons_ne_nil _ _
  | minus => exact List.cons_ne_nil _ _

end Ritex
