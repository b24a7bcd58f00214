import Mathlib

/-! Strings of bits and words as polynomials over the field of two elements, the first bit with the
greatest power, and the error patterns that a multiple of a polynomial never is. -/
namespace Ritex.BinaryPolynomial
open Polynomial

noncomputable def coefficient (b : Bool) : (ZMod 2)[X] := if b then 1 else 0

noncomputable def ofBits : List Bool → (ZMod 2)[X]
  | [] => 0
  | b :: bits => coefficient b * X ^ bits.length + ofBits bits

@[simp] theorem coefficient_false : coefficient false = 0 := rfl

@[simp] theorem coefficient_true : coefficient true = 1 := rfl

@[simp] theorem ofBits_nil : ofBits [] = 0 := rfl

@[simp] theorem ofBits_cons (b : Bool) (bits : List Bool) :
    ofBits (b :: bits) = coefficient b * X ^ bits.length + ofBits bits := rfl

theorem coefficient_xor (a b : Bool) : coefficient (a ^^ b) = coefficient a + coefficient b := by
  cases a <;> cases b <;> simp [CharTwo.add_self_eq_zero]

theorem ofBits_append (xs ys : List Bool) :
    ofBits (xs ++ ys) = ofBits xs * X ^ ys.length + ofBits ys := by
  induction xs with
  | nil => simp
  | cons x xs ih =>
    rw [List.cons_append, ofBits_cons, ofBits_cons, ih, List.length_append, pow_add]
    ring

theorem ofBits_replicate_false (n : ℕ) : ofBits (List.replicate n false) = 0 := by
  induction n with
  | zero => rfl
  | succ n ih => rw [List.replicate_succ, ofBits_cons, ih, coefficient_false, zero_mul, add_zero]

theorem ofBits_zipWith_xor {xs ys : List Bool} (h : xs.length = ys.length) :
    ofBits (List.zipWith xor xs ys) = ofBits xs + ofBits ys := by
  induction xs generalizing ys with
  | nil =>
    obtain rfl := List.length_eq_zero_iff.mp h.symm
    simp
  | cons x xs ih =>
    cases ys with
    | nil => simp at h
    | cons y ys =>
      have hlen : xs.length = ys.length := by simpa using h
      rw [List.zipWith_cons_cons, ofBits_cons, ofBits_cons, ofBits_cons, ih hlen, coefficient_xor,
        List.length_zipWith, hlen, min_self]
      ring

theorem degree_ofBits_lt (bits : List Bool) : (ofBits bits).degree < bits.length := by
  induction bits with
  | nil => simp
  | cons b bits ih =>
    have hlength : (bits.length : WithBot ℕ) < ((b :: bits).length : ℕ) := by
      rw [List.length_cons]
      exact_mod_cast Nat.lt_succ_self _
    have hhead : (coefficient b * X ^ bits.length).degree ≤ (bits.length : WithBot ℕ) := by
      cases b with
      | false => simp
      | true => rw [coefficient_true, one_mul, degree_X_pow]
    exact (degree_add_le _ _).trans_lt (max_lt (hhead.trans_lt hlength) (ih.trans hlength))

theorem ofBits_ne_zero {bits : List Bool} (h : true ∈ bits) : ofBits bits ≠ 0 := by
  induction bits with
  | nil => simp at h
  | cons b bits ih =>
    cases b with
    | false =>
      have htail : true ∈ bits := by simpa using h
      simpa using ih htail
    | true =>
      have hlower : (ofBits bits).degree < (X ^ bits.length : (ZMod 2)[X]).degree := by
        rw [degree_X_pow]
        exact degree_ofBits_lt bits
      have hdegree := degree_add_eq_left_of_degree_lt hlower
      rw [ofBits_cons, coefficient_true, one_mul]
      intro hzero
      rw [hzero, degree_X_pow, degree_zero] at hdegree
      simp at hdegree

theorem eval_one_ofBits (bits : List Bool) : (ofBits bits).eval 1 = (bits.count true : ZMod 2) := by
  induction bits with
  | nil => simp
  | cons b bits ih =>
    rw [ofBits_cons, eval_add, ih]
    cases b with
    | false => simp
    | true =>
      rw [List.count_cons_self]
      push_cast
      simp [add_comm]

/-! ### Words -/

section Words

variable {m n : ℕ}

/-- Most significant bit first. -/
def bitsOf (w : BitVec n) : List Bool := List.ofFn fun i : Fin n => w.getMsbD i

def wordsBits (words : List (BitVec n)) : List Bool := words.flatMap bitsOf

noncomputable def wordPoly (w : BitVec n) : (ZMod 2)[X] := ofBits (bitsOf w)

noncomputable def wordsPoly (words : List (BitVec n)) : (ZMod 2)[X] := ofBits (wordsBits words)

@[simp] theorem length_bitsOf (w : BitVec n) : (bitsOf w).length = n := List.length_ofFn

@[simp] theorem wordsBits_cons (w : BitVec n) (words : List (BitVec n)) :
    wordsBits (w :: words) = bitsOf w ++ wordsBits words := rfl

theorem wordsBits_append (xs ys : List (BitVec n)) : wordsBits (xs ++ ys) = wordsBits xs ++ wordsBits ys :=
  List.flatMap_append

theorem length_wordsBits (words : List (BitVec n)) : (wordsBits words).length = n * words.length := by
  induction words with
  | nil => rfl
  | cons w words ih =>
    rw [wordsBits_cons, List.length_append, length_bitsOf, ih, List.length_cons, Nat.mul_succ, Nat.add_comm]

theorem bitsOf_append (high : BitVec m) (low : BitVec n) :
    bitsOf (high ++ low) = bitsOf high ++ bitsOf low := by
  rw [bitsOf, List.ofFn_add]
  congr 2
  · funext i
    simp [BitVec.getMsbD_append]
  · funext i
    simp [BitVec.getMsbD_append]

theorem bitsOf_xor (v w : BitVec n) : bitsOf (v ^^^ w) = List.zipWith xor (bitsOf v) (bitsOf w) := by
  apply List.ext_getElem
  · simp
  · intro i hi hi'
    simp [bitsOf]

theorem wordsBits_xor {xs ys : List (BitVec n)} (h : xs.length = ys.length) :
    wordsBits (List.zipWith (· ^^^ ·) xs ys) = List.zipWith xor (wordsBits xs) (wordsBits ys) := by
  induction xs generalizing ys with
  | nil => rfl
  | cons x xs ih =>
    cases ys with
    | nil => simp at h
    | cons y ys =>
      have hlen : xs.length = ys.length := by simpa using h
      have hbits : (bitsOf x).length = (bitsOf y).length := by simp
      rw [List.zipWith_cons_cons, wordsBits_cons, wordsBits_cons, wordsBits_cons, ih hlen, bitsOf_xor,
        List.zipWith_append hbits]

theorem wordPoly_append (high : BitVec m) (low : BitVec n) :
    wordPoly (high ++ low) = wordPoly high * X ^ n + wordPoly low := by
  rw [wordPoly, bitsOf_append, ofBits_append, length_bitsOf]
  rfl

theorem wordPoly_xor (v w : BitVec n) : wordPoly (v ^^^ w) = wordPoly v + wordPoly w := by
  rw [wordPoly, bitsOf_xor, ofBits_zipWith_xor (by simp)]
  rfl

theorem wordPoly_zero : wordPoly (0 : BitVec n) = 0 := by
  have hbits : bitsOf (0 : BitVec n) = List.replicate n false := by simp [bitsOf]
  rw [wordPoly, hbits, ofBits_replicate_false]

theorem wordPoly_ne_zero {w : BitVec n} (h : w ≠ 0) : wordPoly w ≠ 0 := by
  have hone : ∃ i : Fin n, w.getMsbD i = true := by
    by_contra hall
    push Not at hall
    refine h (BitVec.eq_of_getMsbD_eq fun i hi => ?_)
    simpa using hall ⟨i, hi⟩
  obtain ⟨i, hi⟩ := hone
  exact ofBits_ne_zero (List.mem_ofFn.mpr ⟨i, hi⟩)

theorem degree_wordPoly_lt (w : BitVec n) : (wordPoly w).degree < n := by
  have h := degree_ofBits_lt (bitsOf w)
  rwa [length_bitsOf] at h

/-- The bit that a shift drops is the coefficient of the power that it would have had. -/
theorem wordPoly_shiftLeft (w : BitVec (n + 1)) :
    wordPoly (w <<< 1) + coefficient (w.getMsbD 0) * X ^ (n + 1) = wordPoly w * X := by
  have hbits : bitsOf w = w.getMsbD 0 :: List.ofFn fun i : Fin n => w.getMsbD (i + 1) := by
    rw [bitsOf, List.ofFn_succ]
    rfl
  have hshift : bitsOf (w <<< 1) = (List.ofFn fun i : Fin n => w.getMsbD (i + 1)) ++ [false] := by
    rw [bitsOf, List.ofFn_succ_last]
    simp
  simp only [wordPoly, hbits, hshift, ofBits_append, ofBits_cons, ofBits_nil, coefficient_false,
    List.length_ofFn, List.length_cons, List.length_nil]
  ring

theorem wordsPoly_append (xs ys : List (BitVec n)) :
    wordsPoly (xs ++ ys) = wordsPoly xs * X ^ (n * ys.length) + wordsPoly ys := by
  rw [wordsPoly, wordsBits_append, ofBits_append, length_wordsBits]
  rfl

theorem wordsPoly_cons (w : BitVec n) (words : List (BitVec n)) :
    wordsPoly (w :: words) = wordPoly w * X ^ (n * words.length) + wordsPoly words := by
  rw [wordsPoly, wordsBits_cons, ofBits_append, length_wordsBits]
  rfl

theorem wordsPoly_xor {xs ys : List (BitVec n)} (h : xs.length = ys.length) :
    wordsPoly (List.zipWith (· ^^^ ·) xs ys) = wordsPoly xs + wordsPoly ys := by
  have hbits : (wordsBits xs).length = (wordsBits ys).length := by
    rw [length_wordsBits, length_wordsBits, h]
  rw [wordsPoly, wordsBits_xor h, ofBits_zipWith_xor hbits]
  rfl

variable {g : (ZMod 2)[X]}

/-- An error behind a header is added to a multiple. -/
theorem dvd_wordsPoly_xor {header tail pattern : List (BitVec n)} (hlength : tail.length = pattern.length)
    (h : g ∣ wordsPoly (header ++ tail)) :
    g ∣ wordsPoly (header ++ List.zipWith (· ^^^ ·) tail pattern) ↔ g ∣ wordsPoly pattern := by
  have hsum : wordsPoly (header ++ List.zipWith (· ^^^ ·) tail pattern) =
      wordsPoly (header ++ tail) + wordsPoly pattern := by
    rw [wordsPoly_append, wordsPoly_append, wordsPoly_xor hlength, List.length_zipWith, ← hlength, min_self,
      add_assoc]
  rw [hsum]
  exact dvd_add_right h

end Words

/-! ### Error patterns -/

/-- All ones are within `n` consecutive places, and there is one. -/
def IsBurst (n : ℕ) (bits : List Bool) : Prop :=
  ∃ before burst after, bits = List.replicate before false ++ burst ++ List.replicate after false ∧
    burst.length ≤ n ∧ true ∈ burst

variable {g : (ZMod 2)[X]} {bits : List Bool}

theorem isCoprime_X_pow (hg : g.coeff 0 ≠ 0) (n : ℕ) : IsCoprime g (X ^ n) := by
  have hX : ¬X ∣ g := fun h => hg (X_dvd_iff.mp h)
  exact (irreducible_X.coprime_iff_not_dvd.mpr hX).symm.pow_right

theorem not_dvd_of_burst (hg : g.coeff 0 ≠ 0) (h : IsBurst g.natDegree bits) : ¬g ∣ ofBits bits := by
  obtain ⟨before, burst, after, rfl, hlength, hone⟩ := h
  intro hdvd
  rw [ofBits_append, ofBits_append, ofBits_replicate_false, ofBits_replicate_false, zero_mul, zero_add,
    add_zero, List.length_replicate] at hdvd
  have hburst : g ∣ ofBits burst := (isCoprime_X_pow hg after).dvd_of_dvd_mul_right hdvd
  have hne := ofBits_ne_zero hone
  have hle := degree_le_of_dvd hburst hne
  have hg0 : g ≠ 0 := by
    rintro rfl
    exact hg (coeff_zero 0)
  rw [degree_eq_natDegree hg0] at hle
  have hlt := hle.trans_lt (degree_ofBits_lt burst)
  have : g.natDegree < burst.length := by exact_mod_cast hlt
  omega

theorem not_dvd_of_odd (hg : g.eval 1 = 0) (h : Odd (bits.count true)) : ¬g ∣ ofBits bits := by
  rintro ⟨q, hq⟩
  have heval := eval_one_ofBits bits
  rw [hq, eval_mul, hg, zero_mul] at heval
  have heven : Even (bits.count true) := (ZMod.natCast_eq_zero_iff_even).mp heval.symm
  exact Nat.not_even_iff_odd.mpr h heven

theorem exists_of_count_true_succ {n : ℕ} (h : bits.count true = n + 1) :
    ∃ before rest, bits = List.replicate before false ++ true :: rest ∧ rest.count true = n := by
  induction bits with
  | nil => simp at h
  | cons b bits ih =>
    cases b with
    | true =>
      rw [List.count_cons_self] at h
      exact ⟨0, bits, rfl, by omega⟩
    | false =>
      have htail : bits.count true = n + 1 := by simpa using h
      obtain ⟨before, rest, rfl, hrest⟩ := ih htail
      exact ⟨before + 1, rest, rfl, hrest⟩

theorem ofBits_of_count_zero (h : bits.count true = 0) : ofBits bits = 0 := by
  have hfalse : ∀ b ∈ bits, b = false := by
    intro b hb
    cases b with
    | false => rfl
    | true => exact absurd hb (List.count_eq_zero.mp h)
  rw [List.eq_replicate_of_mem hfalse, ofBits_replicate_false]

/-- Two ones at a distance of `d`. -/
theorem exists_of_count_true_two (h : bits.count true = 2) :
    ∃ n d, 0 < d ∧ d < bits.length ∧ ofBits bits = (X ^ d + 1) * X ^ n := by
  obtain ⟨before, rest, rfl, hrest⟩ := exists_of_count_true_succ h
  obtain ⟨between, after, rfl, hafter⟩ := exists_of_count_true_succ hrest
  refine ⟨after.length, between + 1, by omega, by simp; omega, ?_⟩
  simp only [ofBits_append, ofBits_cons, ofBits_replicate_false, ofBits_of_count_zero hafter,
    coefficient_true, List.length_append, List.length_replicate, List.length_cons]
  ring

theorem not_dvd_of_two (hg : g.coeff 0 ≠ 0) (horder : ∀ d, 0 < d → d < bits.length → ¬g ∣ X ^ d + 1)
    (h : bits.count true = 2) : ¬g ∣ ofBits bits := by
  obtain ⟨n, d, hd, hlt, hbits⟩ := exists_of_count_true_two h
  rw [hbits]
  intro hdvd
  exact horder d hd hlt ((isCoprime_X_pow hg n).dvd_of_dvd_mul_right hdvd)

end Ritex.BinaryPolynomial
