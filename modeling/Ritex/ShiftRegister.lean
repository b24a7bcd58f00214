import Ritex.BinaryPolynomial

/-! Shift registers with feedback. A register of `n + 1` bits divides by the polynomial that has the feedback
below the power `n + 1`: what it holds is a remainder. -/
namespace Ritex.ShiftRegister
open Polynomial BinaryPolynomial

variable {n : ℕ}

def shift (feedback w : BitVec (n + 1)) : BitVec (n + 1) :=
  if w.getMsbD 0 then w <<< 1 ^^^ feedback else w <<< 1

noncomputable def generator (feedback : BitVec (n + 1)) : (ZMod 2)[X] := X ^ (n + 1) + wordPoly feedback

variable {feedback v w : BitVec (n + 1)} {p q : (ZMod 2)[X]}

theorem generator_monic : (generator feedback).Monic := monic_X_pow_add (degree_wordPoly_lt feedback)

theorem degree_generator : (generator feedback).degree = (n + 1 : ℕ) := by
  have hlower : (wordPoly feedback).degree < (X ^ (n + 1) : (ZMod 2)[X]).degree := by
    rw [degree_X_pow]
    exact degree_wordPoly_lt feedback
  rw [generator, degree_add_eq_left_of_degree_lt hlower, degree_X_pow]

theorem natDegree_generator : (generator feedback).natDegree = n + 1 :=
  natDegree_eq_of_degree_eq_some degree_generator

/-- A shift multiplies by `X` and takes off the generator if a bit was dropped. -/
theorem wordPoly_shift : wordPoly (shift feedback w) =
    wordPoly w * X + coefficient (w.getMsbD 0) * generator feedback := by
  have hshift := wordPoly_shiftLeft w
  rw [shift]
  split
  next htop =>
    rw [htop] at hshift ⊢
    rw [wordPoly_xor, ← hshift, generator, coefficient_true]
    linear_combination -CharTwo.add_self_eq_zero (X ^ (n + 1) : (ZMod 2)[X])
  next htop =>
    rw [Bool.not_eq_true] at htop
    rw [htop] at hshift ⊢
    simpa using hshift

/-! ### Residues -/

noncomputable def residue (feedback : BitVec (n + 1)) : (ZMod 2)[X] →+* AdjoinRoot (generator feedback) :=
  AdjoinRoot.mk (generator feedback)

theorem residue_eq_zero : residue feedback p = 0 ↔ generator feedback ∣ p := AdjoinRoot.mk_eq_zero

theorem residue_eq : residue feedback p = residue feedback q ↔ generator feedback ∣ p - q :=
  AdjoinRoot.mk_eq_mk

theorem residue_shift :
    residue feedback (wordPoly (shift feedback w)) = residue feedback (wordPoly w * X) := by
  rw [residue_eq, wordPoly_shift, add_sub_cancel_left]
  exact dvd_mul_left _ _

theorem residue_iterate (k : ℕ) (w : BitVec (n + 1)) :
    residue feedback (wordPoly ((shift feedback)^[k] w)) = residue feedback (wordPoly w * X ^ k) := by
  induction k generalizing w with
  | zero => rw [pow_zero, mul_one, Function.iterate_zero_apply]
  | succ k ih =>
    rw [Function.iterate_succ_apply, ih, map_mul, residue_shift, ← map_mul, mul_assoc, ← pow_succ']

/-- The register holds the remainder of everything that has its residue. -/
theorem eq_modByMonic_of_residue (h : residue feedback (wordPoly w) = residue feedback p) :
    wordPoly w = p %ₘ generator feedback := by
  have hdegree : (wordPoly w).degree < (generator feedback).degree := by
    rw [degree_generator]
    exact degree_wordPoly_lt w
  rw [← modByMonic_eq_of_dvd_sub generator_monic (residue_eq.mp h)]
  exact ((modByMonic_eq_self_iff generator_monic).mpr hdegree).symm

theorem residue_wordPoly_injective
    (h : residue feedback (wordPoly v) = residue feedback (wordPoly w)) : v = w := by
  by_contra hne
  have hsum : v ^^^ w ≠ 0 := by simpa [BitVec.xor_eq_zero_iff] using hne
  have hpoly : wordPoly v = wordPoly w :=
    (eq_modByMonic_of_residue h).trans (eq_modByMonic_of_residue rfl).symm
  have hzero : wordPoly (v ^^^ w) = 0 := by rw [wordPoly_xor, hpoly, CharTwo.add_self_eq_zero]
  exact wordPoly_ne_zero hsum hzero

/-- What completes a polynomial to a multiple of the generator is its remainder. -/
theorem eq_iff_dvd_add (h : residue feedback (wordPoly v) = residue feedback p) :
    w = v ↔ generator feedback ∣ p + wordPoly w := by
  rw [← residue_eq_zero, map_add, ← h, ← map_add, ← wordPoly_xor]
  constructor
  · intro heq
    have hxor : v ^^^ w = 0 := BitVec.xor_eq_zero_iff.mpr heq.symm
    rw [hxor, wordPoly_zero, map_zero]
  · intro hzero
    have hw : residue feedback (wordPoly (v ^^^ w)) = residue feedback (wordPoly (0 : BitVec (n + 1))) := by
      rw [hzero, wordPoly_zero, map_zero]
    exact (BitVec.xor_eq_zero_iff.mp (residue_wordPoly_injective hw)).symm

/-! ### The order of `X` -/

theorem wordPoly_one : wordPoly (1 : BitVec (n + 1)) = 1 := by
  have hbits : bitsOf (1 : BitVec (n + 1)) = List.replicate n false ++ [true] := by
    have hzeros : (fun i : Fin n => (1 : BitVec (n + 1)).getMsbD i) = fun _ => false := by
      funext i
      simp [i.isLt.ne]
    rw [bitsOf, List.ofFn_succ_last, ← List.ofFn_const, ← hzeros]
    simp
  rw [wordPoly, hbits, ofBits_append, ofBits_replicate_false]
  simp

/-- As long as the register does not come back to one, no power of `X` is one at the generator. -/
theorem not_dvd_X_pow_add_one {k d : ℕ}
    (h : (1 : BitVec (n + 1)) ∉ List.iterate (shift feedback) (shift feedback 1) k) (hd : 0 < d)
    (hle : d ≤ k) : ¬generator feedback ∣ X ^ d + 1 := by
  intro hdvd
  have hsum : residue feedback (X ^ d) + residue feedback 1 = 0 := by rwa [← map_add, residue_eq_zero]
  have hpower : residue feedback (wordPoly ((shift feedback)^[d] 1)) =
      residue feedback (wordPoly (1 : BitVec (n + 1))) := by
    rw [residue_iterate, wordPoly_one, one_mul, eq_neg_of_add_eq_zero_left hsum, ← map_neg,
      CharTwo.neg_eq]
  obtain ⟨k, rfl⟩ := Nat.exists_eq_succ_of_ne_zero hd.ne'
  have hone := residue_wordPoly_injective hpower
  rw [Function.iterate_succ_apply] at hone
  exact h (List.mem_iterate.mpr ⟨k, by omega, hone.symm⟩)

end Ritex.ShiftRegister
