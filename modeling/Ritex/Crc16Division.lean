import Ritex.ShiftRegister
import Ritex.Crc16

/-! `Crc16` as a division by its generator, and the errors that the generator divides none of. -/
namespace Ritex
open Polynomial BinaryPolynomial ShiftRegister

noncomputable def crcGenerator : (ZMod 2)[X] := X ^ 16 + X ^ 15 + X ^ 2 + 1

theorem generator_eq_crcGenerator : generator (0x8005 : Word) = crcGenerator := by
  have hbits : bitsOf (0x8005 : Word) = [true, false, false, false, false, false, false, false, false,
    false, false, false, false, true, false, true] := by decide
  rw [generator, wordPoly, hbits]
  simp [crcGenerator]
  ring

theorem matches_top_bit (w : Word) : w &&& (1 <<< 15) ≠ 0 ↔ w.getMsbD 0 = true := by
  change w &&& BitVec.twoPow 16 15 ≠ 0 ↔ w.getLsbD 15 = true
  rw [BitVec.and_twoPow]
  cases w.getLsbD 15 with
  | false => simp
  | true => decide

theorem crcShift_eq_shift : crcShift = shift (0x8005 : Word) := by
  funext w
  rw [crcShift, shift, if_congr (matches_top_bit w) rfl rfl]

/-! ### The remainder -/

theorem residue_crc16Byte (crc : Word) (byte : Byte) :
    residue (0x8005 : Word) (wordPoly (crc16Byte crc byte)) =
      residue 0x8005 (wordPoly crc * X ^ 8 + wordPoly byte * X ^ 16) := by
  have hbyte : byte.setWidth 16 <<< 8 = byte ++ (0 : Byte) := by
    apply BitVec.eq_of_getLsbD_eq
    intro i hi
    simp only [BitVec.getLsbD_shiftLeft, BitVec.getLsbD_setWidth, BitVec.getLsbD_append]
    grind
  rw [crc16Byte, crcShift_eq_shift, residue_iterate, wordPoly_xor, hbyte, wordPoly_append, wordPoly_zero]
  apply congrArg (residue _)
  ring

theorem residue_crc16 (crc : Word) (m : List Byte) :
    residue (0x8005 : Word) (wordPoly (crc16 crc m)) =
      residue 0x8005 (wordPoly crc * X ^ (8 * m.length) + wordsPoly m * X ^ 16) := by
  induction m generalizing crc with
  | nil => simp [wordsPoly, wordsBits]
  | cons b m ih =>
    rw [crc16_cons, ih, map_add, map_mul, residue_crc16Byte, ← map_mul, ← map_add, wordsPoly_cons,
      List.length_cons]
    apply congrArg (residue _)
    ring

theorem crc16_eq_modByMonic (crc : Word) (m : List Byte) :
    wordPoly (crc16 crc m) =
      (wordPoly crc * X ^ (8 * m.length) + wordsPoly m * X ^ 16) %ₘ crcGenerator := by
  rw [← generator_eq_crcGenerator]
  exact eq_modByMonic_of_residue (residue_crc16 crc m)

/-- A message with its checksum behind it is a multiple of the generator, and no other checksum makes
it one. -/
theorem crc16_eq_iff (m : List Byte) (high low : Byte) :
    high ++ low = crc16 0 m ↔ crcGenerator ∣ wordsPoly (m ++ [high, low]) := by
  have hbytes : wordsPoly [high, low] = wordPoly (high ++ low) := by
    rw [wordsPoly_cons, wordsPoly_cons, wordPoly_append]
    simp [wordsPoly, wordsBits]
  have hcrc : residue (0x8005 : Word) (wordPoly (crc16 0 m)) = residue 0x8005 (wordsPoly m * X ^ 16) := by
    rw [residue_crc16, wordPoly_zero, zero_mul, zero_add]
  rw [wordsPoly_append, hbytes, ← generator_eq_crcGenerator]
  exact eq_iff_dvd_add hcrc

/-! ### What the generator detects -/

theorem natDegree_crcGenerator : crcGenerator.natDegree = 16 := by
  rw [← generator_eq_crcGenerator]
  exact natDegree_generator

theorem crcGenerator_coeff_zero : crcGenerator.coeff 0 ≠ 0 := by
  simp [crcGenerator]

theorem crcGenerator_eval_one : crcGenerator.eval 1 = 0 := by
  simp [crcGenerator]
  decide

/-- The longest row of the tables has 532 bytes of payload and checksum; within their bits the register does
not come back to one. -/
theorem one_notMem_iterate : (1 : Word) ∉ List.iterate crcShift (crcShift 1) 4255 := by
  decide +kernel

theorem crcGenerator_order {d : ℕ} (hd : 0 < d) (hlt : d < 4256) : ¬crcGenerator ∣ X ^ d + 1 := by
  have hnotMem := one_notMem_iterate
  rw [crcShift_eq_shift] at hnotMem
  rw [← generator_eq_crcGenerator]
  exact not_dvd_X_pow_add_one hnotMem hd (by omega)

/-- The errors that the checksum is there for. -/
def DetectedError (error : List Bool) : Prop :=
  IsBurst 16 error ∨ Odd (error.count true) ∨ error.count true = 2

theorem not_dvd_of_detectedError {error : List Bool} (hlength : error.length ≤ 4256)
    (h : DetectedError error) : ¬crcGenerator ∣ ofBits error := by
  rcases h with hburst | hodd | htwo
  · rw [← natDegree_crcGenerator] at hburst
    exact not_dvd_of_burst crcGenerator_coeff_zero hburst
  · exact not_dvd_of_odd crcGenerator_eval_one hodd
  · have horder : ∀ d, 0 < d → d < error.length → ¬crcGenerator ∣ X ^ d + 1 := by
      intro d hd hlt
      exact crcGenerator_order hd (by omega)
    exact not_dvd_of_two crcGenerator_coeff_zero horder htwo

end Ritex
