import Mathlib

/-! Machine words of the adapter: bytes, unsigned shorts and the helpers of `Utils.h`
on a little-endian host. -/
namespace Ritex

abbrev Byte := BitVec 8
abbrev Word := BitVec 16

def msb (x : Word) : Byte := (x >>> 8).setWidth 8
def lsb (x : Word) : Byte := x.setWidth 8

def swap16 (x : Word) : Word := x <<< 8 ||| x >>> 8

/-- The unsigned short whose two bytes lie in memory in this order. -/
def ofMemory (first second : Byte) : Word := second ++ first

theorem swap16_ofMemory (hi lo : Byte) : swap16 (ofMemory hi lo) = hi ++ lo := by
  apply BitVec.eq_of_getLsbD_eq
  intro i hi'
  simp only [swap16, ofMemory, BitVec.getLsbD_or, BitVec.getLsbD_shiftLeft,
    BitVec.getLsbD_ushiftRight, BitVec.getLsbD_append]
  grind

theorem msb_append (hi lo : Byte) : msb (hi ++ lo) = hi := by
  apply BitVec.eq_of_getLsbD_eq
  intro i hi'
  simp only [msb, BitVec.getLsbD_setWidth, BitVec.getLsbD_ushiftRight, BitVec.getLsbD_append]
  grind

theorem lsb_append (hi lo : Byte) : lsb (hi ++ lo) = lo := by
  apply BitVec.eq_of_getLsbD_eq
  intro i hi'
  simp only [lsb, BitVec.getLsbD_setWidth, BitVec.getLsbD_append]
  grind

theorem msb_shiftLeft_or (hi lo : Byte) : msb (hi.setWidth 16 <<< 8 ||| lo.setWidth 16) = hi := by
  apply BitVec.eq_of_getLsbD_eq
  intro i hi'
  simp only [msb, BitVec.getLsbD_setWidth, BitVec.getLsbD_ushiftRight, BitVec.getLsbD_or,
    BitVec.getLsbD_shiftLeft]
  grind

theorem lsb_shiftLeft_or (hi lo : Byte) : lsb (hi.setWidth 16 <<< 8 ||| lo.setWidth 16) = lo := by
  apply BitVec.eq_of_getLsbD_eq
  intro i hi'
  simp only [lsb, BitVec.getLsbD_setWidth, BitVec.getLsbD_or, BitVec.getLsbD_shiftLeft]
  grind

@[simp] theorem lsb_setWidth (b : Byte) : lsb (b.setWidth 16) = b := by simp [lsb]

theorem msb_append_lsb (x : Word) : msb x ++ lsb x = x := by
  apply BitVec.eq_of_getLsbD_eq
  intro i hi'
  simp only [msb, lsb, BitVec.getLsbD_setWidth, BitVec.getLsbD_ushiftRight,
    BitVec.getLsbD_append]
  grind

/-- A word sent most significant byte first and read back in memory order is itself. -/
theorem swap16_msb_lsb (x : Word) : swap16 (ofMemory (msb x) (lsb x)) = x := by
  rw [swap16_ofMemory, msb_append_lsb]

end Ritex
