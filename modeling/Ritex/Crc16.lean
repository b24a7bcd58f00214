import Ritex.Words

/-! The checksum of `Utils.cpp`: sixteen-bit register, polynomial 0x8005, most significant
bit first, no final inversion. -/
namespace Ritex

/-- One round of the bit loop of `Crc16`. -/
def crcShift (crc : Word) : Word :=
  if crc &&& (1 <<< 15) ≠ 0 then (crc <<< 1) ^^^ 0x8005 else crc <<< 1

/-- `Crc16(crcInit, byte)`. -/
def crc16Byte (crcInit : Word) (byte : Byte) : Word :=
  crcShift^[8] (crcInit ^^^ (byte.setWidth 16 <<< 8))

/-- `Crc16(crcInit, buffer, size)`. -/
def crc16 (crcInit : Word) (buffer : List Byte) : Word := buffer.foldl crc16Byte crcInit

@[simp] theorem crc16_nil (crc : Word) : crc16 crc [] = crc := rfl

@[simp] theorem crc16_cons (crc : Word) (b : Byte) (bs : List Byte) :
    crc16 crc (b :: bs) = crc16 (crc16Byte crc b) bs := rfl

theorem crc16_append (crc : Word) (xs ys : List Byte) :
    crc16 crc (xs ++ ys) = crc16 (crc16 crc xs) ys := by
  simp [crc16, List.foldl_append]

end Ritex
