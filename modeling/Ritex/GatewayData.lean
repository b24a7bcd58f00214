import Ritex.IStream

/-! Data items of the gateway protocol (`gateway/data.cpp`, `gateway/data.tpp`): numbers in
network byte order, strings of fixed and of variable size, samples, events and channels. Integers
and floats are their 32 bits; `size_t` has 32 bits as on the target. -/
namespace Ritex.Gateway
open Streams

def alignment : ℕ := 4

def intMax : ℕ := 2 ^ 31 - 1

def sizeT (x : ℤ) : ℕ := (x % 2 ^ 32).toNat

structure FString (n : ℕ) where
  bulk : List Byte
  length_eq : bulk.length = n
  deriving DecidableEq

abbrev Mark := FString 4
abbrev Date := FString 20

/-- `strncpy` of a string over zeros. -/
def FString.ofBytes (n : ℕ) (str : List Byte) : FString n :=
  ⟨(str.takeWhile (· ≠ 0) ++ List.replicate n 0).take n, by simp⟩

def eor : Mark := .ofBytes 4 [0x24, 0x80, 0x80, 0x80]

/-- What the gateway throws, with the values that its messages print. -/
inductive GatewayError
  | tooLargeSize (item : ℕ)
  | negativeSize (i : ℤ)
  | notAligned (size : ℕ)
  | packetEnd
  | markExpected (expected item : Mark)
  | unknownType (type : Mark)
  | terminatorExpected (expected item : Mark)
  deriving DecidableEq

def ascii (text : String) : List Byte := text.toList.map fun c => BitVec.ofNat 8 c.toNat

def hexDigit (digit : Byte) : List Byte :=
  [(ascii "0123456789ABCDEF").getD digit.toNat 0]

/-- `c_literal`: characters that do not print are written as their hexadecimal code. -/
def cLiteral (str : List Byte) : List Byte :=
  ascii "\"" ++ str.flatMap (fun ch : Byte =>
    if 0x20 ≤ ch.toNat ∧ ch.toNat ≠ 0x7F then [ch]
    else ascii "\\x" ++ hexDigit (ch >>> 4 &&& 0x0F) ++ hexDigit (ch &&& 0x0F)) ++ ascii "\""

namespace GatewayError

def message : GatewayError → List Byte
  | tooLargeSize item =>
    ascii ("Attemp to write too large size (" ++ toString item ++ ") max allowed size is " ++
      toString intMax)
  | negativeSize i => ascii ("Negative size (" ++ toString i ++ ") read")
  | notAligned size =>
    ascii ("Packet size (" ++ toString size ++ ") is not aligned to " ++ toString alignment)
  | packetEnd => ascii "OOPS"
  | markExpected expected item =>
    cLiteral expected.bulk ++ ascii " is expected  but read " ++ cLiteral item.bulk
  | unknownType type => ascii "Unknow packet type (" ++ cLiteral type.bulk ++ ascii ") read"
  | terminatorExpected expected item =>
    ascii "Command terminator (" ++ cLiteral expected.bulk ++ ascii ") expected but read " ++
      cLiteral item.bulk

end GatewayError

abbrev GatewayM (α : Type) := StreamM GatewayError α

/-! ### Numbers -/

def bigEndian (item : BitVec 32) : List Byte :=
  [(item >>> 24).setWidth 8, (item >>> 16).setWidth 8, (item >>> 8).setWidth 8, item.setWidth 8]

def ofBigEndian (bytes : List Byte) : BitVec 32 :=
  bytes.foldl (fun item byte => item <<< 8 ||| byte.setWidth 32) 0

theorem bigEndian_length (item : BitVec 32) : (bigEndian item).length = 4 := rfl

theorem ofBigEndian_bigEndian (item : BitVec 32) : ofBigEndian (bigEndian item) = item := by
  apply BitVec.eq_of_getLsbD_eq
  intro i hi
  simp only [ofBigEndian, bigEndian, List.foldl_cons, List.foldl_nil, BitVec.getLsbD_or,
    BitVec.getLsbD_shiftLeft, BitVec.getLsbD_setWidth, BitVec.getLsbD_ushiftRight]
  grind

/-- `write_item` of an integer; a float is written as the integer with its bits. -/
def writeInt (item : BitVec 32) : List Byte := bigEndian item

def writeSize (item : ℕ) : Except GatewayError (List Byte) :=
  if item > intMax then .error (.tooLargeSize item) else .ok (writeInt (BitVec.ofNat 32 item))

/-- `read_item` of an integer; a failed read leaves the cell as it was. -/
def readInt : GatewayM (BitVec 32) := do
  let memory ← StreamM.uninitialised 4
  let i ← StreamM.readInto memory
  return ofBigEndian i

def readSize : GatewayM ℕ := do
  let i ← readInt
  if i.toInt < 0 then throw (.negativeSize i.toInt)
  return i.toNat

theorem consumes_readInt (item : BitVec 32) : Consumes readInt (writeInt item) item := by
  refine consumes_uninitialised fun memory hlen => ?_
  have hread : Consumes (StreamM.readInto memory : GatewayM (List Byte)) (writeInt item)
      (bigEndian item) := consumes_readInto (by rw [hlen]; rfl)
  have hval : Consumes (Pure.pure (ofBigEndian (bigEndian item)) : GatewayM (BitVec 32)) [] item := by
    rw [ofBigEndian_bigEndian]
    exact Consumes.pure item
  exact hread.map hval

theorem writeSize_ok {item : ℕ} (h : item ≤ intMax) :
    writeSize item = .ok (writeInt (BitVec.ofNat 32 item)) := by
  unfold writeSize
  rw [if_neg (by omega)]

theorem consumes_readSize {item : ℕ} (h : item ≤ intMax) :
    Consumes readSize (writeInt (BitVec.ofNat 32 item)) item := by
  have hlt : item < 2 ^ 31 := by unfold intMax at h; omega
  have hnat : (BitVec.ofNat 32 item).toNat = item := by
    rw [BitVec.toNat_ofNat]
    omega
  have hint : ¬(BitVec.ofNat 32 item).toInt < 0 := by
    rw [BitVec.toInt_eq_toNat_cond, hnat]
    split <;> omega
  refine (consumes_readInt _).map ?_
  rw [if_neg hint, hnat]
  exact Consumes.pure item

/-! ### Strings of fixed size -/

namespace FString

variable {n : ℕ}

def size (_ : FString n) : ℕ := n

def write (s : FString n) : List Byte := s.bulk

def read (n : ℕ) : GatewayM (FString n) := do
  let bytes ← StreamM.readInto (List.replicate n 0)
  if h : bytes.length = n then return ⟨bytes, h⟩ else return ofBytes n []

/-- `read` of a constant: the next mark has to be this one. -/
def expect (s : Mark) : GatewayM Unit := do
  let item ← read 4
  if item ≠ s then throw (.markExpected s item)

theorem consumes_read (s : FString n) : Consumes (read n) s.write s := by
  have hbytes : Consumes (StreamM.readInto (List.replicate n 0) : GatewayM (List Byte)) s.write
      s.bulk := consumes_readInto (by simp [write, s.length_eq])
  refine hbytes.map ?_
  rw [dif_pos s.length_eq]
  exact Consumes.pure s

theorem consumes_expect (s : Mark) : Consumes s.expect s.write () := by
  refine (consumes_read s).map ?_
  rw [if_neg (by simp)]
  exact Consumes.pure ()

end FString

/-! ### Strings of variable size -/

structure VString where
  bulk : List Byte
  deriving DecidableEq

namespace VString

def pad (s : VString) : ℕ := (alignment - s.bulk.length % alignment) % alignment

def size (s : VString) : ℕ := 4 + s.bulk.length + s.pad

def write (s : VString) : Except GatewayError (List Byte) := do
  let length ← writeSize (s.bulk.length + s.pad)
  return length ++ s.bulk ++ List.replicate s.pad 0

/-- Trailing zeros of the buffer count as padding. -/
def read : GatewayM VString := do
  let size ← readSize
  let buffer ← StreamM.readInto (List.replicate size 0)
  return ⟨buffer.rdropWhile (· == 0)⟩

def Trimmed (s : VString) : Prop := s.bulk.getLast? ≠ some 0

instance (s : VString) : Decidable s.Trimmed := inferInstanceAs (Decidable (_ ≠ _))

theorem size_mod (s : VString) : s.size % alignment = 0 := by
  unfold size pad alignment
  omega

def trimmed (s : VString) : VString := ⟨s.bulk.rdropWhile (· == 0)⟩

theorem trimmed_eq {s : VString} (h : s.Trimmed) : s.trimmed = s := by
  unfold trimmed
  congr 1
  rw [List.rdropWhile_eq_self_iff]
  intro hne hlast
  have heq : s.bulk.getLast hne = 0 := by simpa using hlast
  exact h (by rw [List.getLast?_eq_some_getLast hne, heq])

theorem rdropWhile_padded (s : VString) (p : ℕ) :
    (s.bulk ++ List.replicate p 0).rdropWhile (· == 0) = s.trimmed.bulk := by
  induction p with
  | zero => rw [List.replicate_zero, List.append_nil, trimmed]
  | succ p ih =>
    rw [List.replicate_succ', ← List.append_assoc, List.rdropWhile_concat_pos _ _ _ (by simp), ih]

def encoded (s : VString) : List Byte :=
  writeInt (BitVec.ofNat 32 (s.bulk.length + s.pad)) ++ s.bulk ++ List.replicate s.pad 0

theorem encoded_length (s : VString) : s.encoded.length = s.size := by
  simp only [encoded, size, writeInt, List.length_append, List.length_replicate, bigEndian_length]

theorem write_ok {s : VString} (h : s.size ≤ intMax) : s.write = .ok s.encoded := by
  have hle : s.bulk.length + s.pad ≤ intMax := by unfold size at h; omega
  unfold write
  rw [writeSize_ok hle]
  rfl

theorem consumes_read {s : VString} (h : s.size ≤ intMax) : Consumes read s.encoded s.trimmed := by
  have hle : s.bulk.length + s.pad ≤ intMax := by unfold size at h; omega
  unfold encoded
  rw [List.append_assoc]
  refine (consumes_readSize hle).bind ?_
  have hbuffer : Consumes
      (StreamM.readInto (List.replicate (s.bulk.length + s.pad) 0) : GatewayM (List Byte))
      (s.bulk ++ List.replicate s.pad 0) (s.bulk ++ List.replicate s.pad 0) :=
    consumes_readInto (by simp)
  refine hbuffer.map ?_
  rw [rdropWhile_padded]
  exact Consumes.pure s.trimmed

end VString

end Ritex.Gateway
