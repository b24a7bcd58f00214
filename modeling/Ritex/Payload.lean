import Ritex.Protocol

/-! Computations over the payload of a packet. The bytes are those that `m_pData` points to,
also behind the end of the payload; every computation records the offsets it reads. -/
namespace Ritex

/-- A computation that reads bytes behind a pointer and yields its result and the offsets. -/
def PayloadReader (α : Type) := (ℕ → Byte) → α × List ℕ

namespace PayloadReader

variable {α β : Type}

instance : Monad PayloadReader where
  pure a := fun _ => (a, [])
  bind x f := fun memory => (((f (x memory).1) memory).1, (x memory).2 ++ ((f (x memory).1) memory).2)

def byte (offset : ℕ) : PayloadReader Byte := fun memory => (memory offset, [offset])

/-- An unsigned short copied from `pData + offset` and swapped. -/
def word (offset : ℕ) : PayloadReader Word := do
  let first ← byte offset
  let second ← byte (offset + 1)
  pure (swap16 (ofMemory first second))

def value (x : PayloadReader α) (memory : ℕ → Byte) : α := (x memory).1

def reads (x : PayloadReader α) (memory : ℕ → Byte) : List ℕ := (x memory).2

@[simp] theorem reads_pure (a : α) (memory : ℕ → Byte) :
    (pure a : PayloadReader α).reads memory = [] := rfl

@[simp] theorem reads_bind (x : PayloadReader α) (f : α → PayloadReader β) (memory : ℕ → Byte) :
    (x >>= f).reads memory = x.reads memory ++ (f (x.value memory)).reads memory := rfl

@[simp] theorem reads_byte (offset : ℕ) (memory : ℕ → Byte) :
    (byte offset).reads memory = [offset] := rfl

@[simp] theorem reads_word (offset : ℕ) (memory : ℕ → Byte) :
    (word offset).reads memory = [offset, offset + 1] := rfl

/-- Whatever lies in memory, the computation reads no byte from `size` on. -/
def Inside (size : ℕ) (x : PayloadReader α) : Prop := ∀ memory, ∀ i ∈ x.reads memory, i < size

end PayloadReader

/-- The bytes behind `m_pData` when `beyond` follows the payload. -/
def DataPacket.memory (p : DataPacket) (beyond : ℕ → Byte) (offset : ℕ) : Byte :=
  p.data.getD offset (beyond offset)

end Ritex
