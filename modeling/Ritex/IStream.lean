import Mathlib

/-! Input streams of bytes as the standard library has them: a read that the stream cannot serve
in full takes what is there and sets the fail bit, and a failed stream serves nothing and has
position -1. Memory that a program reads into without initialising it holds arbitrary bytes. -/
namespace Ritex.Streams

abbrev Byte := BitVec 8

structure IStream where
  unread : List Byte
  pos : ℕ
  failed : Bool
  /-- What uninitialised memory holds, in the order of its use. -/
  garbage : ℕ → Byte

/-- Stream programs: they may throw, and `none` is a loop cut at its bound. -/
abbrev StreamM (ε α : Type) := StateT IStream (ExceptT ε Option) α

variable {ε α β : Type}

namespace StreamM

/-- `istream::read` of `n` characters: the characters extracted. -/
def read (n : ℕ) : StreamM ε (List Byte) := fun s =>
  if s.failed then pure ([], s)
  else if n ≤ s.unread.length then
    pure (s.unread.take n, { s with unread := s.unread.drop n, pos := s.pos + n })
  else pure (s.unread, { s with
    unread := [], pos := s.pos + s.unread.length, failed := true })

def tellg : StreamM ε ℤ := fun s => pure (if s.failed then -1 else (s.pos : ℤ), s)

/-- A block of `n` bytes that nothing has initialised. -/
def uninitialised (n : ℕ) : StreamM ε (List Byte) := fun s =>
  pure ((List.range n).map s.garbage, { s with garbage := fun i => s.garbage (i + n) })

/-- Read over a block of memory; what is not read keeps its bytes. -/
def readInto (memory : List Byte) : StreamM ε (List Byte) := do
  let bytes ← read memory.length
  return bytes ++ memory.drop bytes.length

def cut : StreamM ε α := fun _ => (none : Option (Except ε (α × IStream)))

/-- A loop of at most `n` rounds that ends with `inr`. -/
def loop (body : α → StreamM ε (α ⊕ β)) : ℕ → α → StreamM ε β
  | 0, _ => cut
  | n + 1, a => do
    match ← body a with
    | .inl a' => loop body n a'
    | .inr b => return b

end StreamM

/-! ### Programs that consume a string -/

/-- On a good stream that starts with `bytes`, the program yields `a`, has consumed exactly
`bytes` and leaves the stream good. -/
def Consumes (p : StreamM ε α) (bytes : List Byte) (a : α) : Prop :=
  ∀ (rest : List Byte) (pos : ℕ) (garbage : ℕ → Byte), ∃ garbage',
    p ⟨bytes ++ rest, pos, false, garbage⟩ =
      some (.ok (a, ⟨rest, pos + bytes.length, false, garbage'⟩))

theorem run_bind_ok {p : StreamM ε α} {f : α → StreamM ε β} {s s' : IStream} {a : α}
    (h : p s = some (.ok (a, s'))) : (p >>= f) s = f a s' := by
  simp only [bind, StateT.bind, ExceptT.bind, ExceptT.mk]
  rw [h]
  rfl

namespace StreamM

theorem loop_inl {body : α → StreamM ε (α ⊕ β)} {n : ℕ} {a a' : α} {s s' : IStream}
    (h : body a s = some (.ok (.inl a', s'))) : loop body (n + 1) a s = loop body n a' s' := by
  rw [loop, run_bind_ok h]

theorem loop_inr {body : α → StreamM ε (α ⊕ β)} {n : ℕ} {a : α} {b : β} {s s' : IStream}
    (h : body a s = some (.ok (.inr b, s'))) :
    loop body (n + 1) a s = some (.ok (b, s')) := by
  rw [loop, run_bind_ok h]
  rfl

end StreamM

theorem Consumes.pure (a : α) : Consumes (pure a : StreamM ε α) [] a :=
  fun _ _ garbage => ⟨garbage, rfl⟩

theorem Consumes.bind {p : StreamM ε α} {f : α → StreamM ε β} {xs ys : List Byte} {a : α} {b : β}
    (hp : Consumes p xs a) (hf : Consumes (f a) ys b) : Consumes (p >>= f) (xs ++ ys) b := by
  intro rest pos garbage
  obtain ⟨garbage₁, h₁⟩ := hp (ys ++ rest) pos garbage
  obtain ⟨garbage₂, h₂⟩ := hf rest (pos + xs.length) garbage₁
  refine ⟨garbage₂, ?_⟩
  rw [List.append_assoc, run_bind_ok h₁, h₂, List.length_append, Nat.add_assoc]

theorem Consumes.map {p : StreamM ε α} {f : α → StreamM ε β} {xs : List Byte} {a : α} {b : β}
    (hp : Consumes p xs a) (hf : Consumes (f a) [] b) : Consumes (p >>= f) xs b := by
  have h := hp.bind hf
  rwa [List.append_nil] at h

theorem Consumes.after {p : StreamM ε α} {f : α → StreamM ε β} {xs : List Byte} {a : α} {b : β}
    (hp : Consumes p [] a) (hf : Consumes (f a) xs b) : Consumes (p >>= f) xs b :=
  hp.bind hf

theorem Consumes.unique {p : StreamM ε α} {bytes : List Byte} {a b : α} (ha : Consumes p bytes a)
    (hb : Consumes p bytes b) : a = b := by
  obtain ⟨_, h₁⟩ := ha [] 0 fun _ => 0
  obtain ⟨_, h₂⟩ := hb [] 0 fun _ => 0
  have heq := Except.ok.inj (Option.some.inj (h₁.symm.trans h₂))
  exact congrArg Prod.fst heq

theorem consumes_read {n : ℕ} {bytes : List Byte} (h : bytes.length = n) :
    Consumes (StreamM.read n : StreamM ε (List Byte)) bytes bytes := by
  intro rest pos garbage
  refine ⟨garbage, ?_⟩
  subst h
  simp [StreamM.read]
  rfl

theorem consumes_readInto {memory bytes : List Byte} (h : bytes.length = memory.length) :
    Consumes (StreamM.readInto memory : StreamM ε (List Byte)) bytes bytes := by
  have hlast : Consumes (Pure.pure (bytes ++ memory.drop bytes.length) :
      StreamM ε (List Byte)) [] bytes := by
    rw [h, List.drop_length, List.append_nil]
    exact Consumes.pure bytes
  exact (consumes_read h).map hlast

theorem consumes_uninitialised {n : ℕ} {f : List Byte → StreamM ε β} {xs : List Byte} {b : β}
    (hf : ∀ memory, memory.length = n → Consumes (f memory) xs b) :
    Consumes (StreamM.uninitialised n >>= f) xs b := by
  intro rest pos garbage
  have hlen : ((List.range n).map garbage).length = n := by simp
  exact hf _ hlen rest pos _

end Ritex.Streams
