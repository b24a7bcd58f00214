import Ritex.Protocol

/-! `ComTrafficProcessor::Read` on the serial port. The bytes the line will deliver and the
answers of the system calls are given in advance, so that every chunking and every failure is
one schedule of polls. -/
namespace Ritex

/-- What one turn of the loop in `Read` meets. With `data count pending` the call `read()` hands
over up to `count` bytes while `pending` more already wait in the terminal's queue; in all other
cases it would block, and `select()` gives the answer, except for `failed`. -/
inductive Poll
  | data (count pending : ℕ)
  | ready
  | timeout
  | selectFailed
  | errorFd
  | failed
  deriving DecidableEq, Repr

structure Port where
  echoFifo : List Byte
  incoming : List Byte
  polls : List Poll
  deriving DecidableEq, Repr

inductive ReadError
  | timeout
  | other
  deriving DecidableEq, Repr

def ReadError.code : ReadError → ErrorCode
  | .timeout => .timeout
  | .other => .other

structure Buffer (n : ℕ) where
  bytes : List Byte
  length_eq : bytes.length = n
  deriving DecidableEq

def Buffer.at {n : ℕ} (b : Buffer n) (i : ℕ) : Byte := b.bytes.getD i 0

abbrev ReadResult (n : ℕ) := Except ReadError (Buffer n)

/-- The echo loop of `Read` after a chunk of the given size: while the FIFO holds echo, the last
byte of the buffer is rolled back and compared with it. `none` is a mismatch. -/
def cancelEcho : ℕ → List Byte → List Byte → Option (List Byte × List Byte)
  | 0, fifo, buffer => some (fifo, buffer)
  | _ + 1, [], buffer => some ([], buffer)
  | n + 1, echo :: fifo, buffer =>
    if buffer.getLast? = some echo then cancelEcho n fifo buffer.dropLast else none

/-- The loop of `Read`. A mismatch empties the FIFO and flushes the terminal's queue. -/
def readLoop (length : ℕ) : List Poll → List Byte → List Byte → List Byte →
    Option (ReadResult length) × Port
  | [], fifo, incoming, _ => (none, ⟨fifo, incoming, []⟩)
  | .timeout :: polls, fifo, incoming, _ => (some (.error .timeout), ⟨fifo, incoming, polls⟩)
  | .selectFailed :: polls, fifo, incoming, _ => (some (.error .other), ⟨fifo, incoming, polls⟩)
  | .errorFd :: polls, fifo, incoming, _ => (some (.error .other), ⟨fifo, incoming, polls⟩)
  | .failed :: polls, fifo, incoming, _ => (some (.error .other), ⟨fifo, incoming, polls⟩)
  | .ready :: polls, fifo, incoming, buffer =>
    if h : buffer.length = length then (some (.ok ⟨buffer, h⟩), ⟨fifo, incoming, polls⟩)
    else readLoop length polls fifo incoming buffer
  | .data count pending :: polls, fifo, incoming, buffer =>
    let chunk := incoming.take (min count (length - buffer.length))
    let incoming := incoming.drop chunk.length
    match cancelEcho chunk.length fifo (buffer ++ chunk) with
    | none => (some (.error .other), ⟨[], incoming.drop pending, polls⟩)
    | some (fifo, buffer) =>
      if h : buffer.length = length then (some (.ok ⟨buffer, h⟩), ⟨fifo, incoming, polls⟩)
      else readLoop length polls fifo incoming buffer

/-- `Read(buffer, length, timeout)`; `none` means that it is still waiting when the schedule
ends. -/
def read (length : ℕ) (p : Port) : Option (ReadResult length) × Port :=
  readLoop length p.polls p.echoFifo p.incoming []

@[simp] theorem cancelEcho_empty (n : ℕ) (buffer : List Byte) :
    cancelEcho n [] buffer = some ([], buffer) := by
  cases n <;> rfl

/-! ### Reads that start with an empty FIFO -/

theorem take_append_drop_length (n : ℕ) (xs : List Byte) :
    xs.take n ++ xs.drop (xs.take n).length = xs := by
  rcases le_total n xs.length with h | h
  · rw [List.length_take_of_le h, List.take_append_drop]
  · rw [List.take_of_length_le h, List.drop_length, List.append_nil]

theorem readLoop_data_empty (length count pending : ℕ) (polls : List Poll)
    (incoming buffer : List Byte) :
    readLoop length (.data count pending :: polls) [] incoming buffer =
      let chunk := incoming.take (min count (length - buffer.length))
      let incoming := incoming.drop chunk.length
      if h : (buffer ++ chunk).length = length then
        (some (.ok ⟨buffer ++ chunk, h⟩), ⟨[], incoming, polls⟩)
      else readLoop length polls [] incoming (buffer ++ chunk) := by
  simp only [readLoop, cancelEcho_empty]

theorem readLoop_empty_ok {length : ℕ} {polls : List Poll} {incoming buffer : List Byte}
    {b : Buffer length} {p : Port}
    (h : readLoop length polls [] incoming buffer = (some (.ok b), p)) :
    ∃ bytes, b.bytes = buffer ++ bytes ∧ incoming = bytes ++ p.incoming ∧ p.echoFifo = [] := by
  induction polls generalizing incoming buffer with
  | nil => simp [readLoop] at h
  | cons poll polls ih =>
    cases poll with
    | data count pending =>
      rw [readLoop_data_empty] at h
      dsimp only at h
      split at h
      · simp only [Prod.mk.injEq, Option.some.injEq, Except.ok.injEq] at h
        obtain ⟨rfl, rfl⟩ := h
        exact ⟨_, rfl, (take_append_drop_length _ _).symm, rfl⟩
      · obtain ⟨bytes, hb, hi, hf⟩ := ih h
        refine ⟨incoming.take (min count (length - buffer.length)) ++ bytes, by simp [hb], ?_, hf⟩
        rw [List.append_assoc, ← hi, take_append_drop_length]
    | ready =>
      simp only [readLoop] at h
      split at h
      · simp only [Prod.mk.injEq, Option.some.injEq, Except.ok.injEq] at h
        obtain ⟨rfl, rfl⟩ := h
        exact ⟨[], by simp, rfl, rfl⟩
      · exact ih h
    | timeout => simp [readLoop] at h
    | selectFailed => simp [readLoop] at h
    | errorFd => simp [readLoop] at h
    | failed => simp [readLoop] at h

theorem read_empty_ok {n : ℕ} {p p' : Port} {b : Buffer n} (hp : p.echoFifo = [])
    (h : read n p = (some (.ok b), p')) :
    p.incoming = b.bytes ++ p'.incoming ∧ p'.echoFifo = [] := by
  rw [read, hp] at h
  obtain ⟨bytes, hb, hi, hf⟩ := readLoop_empty_ok h
  simp only [List.nil_append] at hb
  exact ⟨hb ▸ hi, hf⟩

theorem readLoop_empty_fifo (length : ℕ) (polls : List Poll) (incoming buffer : List Byte) :
    (readLoop length polls [] incoming buffer).2.echoFifo = [] := by
  induction polls generalizing incoming buffer with
  | nil => rfl
  | cons poll polls ih =>
    cases poll with
    | data count pending =>
      rw [readLoop_data_empty]
      dsimp only
      split
      · rfl
      · exact ih _ _
    | ready =>
      simp only [readLoop]
      split
      · rfl
      · exact ih _ _
    | timeout => rfl
    | selectFailed => rfl
    | errorFd => rfl
    | failed => rfl

theorem read_empty_fifo (n : ℕ) {p : Port} (hp : p.echoFifo = []) :
    (read n p).2.echoFifo = [] := by
  rw [read, hp]
  exact readLoop_empty_fifo ..

/-! ### Single-byte reads drain the FIFO -/

/-- One turn of a single-byte read against pending echo: the byte that arrives is compared with
the oldest echo and dropped. -/
theorem readLoop_one_echo (count pending : ℕ) (polls : List Poll) (echo : Byte)
    (fifo incoming : List Byte) :
    readLoop 1 (.data count pending :: polls) (echo :: fifo) incoming [] =
      match incoming.take (min count 1) with
      | [] => readLoop 1 polls (echo :: fifo) incoming []
      | b :: _ =>
        if b = echo then readLoop 1 polls fifo incoming.tail []
        else (some (.error .other), ⟨[], incoming.tail.drop pending, polls⟩) := by
  rcases incoming with _ | ⟨b, incoming⟩
  · simp [readLoop, cancelEcho]
  · cases count with
    | zero => simp [readLoop, cancelEcho]
    | succ count => by_cases hb : b = echo <;> simp [readLoop, cancelEcho, hb]

theorem readLoop_one_ok {polls : List Poll} {fifo incoming : List Byte} {b : Buffer 1} {p : Port}
    (h : readLoop 1 polls fifo incoming [] = (some (.ok b), p)) :
    incoming = fifo ++ b.bytes ++ p.incoming ∧ p.echoFifo = [] := by
  induction polls generalizing fifo incoming with
  | nil => simp [readLoop] at h
  | cons poll polls ih =>
    cases fifo with
    | nil =>
      obtain ⟨bytes, hb, hi, hf⟩ := readLoop_empty_ok h
      simp only [List.nil_append] at hb
      exact ⟨by simpa [hb] using hi, hf⟩
    | cons echo fifo =>
      cases poll with
      | data count pending =>
        rw [readLoop_one_echo] at h
        split at h
        · exact ih h
        · rename_i c rest hc
          split at h
          · rename_i hce
            obtain ⟨hi, hf⟩ := ih h
            refine ⟨?_, hf⟩
            cases incoming with
            | nil => simp at hc
            | cons d incoming =>
              have hd : d = c := by
                cases hm : min count 1 with
                | zero => simp [hm] at hc
                | succ m => simpa [hm] using congrArg List.head? hc
              simp only [List.tail_cons] at hi
              rw [hi, hd, hce]
              simp
          · simp at h
      | ready =>
        simp only [readLoop] at h
        simpa using ih h
      | timeout => simp [readLoop] at h
      | selectFailed => simp [readLoop] at h
      | errorFd => simp [readLoop] at h
      | failed => simp [readLoop] at h

theorem read_one_ok {p p' : Port} {b : Buffer 1} (h : read 1 p = (some (.ok b), p')) :
    p.incoming = p.echoFifo ++ b.bytes ++ p'.incoming ∧ p'.echoFifo = [] :=
  readLoop_one_ok h

end Ritex
