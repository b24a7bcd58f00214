import Ritex.GatewayData

/-! Packets of the gateway protocol: a length, the records and, for most record types, a
terminator behind each record. -/
namespace Ritex.Gateway
open Streams

/-- What `write_packet` and `read_packet` ask of a record type. -/
class PacketItem (α : Type) where
  size : α → ℕ
  write : α → Except GatewayError (List Byte)
  read : GatewayM α

/-! ### Records -/

structure Channel where
  bulk : BitVec 32
  deriving DecidableEq

structure Sample where
  id : BitVec 32
  channel : Channel
  date : Date
  value : BitVec 32
  deriving DecidableEq

structure Event where
  id : BitVec 32
  channel : Channel
  date : Date
  arg1 : VString
  arg2 : VString
  arg3 : VString
  arg4 : VString
  deriving DecidableEq

def Channel.write (c : Channel) : List Byte := writeInt c.bulk

def Channel.read : GatewayM Channel := do
  let bulk ← readInt
  return ⟨bulk⟩

instance : PacketItem Channel where
  size _ := 4
  write c := .ok c.write
  read := Channel.read

def Sample.write (s : Sample) : List Byte :=
  writeInt s.id ++ (s.channel.write ++ (s.date.write ++ writeInt s.value))

def Sample.read : GatewayM Sample := do
  let id ← readInt
  let channel ← Channel.read
  let date ← FString.read 20
  let value ← readInt
  return ⟨id, channel, date, value⟩

instance : PacketItem Sample where
  size s := 4 + 4 + s.date.size + 4
  write s := .ok s.write
  read := Sample.read

def Event.size (e : Event) : ℕ :=
  4 + 4 + e.date.size + e.arg1.size + e.arg2.size + e.arg3.size + e.arg4.size

def Event.write (e : Event) : Except GatewayError (List Byte) := do
  let arg1 ← e.arg1.write
  let arg2 ← e.arg2.write
  let arg3 ← e.arg3.write
  let arg4 ← e.arg4.write
  return writeInt e.id ++ (e.channel.write ++ (e.date.write ++ (arg1 ++ (arg2 ++ (arg3 ++ arg4)))))

def Event.read : GatewayM Event := do
  let id ← readInt
  let channel ← Channel.read
  let date ← FString.read 20
  let arg1 ← VString.read
  let arg2 ← VString.read
  let arg3 ← VString.read
  let arg4 ← VString.read
  return ⟨id, channel, date, arg1, arg2, arg3, arg4⟩

instance : PacketItem Event where
  size := Event.size
  write := Event.write
  read := Event.read

instance : PacketItem VString where
  size := VString.size
  write := VString.write
  read := VString.read

/-! ### Packets -/

variable {α : Type} [PacketItem α]

def writeRecord (useEors : Bool) (item : α) : Except GatewayError (List Byte) := do
  let bytes ← PacketItem.write item
  return if useEors then bytes ++ eor.write else bytes

def packetSize (items : List α) (useEors : Bool) : ℕ :=
  let total := sizeT (items.map PacketItem.size).sum
  sizeT (total + if useEors then eor.size * items.length else 0 : ℕ)

def writePacket (items : List α) (useEors : Bool) : Except GatewayError (List Byte) := do
  let length ← writeSize (packetSize items useEors)
  let records ← items.mapM (writeRecord useEors)
  return length ++ records.flatten

def readRecord (useEors : Bool) : GatewayM α := do
  let item ← PacketItem.read
  if useEors then eor.expect
  return item

/-- One test and round of the loop in `read_packet`. -/
def readRound (useEors : Bool) (start : ℤ) (size : ℕ) (items : List α) :
    GatewayM (List α ⊕ List α) := do
  let pos ← StreamM.tellg
  if sizeT (pos - start) < size then
    let item ← readRecord useEors
    return .inl (items ++ [item])
  else return .inr items

def readPacket (useEors : Bool) (fuel : ℕ) : GatewayM (List α) := do
  let size ← readSize
  if size % alignment ≠ 0 then throw (.notAligned size)
  let start ← StreamM.tellg
  let items ← StreamM.loop (readRound useEors start size) fuel []
  let pos ← StreamM.tellg
  if sizeT (pos - start) ≠ size then throw .packetEnd
  return items

/-! ### Records that read back -/

/-- The record is written in as many bytes as it announces, a positive multiple of the
alignment, and read back from them. -/
structure RecordRoundTrips (item : α) (bytes : List Byte) : Prop where
  write : PacketItem.write item = .ok bytes
  length_eq : bytes.length = PacketItem.size item
  aligned : bytes.length % alignment = 0
  pos : 0 < bytes.length
  read : Consumes PacketItem.read bytes item

structure RecordWrites (item : α) (bytes : List Byte) : Prop where
  write : PacketItem.write item = .ok bytes
  length_eq : bytes.length = PacketItem.size item

structure RecordReads (item : α) (bytes : List Byte) : Prop where
  aligned : bytes.length % alignment = 0
  pos : 0 < bytes.length
  read : Consumes PacketItem.read bytes item

theorem RecordRoundTrips.writes {item : α} {bytes : List Byte} (h : RecordRoundTrips item bytes) :
    RecordWrites item bytes :=
  ⟨h.write, h.length_eq⟩

theorem RecordRoundTrips.reads {item : α} {bytes : List Byte} (h : RecordRoundTrips item bytes) :
    RecordReads item bytes :=
  ⟨h.aligned, h.pos, h.read⟩

theorem RecordWrites.roundTrips {item : α} {bytes : List Byte} (hw : RecordWrites item bytes)
    (hr : RecordReads item bytes) : RecordRoundTrips item bytes :=
  ⟨hw.write, hw.length_eq, hr.aligned, hr.pos, hr.read⟩

theorem Channel.consumes_read (c : Channel) : Consumes Channel.read c.write c :=
  (consumes_readInt c.bulk).map (Consumes.pure c)

theorem Channel.write_length (c : Channel) : c.write.length = 4 := bigEndian_length c.bulk

theorem channel_roundTrips (c : Channel) : RecordRoundTrips c c.write where
  write := rfl
  length_eq := c.write_length
  aligned := by rw [c.write_length]; rfl
  pos := by rw [c.write_length]; decide
  read := c.consumes_read

theorem Sample.write_length (s : Sample) : s.write.length = 32 := by
  simp [Sample.write, Channel.write, writeInt, bigEndian_length, FString.write, s.date.length_eq]

theorem sample_roundTrips (s : Sample) : RecordRoundTrips s s.write where
  write := rfl
  length_eq := s.write_length
  aligned := by rw [s.write_length]; rfl
  pos := by rw [s.write_length]; decide
  read := by
    show Consumes Sample.read s.write s
    refine (consumes_readInt s.id).bind ?_
    refine s.channel.consumes_read.bind ?_
    refine s.date.consumes_read.bind ?_
    exact (consumes_readInt s.value).map (Consumes.pure s)

theorem vstring_writes {s : VString} (h : s.size ≤ intMax) : RecordWrites s s.encoded :=
  ⟨VString.write_ok h, s.encoded_length⟩

theorem vstring_reads {s : VString} (h : s.size ≤ intMax) : RecordReads s.trimmed s.encoded where
  aligned := by rw [s.encoded_length, s.size_mod]
  pos := by rw [s.encoded_length]; unfold VString.size; omega
  read := VString.consumes_read h

theorem vstring_roundTrips {s : VString} (ht : s.Trimmed) (h : s.size ≤ intMax) :
    RecordRoundTrips s s.encoded := by
  have hreads := vstring_reads h
  rw [VString.trimmed_eq ht] at hreads
  exact (vstring_writes h).roundTrips hreads

def Event.Trimmed (e : Event) : Prop :=
  e.arg1.Trimmed ∧ e.arg2.Trimmed ∧ e.arg3.Trimmed ∧ e.arg4.Trimmed

instance (e : Event) : Decidable e.Trimmed := inferInstanceAs (Decidable (_ ∧ _ ∧ _ ∧ _))

def Event.encoded (e : Event) : List Byte :=
  writeInt e.id ++ (e.channel.write ++ (e.date.write ++
    (e.arg1.encoded ++ (e.arg2.encoded ++ (e.arg3.encoded ++ e.arg4.encoded)))))

theorem Event.encoded_length (e : Event) : e.encoded.length = e.size := by
  simp only [Event.encoded, Event.size, List.length_append, VString.encoded_length, writeInt,
    Channel.write, bigEndian_length, FString.write, e.date.length_eq, FString.size]
  omega

def Event.trimmed (e : Event) : Event :=
  { e with arg1 := e.arg1.trimmed, arg2 := e.arg2.trimmed, arg3 := e.arg3.trimmed,
           arg4 := e.arg4.trimmed }

theorem Event.trimmed_eq {e : Event} (h : e.Trimmed) : e.trimmed = e := by
  obtain ⟨h1, h2, h3, h4⟩ := h
  unfold Event.trimmed
  rw [VString.trimmed_eq h1, VString.trimmed_eq h2, VString.trimmed_eq h3, VString.trimmed_eq h4]

theorem Event.args_size_le {e : Event} (h : e.size ≤ intMax) :
    e.arg1.size ≤ intMax ∧ e.arg2.size ≤ intMax ∧ e.arg3.size ≤ intMax ∧ e.arg4.size ≤ intMax := by
  unfold Event.size at h
  omega

theorem event_writes {e : Event} (h : e.size ≤ intMax) : RecordWrites e e.encoded := by
  obtain ⟨h1, h2, h3, h4⟩ := Event.args_size_le h
  refine ⟨?_, e.encoded_length⟩
  show e.write = _
  unfold Event.write
  rw [VString.write_ok h1, VString.write_ok h2, VString.write_ok h3, VString.write_ok h4]
  rfl

theorem event_reads {e : Event} (h : e.size ≤ intMax) : RecordReads e.trimmed e.encoded := by
  obtain ⟨h1, h2, h3, h4⟩ := Event.args_size_le h
  refine ⟨?_, ?_, ?_⟩
  · have m1 := e.arg1.size_mod
    have m2 := e.arg2.size_mod
    have m3 := e.arg3.size_mod
    have m4 := e.arg4.size_mod
    rw [e.encoded_length]
    unfold alignment at *
    unfold Event.size FString.size
    omega
  · rw [e.encoded_length]
    unfold Event.size
    omega
  · show Consumes Event.read e.encoded e.trimmed
    refine (consumes_readInt e.id).bind ?_
    refine e.channel.consumes_read.bind ?_
    refine e.date.consumes_read.bind ?_
    refine (VString.consumes_read h1).bind ?_
    refine (VString.consumes_read h2).bind ?_
    refine (VString.consumes_read h3).bind ?_
    exact (VString.consumes_read h4).map (Consumes.pure e.trimmed)

theorem event_roundTrips {e : Event} (ht : e.Trimmed) (h : e.size ≤ intMax) :
    RecordRoundTrips e e.encoded := by
  have hreads := event_reads h
  rw [Event.trimmed_eq ht] at hreads
  exact (event_writes h).roundTrips hreads

end Ritex.Gateway
