import Ritex.GatewayPacket

/-! Reading back a packet: the loop in `read_packet` is driven by the position in the stream and
takes exactly the records that `write_packet` has written. -/
namespace Ritex.Gateway
open Streams

variable {α : Type} [PacketItem α]

def terminated (useEors : Bool) (bytes : List Byte) : List Byte :=
  if useEors then bytes ++ eor.write else bytes

def packetBody (useEors : Bool) (records : List (List Byte)) : List Byte :=
  (records.map (terminated useEors)).flatten

/-- The bytes of the records and of their terminators, not wrapped to `size_t`. -/
def encodedSize (useEors : Bool) (items : List α) : ℕ :=
  (items.map PacketItem.size).sum + if useEors then eor.size * items.length else 0

/-- The length field counts the bytes behind it, and a read of the packet yields the records and
leaves what follows. -/
structure PacketRoundTrips (useEors : Bool) (items : List α) (body : List Byte) : Prop where
  length_le : body.length ≤ intMax
  write : writePacket items useEors = .ok (writeInt (BitVec.ofNat 32 body.length) ++ body)
  read : ∀ fuel > items.length,
    Consumes (readPacket useEors fuel) (writeInt (BitVec.ofNat 32 body.length) ++ body) items

theorem terminated_length (useEors : Bool) (bytes : List Byte) :
    (terminated useEors bytes).length = bytes.length + if useEors then eor.size else 0 := by
  cases useEors with
  | false => rfl
  | true =>
    rw [terminated, if_pos rfl, if_pos rfl, List.length_append]
    rfl

@[simp] theorem packetBody_nil (useEors : Bool) : packetBody useEors [] = [] := rfl

@[simp] theorem packetBody_cons (useEors : Bool) (bytes : List Byte) (records : List (List Byte)) :
    packetBody useEors (bytes :: records) = terminated useEors bytes ++ packetBody useEors records :=
  rfl

theorem sizeT_of_lt {n : ℕ} (h : n < 2 ^ 32) : sizeT n = n := by
  unfold sizeT
  omega

/-! ### Writing -/

theorem writeRecords_ok {useEors : Bool} {items : List α} {records : List (List Byte)}
    (h : List.Forall₂ RecordWrites items records) :
    items.mapM (writeRecord useEors) = .ok (records.map (terminated useEors)) := by
  induction h with
  | nil => rfl
  | @cons item bytes items records hitem _ ih =>
    have hrecord : writeRecord useEors item = .ok (terminated useEors bytes) := by
      unfold writeRecord
      rw [hitem.write]
      rfl
    rw [List.mapM_cons, hrecord, ih]
    rfl

theorem packetBody_length (useEors : Bool) {items : List α} {records : List (List Byte)}
    (h : List.Forall₂ RecordWrites items records) :
    (packetBody useEors records).length = encodedSize useEors items := by
  induction h with
  | nil => cases useEors <;> rfl
  | @cons item bytes items records hitem _ ih =>
    rw [packetBody_cons, List.length_append, terminated_length, ih, hitem.length_eq]
    cases useEors
    · simp [encodedSize]
    · simp [encodedSize]
      ring

theorem packetSize_eq {useEors : Bool} {items : List α} (h : encodedSize useEors items < 2 ^ 32) :
    packetSize items useEors = encodedSize useEors items := by
  have htotal : (items.map PacketItem.size).sum < 2 ^ 32 := by unfold encodedSize at h; omega
  unfold packetSize
  rw [sizeT_of_lt htotal]
  exact sizeT_of_lt h

theorem writePacket_ok {useEors : Bool} {items : List α} {records : List (List Byte)}
    (h : List.Forall₂ RecordWrites items records) (hle : encodedSize useEors items ≤ intMax) :
    writePacket items useEors =
      .ok (writeInt (BitVec.ofNat 32 (packetBody useEors records).length) ++
        packetBody useEors records) := by
  have hlt : encodedSize useEors items < 2 ^ 32 := by unfold intMax at hle; omega
  unfold writePacket
  rw [packetSize_eq hlt, writeSize_ok hle, writeRecords_ok h, packetBody_length _ h]
  rfl

/-! ### Reading -/

theorem consumes_readRecord {useEors : Bool} {item : α} {bytes : List Byte}
    (h : RecordReads item bytes) :
    Consumes (readRecord useEors) (terminated useEors bytes) item := by
  cases useEors with
  | false => exact h.read.map (Consumes.pure item)
  | true => exact h.read.bind ((FString.consumes_expect eor).map (Consumes.pure item))

theorem tellg_good (unread : List Byte) (pos : ℕ) (garbage : ℕ → Byte) :
    (StreamM.tellg : GatewayM ℤ) ⟨unread, pos, false, garbage⟩ =
      some (.ok ((pos : ℤ), ⟨unread, pos, false, garbage⟩)) := rfl

theorem readRound_record (useEors : Bool) {item : α} {bytes : List Byte}
    (h : RecordReads item bytes) (items : List α) {start consumed size : ℕ}
    (hlt : consumed < size) (hsize : size < 2 ^ 32) (rest : List Byte) (garbage : ℕ → Byte) :
    ∃ garbage', readRound useEors start size items
      ⟨terminated useEors bytes ++ rest, start + consumed, false, garbage⟩ =
      some (.ok (.inl (items ++ [item]),
        ⟨rest, start + consumed + (terminated useEors bytes).length, false, garbage'⟩)) := by
  have hpos : sizeT (((start + consumed : ℕ) : ℤ) - start) < size := by
    unfold sizeT
    omega
  have hround : Consumes (do
      let item ← readRecord useEors
      return .inl (items ++ [item]) : GatewayM (List α ⊕ List α))
      (terminated useEors bytes) (.inl (items ++ [item])) :=
    (consumes_readRecord h).map (Consumes.pure _)
  obtain ⟨garbage', hg⟩ := hround rest (start + consumed) garbage
  refine ⟨garbage', ?_⟩
  unfold readRound
  rw [run_bind_ok (tellg_good _ _ _), if_pos hpos, hg]

theorem readRound_end (useEors : Bool) (items : List α) {start size : ℕ} (hsize : size < 2 ^ 32)
    (rest : List Byte) (garbage : ℕ → Byte) :
    readRound useEors start size items ⟨rest, start + size, false, garbage⟩ =
      some (.ok (.inr items, ⟨rest, start + size, false, garbage⟩)) := by
  have hpos : ¬sizeT (((start + size : ℕ) : ℤ) - start) < size := by
    unfold sizeT
    omega
  unfold readRound
  rw [run_bind_ok (tellg_good _ _ _), if_neg hpos]
  rfl

/-- Induction on the records that are left: `consumed` bytes of the packet have been read. -/
theorem loop_readRound {useEors : Bool} {items : List α} {records : List (List Byte)}
    (h : List.Forall₂ RecordReads items records) (start : ℕ) {size : ℕ} (hsize : size < 2 ^ 32)
    (rest : List Byte) (fuel consumed : ℕ) (done : List α) (garbage : ℕ → Byte)
    (hfuel : items.length < fuel) (hleft : consumed + (packetBody useEors records).length = size) :
    ∃ garbage', StreamM.loop (readRound useEors start size) fuel done
      ⟨packetBody useEors records ++ rest, start + consumed, false, garbage⟩ =
      some (.ok (done ++ items, ⟨rest, start + size, false, garbage'⟩)) := by
  induction h generalizing fuel consumed done garbage with
  | nil =>
    obtain ⟨fuel, rfl⟩ := Nat.exists_eq_add_one_of_ne_zero (Nat.ne_zero_of_lt hfuel)
    have hconsumed : consumed = size := by simpa using hleft
    subst hconsumed
    refine ⟨garbage, ?_⟩
    rw [StreamM.loop_inr (readRound_end useEors done hsize _ garbage), List.append_nil]
    rfl
  | @cons item bytes items records hitem _ ih =>
    obtain ⟨fuel, rfl⟩ := Nat.exists_eq_add_one_of_ne_zero (Nat.ne_zero_of_lt hfuel)
    rw [packetBody_cons, List.length_append] at hleft
    have hpos : 0 < (terminated useEors bytes).length := by
      rw [terminated_length]
      exact Nat.add_pos_left hitem.pos _
    obtain ⟨garbage₁, hround⟩ := readRound_record useEors hitem done
      (by omega : consumed < size) hsize (packetBody useEors records ++ rest) garbage
    obtain ⟨garbage₂, hloop⟩ := ih fuel (consumed + (terminated useEors bytes).length)
      (done ++ [item]) garbage₁ (Nat.lt_of_succ_lt_succ hfuel) (by omega)
    refine ⟨garbage₂, ?_⟩
    rw [packetBody_cons, List.append_assoc, StreamM.loop_inl hround, Nat.add_assoc, hloop,
      List.append_assoc]
    rfl

theorem packetBody_aligned (useEors : Bool) {items : List α} {records : List (List Byte)}
    (h : List.Forall₂ RecordReads items records) :
    (packetBody useEors records).length % alignment = 0 := by
  induction h with
  | nil => rfl
  | @cons item bytes items records hitem _ ih =>
    have haligned := hitem.aligned
    rw [packetBody_cons, List.length_append, terminated_length]
    unfold alignment at *
    cases useEors <;> simp [FString.size] <;> omega

theorem consumes_readPacket {useEors : Bool} {items : List α} {records : List (List Byte)}
    (h : List.Forall₂ RecordReads items records)
    (hle : (packetBody useEors records).length ≤ intMax) {fuel : ℕ} (hfuel : items.length < fuel) :
    Consumes (readPacket useEors fuel)
      (writeInt (BitVec.ofNat 32 (packetBody useEors records).length) ++
        packetBody useEors records) items := by
  have hlt : (packetBody useEors records).length < 2 ^ 32 := by
    unfold intMax at hle
    omega
  unfold readPacket
  refine (consumes_readSize hle).bind ?_
  rw [if_neg (by rw [packetBody_aligned useEors h]; decide)]
  intro rest pos garbage
  obtain ⟨garbage', hloop⟩ := loop_readRound h pos hlt rest fuel 0 [] garbage hfuel
    (Nat.zero_add _)
  rw [Nat.add_zero, List.nil_append] at hloop
  have hend : sizeT (((pos + (packetBody useEors records).length : ℕ) : ℤ) - pos) =
      (packetBody useEors records).length := by
    unfold sizeT
    omega
  refine ⟨garbage', ?_⟩
  beta_reduce
  rw [run_bind_ok (tellg_good _ _ _), run_bind_ok hloop, run_bind_ok (tellg_good _ _ _),
    if_neg (by rw [hend]; simp)]
  rfl

theorem packet_roundTrips {useEors : Bool} {items : List α} {records : List (List Byte)}
    (h : List.Forall₂ RecordRoundTrips items records) (hle : encodedSize useEors items ≤ intMax) :
    PacketRoundTrips useEors items (packetBody useEors records) := by
  have hwrites := h.imp fun _ _ => RecordRoundTrips.writes
  have hlength := (packetBody_length useEors hwrites).trans_le hle
  exact ⟨hlength, writePacket_ok hwrites hle,
    fun _ => consumes_readPacket (h.imp fun _ _ => RecordRoundTrips.reads) hlength⟩

theorem packet_roundTrips_of_encode {useEors : Bool} {items : List α} (encode : α → List Byte)
    (h : ∀ item ∈ items, RecordRoundTrips item (encode item))
    (hle : encodedSize useEors items ≤ intMax) :
    ∃ body, PacketRoundTrips useEors items body := by
  have hrecords : List.Forall₂ RecordRoundTrips items (items.map encode) := by
    rw [List.forall₂_map_right_iff, List.forall₂_same]
    exact h
  exact ⟨_, packet_roundTrips hrecords hle⟩

theorem size_le_encodedSize {useEors : Bool} {items : List α} {item : α} (h : item ∈ items) :
    PacketItem.size item ≤ encodedSize useEors items := by
  have hsum := List.le_sum_of_mem (List.mem_map_of_mem (f := PacketItem.size) h)
  unfold encodedSize
  omega

/-! ### The packets of the commands -/

/-- Records of every type that a command carries survive the packet, with terminators or, for
channels, without. -/
theorem packetCodec_roundTrips :
    (∀ samples : List Sample, encodedSize true samples ≤ intMax →
      ∃ body, PacketRoundTrips true samples body) ∧
    (∀ events : List Event, (∀ e ∈ events, e.Trimmed) → encodedSize true events ≤ intMax →
      ∃ body, PacketRoundTrips true events body) ∧
    (∀ names : List VString, (∀ s ∈ names, s.Trimmed) → encodedSize true names ≤ intMax →
      ∃ body, PacketRoundTrips true names body) ∧
    (∀ channels : List Channel, encodedSize false channels ≤ intMax →
      ∃ body, PacketRoundTrips false channels body) := by
  refine ⟨?_, ?_, ?_, ?_⟩
  · intro samples hle
    exact packet_roundTrips_of_encode Sample.write (fun s _ => sample_roundTrips s) hle
  · intro events ht hle
    refine packet_roundTrips_of_encode Event.encoded (fun e he => ?_) hle
    exact event_roundTrips (ht e he) ((size_le_encodedSize he).trans hle)
  · intro names ht hle
    refine packet_roundTrips_of_encode VString.encoded (fun s hs => ?_) hle
    exact vstring_roundTrips (ht s hs) ((size_le_encodedSize hs).trans hle)
  · intro channels hle
    exact packet_roundTrips_of_encode Channel.write (fun c _ => channel_roundTrips c) hle

/-- Two names, one of them with the bytes of the terminator inside and one empty. -/
theorem packetCodec_roundTrips_names :
    ∃ body, PacketRoundTrips true [VString.mk [0x41, 0x24, 0x80, 0x80, 0x80], VString.mk []] body :=
  packetCodec_roundTrips.2.2.1 _ (by decide) (by decide)

end Ritex.Gateway
