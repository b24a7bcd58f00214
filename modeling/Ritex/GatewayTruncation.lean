import Ritex.GatewayCommand
import Ritex.StreamPrefix

/-! Reading commands from streams that hold no command. -/
namespace Ritex.Gateway
open Streams

/-! ### Items -/

theorem tame_readInt : Tame readInt :=
  (Tame.uninitialised 4).bind fun memory => (Tame.readInto memory).bind fun _ => .pure _

theorem tame_readSize : Tame readSize :=
  tame_readInt.bind fun _ => .ite ((Tame.throw _).bind fun _ => .pure _) (.pure _)

theorem FString.tame_read (n : ℕ) : Tame (FString.read n) := by
  refine (Tame.readInto _).bind fun bytes => ?_
  split
  · exact .pure _
  · exact .pure _

theorem FString.tame_expect (s : Mark) : Tame s.expect :=
  (FString.tame_read 4).bind fun _ => .ite (.throw _) (.pure _)

theorem VString.tame_read : Tame VString.read :=
  tame_readSize.bind fun _ => (Tame.readInto _).bind fun _ => .pure _

theorem Channel.tame_read : Tame Channel.read := tame_readInt.bind fun _ => .pure _

theorem Sample.tame_read : Tame Sample.read :=
  tame_readInt.bind fun _ => Channel.tame_read.bind fun _ => (FString.tame_read 20).bind fun _ =>
    tame_readInt.bind fun _ => .pure _

theorem Event.tame_read : Tame Event.read :=
  tame_readInt.bind fun _ => Channel.tame_read.bind fun _ => (FString.tame_read 20).bind fun _ =>
    VString.tame_read.bind fun _ => VString.tame_read.bind fun _ => VString.tame_read.bind fun _ =>
      VString.tame_read.bind fun _ => .pure _

/-! ### Marks -/

/-- The mark that is read next: characters that are missing are zero. -/
def nextMark (s : IStream) : Mark :=
  ⟨s.available.take 4 ++ (List.replicate 4 0).drop s.available.length, by simp; omega⟩

theorem read_mark (s : IStream) :
    FString.read 4 s = some (.ok (nextMark s, s.advance 4)) := by
  unfold FString.read
  rw [run_bind_ok (readInto_eq _ s)]
  have hlength : (s.available.take (List.replicate 4 (0 : Byte)).length ++
      (List.replicate 4 0).drop s.available.length).length = 4 := (nextMark s).length_eq
  rw [dif_pos hlength]
  rfl

theorem available_of_nextMark {s : IStream} (h : (nextMark s).bulk.getLast? ≠ some 0) :
    4 ≤ s.available.length := by
  by_contra hlt
  have hlast : (nextMark s).bulk.getLast? = some 0 := by
    show (s.available.take 4 ++ (List.replicate 4 0).drop s.available.length).getLast? = some 0
    obtain ⟨k, hk⟩ : ∃ k, 4 - s.available.length = k + 1 := ⟨3 - s.available.length, by omega⟩
    rw [List.drop_replicate, hk, List.replicate_succ', ← List.append_assoc,
      List.getLast?_append]
    rfl
  exact h hlast

theorem unread_advance {s : IStream} {n : ℕ} (h : n ≤ s.available.length) :
    (s.advance n).unread.length + n = s.unread.length ∨ n = 0 := by
  by_cases hs : s.failed = true
  · rw [available_failed hs] at h
    exact .inr (by simpa using h)
  · have hgood : s.failed = false := by simpa using hs
    rw [available_good hgood] at h
    unfold IStream.advance
    rw [if_neg hs, List.length_drop]
    omega

theorem expect_eor {s s' : IStream} (h : eor.expect s = some (.ok ((), s'))) :
    s'.unread.length < s.unread.length := by
  obtain ⟨m, s₁, hread, hcheck⟩ := run_bind_eq_ok h
  rw [read_mark] at hread
  cases hread
  by_cases hm : nextMark s = eor
  · rw [if_neg (by simp [hm])] at hcheck
    cases hcheck
    have havailable := available_of_nextMark (s := s) (by rw [hm]; decide)
    have hunread := unread_advance havailable
    omega
  · rw [if_pos hm] at hcheck
    cases hcheck

/-! ### Packets with terminators -/

variable {α : Type} [PacketItem α]

theorem tame_readRecord (hread : Tame (PacketItem.read : GatewayM α)) (useEors : Bool) :
    Tame (readRecord useEors : GatewayM α) := by
  refine hread.bind fun item => ?_
  cases useEors with
  | false => exact .pure _
  | true => exact (FString.tame_expect eor).bind fun _ => .pure _

theorem tame_readRound (hread : Tame (PacketItem.read : GatewayM α)) (useEors : Bool) (start : ℤ)
    (size : ℕ) (items : List α) : Tame (readRound useEors start size items) :=
  Tame.tellg.bind fun _ => .ite ((tame_readRecord hread useEors).bind fun _ => .pure _) (.pure _)

theorem tellg_state {s s' : IStream} {pos : ℤ}
    (h : (StreamM.tellg : GatewayM ℤ) s = some (.ok (pos, s'))) : s' = s := by
  cases h
  rfl

theorem readRound_shorter (hread : Tame (PacketItem.read : GatewayM α)) {start : ℤ} {size : ℕ}
    {items items' : List α} {s s' : IStream}
    (h : readRound true start size items s = some (.ok (.inl items', s'))) :
    s'.unread.length < s.unread.length := by
  obtain ⟨pos, s₁, htellg, hround⟩ := run_bind_eq_ok h
  rw [tellg_state htellg] at hround
  split at hround
  · obtain ⟨item, s₂, hrecord, hlast⟩ := run_bind_eq_ok hround
    cases hlast
    obtain ⟨item', s₃, hitem, hterminator⟩ := run_bind_eq_ok hrecord
    obtain ⟨u, s₄, hexpect, hlast'⟩ := run_bind_eq_ok hterminator
    cases hlast'
    have hlt := expect_eor hexpect
    have hle := hread.shrinks _ _ _ hitem
    omega
  · cases hround

theorem readPacket_eors_ne_none (hread : Tame (PacketItem.read : GatewayM α)) {fuel : ℕ}
    {s : IStream} (hfuel : s.unread.length < fuel) :
    (readPacket true fuel : GatewayM (List α)) s ≠ none := by
  refine run_bind_ne_none (tame_readSize.ends s) fun size s₁ hsize => ?_
  have hle := tame_readSize.shrinks _ _ _ hsize
  split
  · exact (Tame.throw _).ends s₁
  · refine run_bind_ne_none (Tame.tellg.ends s₁) fun start s₂ htellg => ?_
    rw [tellg_state htellg]
    refine run_bind_ne_none (loop_ne_none (fun items => (tame_readRound hread true start size items).ends)
      (fun items s items' s' hround => readRound_shorter hread hround) fuel [] s₁ (by omega))
      fun items s₃ _ => ?_
    refine run_bind_ne_none (Tame.tellg.ends s₃) fun pos s₄ _ => ?_
    exact (Tame.ite ((Tame.throw _).bind fun _ => .pure _) (.pure _)).ends s₄

theorem framed_readPacket (hread : Tame (PacketItem.read : GatewayM α)) (useEors : Bool)
    (fuel : ℕ) : Framed (readPacket useEors fuel : GatewayM (List α)) := by
  refine tame_readSize.framed.bind fun size => ?_
  refine .ite ((Tame.throw _).framed.bind fun _ => ?_) ?_
  all_goals
    refine Tame.tellg.framed.bind fun start => ?_
    refine (Framed.loop (fun items => (tame_readRound hread useEors start size items).framed)
      fuel []).bind fun items => ?_
    exact (Tame.tellg.bind fun pos => .ite ((Tame.throw _).bind fun _ => .pure _) (.pure _)).framed

/-! ### Packets without terminators -/

/-- The integer that is read next: what the stream does not serve is what the memory holds. -/
def nextInt (s : IStream) : BitVec 32 :=
  ofBigEndian (s.available.take 4 ++ ((List.range 4).map s.garbage).drop s.available.length)

def afterInt (s : IStream) : IStream := { s.advance 4 with garbage := fun i => s.garbage (i + 4) }

def position (s : IStream) : ℤ := if s.failed then -1 else s.pos

theorem tellg_eq (s : IStream) :
    (StreamM.tellg : GatewayM ℤ) s = some (.ok (position s, s)) := rfl

theorem readInt_eq (s : IStream) : readInt s = some (.ok (nextInt s, afterInt s)) := by
  have hstate : ({ s with garbage := fun i => s.garbage (i + 4) } : IStream).advance 4 =
      afterInt s := by
    unfold afterInt IStream.advance
    by_cases hs : s.failed = true <;> simp [hs]
  have hmemory : ((List.range 4).map s.garbage).length = 4 := by simp
  unfold readInt
  rw [run_bind_ok (a := (List.range 4).map s.garbage) rfl, run_bind_ok (readInto_eq _ _), hmemory,
    hstate]
  rfl

theorem failed_afterInt (s : IStream) :
    (afterInt s).failed = true ↔ s.available.length < 4 := failed_advance_iff (by decide)

theorem available_afterInt (s : IStream) : (afterInt s).available = s.available.drop 4 :=
  available_advance (by decide)

theorem pos_afterInt {s : IStream} (h : 4 ≤ s.available.length) : (afterInt s).pos = s.pos + 4 :=
  pos_advance h

theorem readChannel_eq (s : IStream) :
    Channel.read s = some (.ok (⟨nextInt s⟩, afterInt s)) := by
  unfold Channel.read
  rw [run_bind_ok (readInt_eq s)]
  rfl

theorem readRound_channel {start : ℤ} {size : ℕ} {s : IStream}
    (h : sizeT (position s - start) < size) (channels : List Channel) :
    readRound false start size channels s =
      some (.ok (.inl (channels ++ [⟨nextInt s⟩]), afterInt s)) := by
  unfold readRound
  rw [run_bind_ok (tellg_eq s), if_pos h]
  have hrecord : readRecord false s = some (.ok ((⟨nextInt s⟩ : Channel), afterInt s)) := by
    unfold readRecord
    exact (run_bind_ok (readChannel_eq s)).trans rfl
  rw [run_bind_ok hrecord]
  rfl

theorem readRound_channels {start : ℤ} {size : ℕ} {s : IStream}
    (h : ¬ sizeT (position s - start) < size) (channels : List Channel) :
    readRound false start size channels s = some (.ok (.inr channels, s)) := by
  unfold readRound
  rw [run_bind_ok (tellg_eq s), if_neg h]
  rfl

/-- The stream has failed, or it will before the packet is read; a failed stream has a position
that seems to lie in the packet. -/
structure Truncated (start : ℤ) (size : ℕ) (s : IStream) : Prop where
  inside : sizeT (-1 - start) < size
  bounded : size < 2 ^ 32
  aligned : size % 4 = 0
  short : s.failed = false → ∃ consumed : ℕ, (s.pos : ℤ) = start + consumed ∧ consumed % 4 = 0 ∧
    s.available.length + consumed < size

theorem Truncated.inside_next {start : ℤ} {size : ℕ} {s : IStream} (h : Truncated start size s) :
    sizeT (position s - start) < size := by
  unfold position
  cases hs : s.failed with
  | true => exact h.inside
  | false =>
    obtain ⟨consumed, hpos, -, hlt⟩ := h.short hs
    have hbounded := h.bounded
    simp only [Bool.false_eq_true, if_false]
    unfold sizeT
    omega

theorem Truncated.next {start : ℤ} {size : ℕ} {s : IStream} (h : Truncated start size s) :
    Truncated start size (afterInt s) where
  inside := h.inside
  bounded := h.bounded
  aligned := h.aligned
  short hgood := by
    have havailable : 4 ≤ s.available.length := by
      by_contra hlt
      rw [(failed_afterInt s).mpr (by omega)] at hgood
      cases hgood
    have hs : s.failed = false := by
      by_contra hs
      rw [available_failed (by simpa using hs)] at havailable
      simp at havailable
    obtain ⟨consumed, hpos, haligned, hlt⟩ := h.short hs
    refine ⟨consumed + 4, ?_, by omega, ?_⟩
    · rw [pos_afterInt havailable]
      push_cast
      omega
    · rw [available_afterInt, List.length_drop]
      omega

/-- The loop over a truncated packet of channels does not end. -/
theorem loop_truncated {start : ℤ} {size : ℕ} {s : IStream} (h : Truncated start size s)
    (fuel : ℕ) (channels : List Channel) :
    StreamM.loop (readRound false start size) fuel channels s = none := by
  induction fuel generalizing s channels with
  | zero => rfl
  | succ fuel ih =>
    rw [StreamM.loop_inl (readRound_channel h.inside_next channels)]
    exact ih h.next _

theorem loop_complete {start : ℤ} {size : ℕ} (hsize : size < 2 ^ 32) (haligned : size % 4 = 0)
    {s : IStream} (hs : s.failed = false) (consumed : ℕ) (hpos : (s.pos : ℤ) = start + consumed)
    (hconsumed : consumed % 4 = 0) (hle : consumed ≤ size)
    (hcomplete : size ≤ s.available.length + consumed) {fuel : ℕ}
    (hfuel : s.available.length < fuel) (channels : List Channel) :
    StreamM.loop (readRound false start size) fuel channels s ≠ none := by
  induction fuel generalizing s consumed channels with
  | zero => omega
  | succ fuel ih =>
    have hposition : position s - start = consumed := by
      unfold position
      rw [hs]
      simp only [Bool.false_eq_true, if_false]
      omega
    have hsizeT : sizeT (position s - start) = consumed := by
      rw [hposition]
      exact sizeT_of_lt (by omega)
    by_cases hlt : consumed < size
    · have havailable : 4 ≤ s.available.length := by omega
      have hgood : (afterInt s).failed = false := by
        by_contra hfailed
        have hshort := (failed_afterInt s).mp (by simpa using hfailed)
        omega
      rw [StreamM.loop_inl (readRound_channel (by rwa [hsizeT]) channels)]
      refine ih hgood (consumed + 4) ?_ (by omega) (by omega) ?_ ?_ _
      · rw [pos_afterInt havailable]
        push_cast
        omega
      · rw [available_afterInt, List.length_drop]
        omega
      · rw [available_afterInt, List.length_drop]
        omega
    · rw [StreamM.loop_inr (readRound_channels (by rwa [hsizeT]) channels)]
      simp

theorem loop_outside {start : ℤ} {size : ℕ} (houtside : ¬ sizeT (-1 - start) < size)
    {s : IStream} {fuel : ℕ} (hfuel : s.available.length + 1 < fuel) (channels : List Channel) :
    StreamM.loop (readRound false start size) fuel channels s ≠ none := by
  induction fuel generalizing s channels with
  | zero => omega
  | succ fuel ih =>
    by_cases hinside : sizeT (position s - start) < size
    · rw [StreamM.loop_inl (readRound_channel hinside channels)]
      have hs : s.failed = false := by
        by_contra hs
        unfold position at hinside
        rw [if_pos (by simpa using hs)] at hinside
        exact houtside hinside
      by_cases hshort : s.available.length = 0
      · -- The stream fails here, and the next test ends the loop.
        have hfailed := (failed_afterInt s).mpr (by omega)
        obtain ⟨fuel, rfl⟩ := Nat.exists_eq_add_one_of_ne_zero (by omega : fuel ≠ 0)
        have hnext : ¬ sizeT (position (afterInt s) - start) < size := by
          unfold position
          rwa [if_pos hfailed]
        rw [StreamM.loop_inr (readRound_channels hnext _)]
        simp
      · refine ih ?_ _
        rw [available_afterInt, List.length_drop]
        omega
    · rw [StreamM.loop_inr (readRound_channels hinside channels)]
      simp

/-- A packet of channels whose announced bytes are not all there, while the position of the failed
stream, reckoned from where the channels start, seems to lie among them. -/
def Stuck (s : IStream) : Prop :=
  0 < (nextInt s).toInt ∧ (nextInt s).toNat % alignment = 0 ∧
    s.available.length < 4 + (nextInt s).toNat ∧
    sizeT (-1 - position (afterInt s)) < (nextInt s).toNat

instance (s : IStream) : Decidable (Stuck s) := inferInstanceAs (Decidable (_ ∧ _ ∧ _ ∧ _))

theorem readSize_eq {s : IStream} (h : 0 ≤ (nextInt s).toInt) :
    readSize s = some (.ok ((nextInt s).toNat, afterInt s)) := by
  unfold readSize
  rw [run_bind_ok (readInt_eq s), if_neg (by omega)]
  rfl

theorem afterInt_cases (s : IStream) :
    (afterInt s).failed = true ∧ s.available.length < 4 ∨
    (afterInt s).failed = false ∧ 4 ≤ s.available.length := by
  by_cases hshort : s.available.length < 4
  · exact .inl ⟨(failed_afterInt s).mpr hshort, hshort⟩
  · refine .inr ⟨?_, by omega⟩
    by_contra hfailed
    exact hshort ((failed_afterInt s).mp (by simpa using hfailed))

theorem readPacket_stuck {s : IStream} (h : Stuck s) (fuel : ℕ) :
    (readPacket false fuel : GatewayM (List Channel)) s = none := by
  obtain ⟨hpos, haligned, hshort, hinside⟩ := h
  have htruncated : Truncated (position (afterInt s)) (nextInt s).toNat (afterInt s) := by
    refine ⟨hinside, (nextInt s).isLt, haligned, fun hgood => ⟨0, ?_, rfl, ?_⟩⟩
    · unfold position
      simp [hgood]
    · rcases afterInt_cases s with ⟨hfailed, -⟩ | ⟨-, havailable⟩
      · rw [hfailed] at hgood
        cases hgood
      · rw [available_afterInt, List.length_drop]
        omega
  unfold readPacket
  rw [run_bind_ok (readSize_eq hpos.le), if_neg (not_not_intro haligned)]
  beta_reduce
  rw [run_bind_ok (tellg_eq (afterInt s))]
  exact run_bind_none (loop_truncated htruncated fuel [])

theorem readPacket_ne_none {s : IStream} (h : ¬ Stuck s) {fuel : ℕ}
    (hfuel : s.available.length + 1 < fuel) :
    (readPacket false fuel : GatewayM (List Channel)) s ≠ none := by
  unfold readPacket
  by_cases hnegative : (nextInt s).toInt < 0
  · have hthrow : readSize s = some (.error (.negativeSize (nextInt s).toInt)) := by
      unfold readSize
      rw [run_bind_ok (readInt_eq s), if_pos hnegative]
      rfl
    rw [run_bind_error hthrow]
    simp
  rw [run_bind_ok (readSize_eq (by omega))]
  by_cases haligned : (nextInt s).toNat % alignment = 0
  swap
  · rw [if_pos haligned]
    exact (Tame.throw _).ends (afterInt s)
  rw [if_neg (not_not_intro haligned)]
  beta_reduce
  rw [run_bind_ok (tellg_eq (afterInt s))]
  have hfuel' : (afterInt s).available.length + 1 < fuel := by
    rw [available_afterInt, List.length_drop]
    omega
  have hloop : StreamM.loop (readRound false (position (afterInt s)) (nextInt s).toNat) fuel
      ([] : List Channel) (afterInt s) ≠ none := by
    by_cases hinside : sizeT (-1 - position (afterInt s)) < (nextInt s).toNat
    swap
    · exact loop_outside hinside hfuel' []
    have hpositive : 0 < (nextInt s).toInt := by
      have hcond := BitVec.toInt_eq_toNat_cond (nextInt s)
      split at hcond <;> omega
    have hcomplete : 4 + (nextInt s).toNat ≤ s.available.length := by
      by_contra hshort
      exact h ⟨hpositive, haligned, by omega, hinside⟩
    rcases afterInt_cases s with ⟨-, hshort⟩ | ⟨hgood, -⟩
    · omega
    · refine loop_complete (nextInt s).isLt haligned hgood 0 ?_ rfl (Nat.zero_le _) ?_
        (by omega) []
      · unfold position
        simp [hgood]
      · rw [available_afterInt, List.length_drop]
        omega
  refine run_bind_ne_none hloop fun channels s₁ _ => ?_
  exact (Tame.tellg.bind fun pos => .ite ((Tame.throw _).bind fun _ => .pure _) (.pure _)).ends s₁

/-! ### Packets as they are written -/

theorem encodedSize_le_of_writePacket {useEors : Bool} {items : List α} {bytes : List Byte}
    (hlt : encodedSize useEors items < 2 ^ 32) (h : writePacket items useEors = .ok bytes) :
    encodedSize useEors items ≤ intMax := by
  by_contra hlarge
  have hthrow : writeSize (packetSize items useEors) =
      .error (.tooLargeSize (packetSize items useEors)) := by
    rw [packetSize_eq hlt]
    exact if_pos (by omega)
  unfold writePacket at h
  rw [hthrow] at h
  cases h

theorem consumes_written {useEors : Bool} {items : List α} {bytes : List Byte}
    {encode : α → List Byte} {reads : α → α}
    (hwrites : ∀ item : α, PacketItem.size item ≤ intMax → RecordWrites item (encode item))
    (hreads : ∀ item : α, PacketItem.size item ≤ intMax → RecordReads (reads item) (encode item))
    (hlt : encodedSize useEors items < 2 ^ 32) (h : writePacket items useEors = .ok bytes)
    {fuel : ℕ} (hfuel : items.length < fuel) :
    Consumes (readPacket useEors fuel) bytes (items.map reads) := by
  have hle := encodedSize_le_of_writePacket hlt h
  have hsize : ∀ item ∈ items, PacketItem.size item ≤ intMax := fun item hitem =>
    (size_le_encodedSize hitem).trans hle
  have hw : List.Forall₂ RecordWrites items (items.map encode) := by
    rw [List.forall₂_map_right_iff, List.forall₂_same]
    exact fun item hitem => hwrites item (hsize item hitem)
  have hr : List.Forall₂ RecordReads (items.map reads) (items.map encode) := by
    rw [List.forall₂_map_left_iff, List.forall₂_map_right_iff, List.forall₂_same]
    exact fun item hitem => hreads item (hsize item hitem)
  have hbytes := Except.ok.inj ((writePacket_ok hw hle).symm.trans h)
  rw [← hbytes]
  refine consumes_readPacket hr ?_ (by rwa [List.length_map])
  rwa [packetBody_length useEors hw]

/-! ### Commands -/

namespace Command

/-- The command holds channels, and its packet is one that the reader does not get out of. -/
def Endless (s : IStream) : Prop :=
  (nextMark s = rdpMark ∨ nextMark s = rdeMark) ∧ Stuck (s.advance 4)

instance (s : IStream) : Decidable (Endless s) := inferInstanceAs (Decidable (_ ∧ _))

theorem ofMark_channels {m : Mark} (h : m = rdpMark ∨ m = rdeMark) : ofMark m = .ok (rdp []) := by
  rcases h with rfl | rfl <;> rfl

theorem ofMark_cases (m : Mark) :
    (∃ e, ofMark m = .error e) ∨ ofMark m = .ok (wrp []) ∨ ofMark m = .ok (wre []) ∨
      ofMark m = .ok (rds []) ∨ (m = rdpMark ∨ m = rdeMark) ∧ ofMark m = .ok (rdp []) := by
  by_cases hchannels : m = rdpMark ∨ m = rdeMark
  · exact .inr (.inr (.inr (.inr ⟨hchannels, ofMark_channels hchannels⟩)))
  · obtain ⟨hrdp, hrde⟩ := not_or.mp hchannels
    unfold ofMark
    by_cases hwrp : m = wrpMark
    · exact .inr (.inl (if_pos hwrp))
    rw [if_neg hwrp]
    by_cases hwre : m = wreMark
    · exact .inr (.inr (.inl (if_pos hwre)))
    rw [if_neg hwre, if_neg hrdp, if_neg hrde]
    by_cases hrds : m = rdsMark
    · exact .inr (.inr (.inr (.inl (if_pos hrds))))
    · exact .inl ⟨_, if_neg hrds⟩

theorem framed_readPayload (fuel : ℕ) (c : Command) : Framed (c.readPayload fuel) := by
  cases c with
  | wrp samples =>
    exact (framed_readPacket Sample.tame_read true fuel).bind fun _ => (Tame.pure _).framed
  | wre events =>
    exact (framed_readPacket Event.tame_read true fuel).bind fun _ => (Tame.pure _).framed
  | rdp channels =>
    exact (framed_readPacket Channel.tame_read false fuel).bind fun _ => (Tame.pure _).framed
  | rde channels =>
    exact (framed_readPacket Channel.tame_read false fuel).bind fun _ => (Tame.pure _).framed
  | rds names =>
    exact (framed_readPacket VString.tame_read true fuel).bind fun _ => (Tame.pure _).framed

theorem tame_ofMark (m : Mark) : Tame (liftM (ofMark m) : GatewayM Command) := by
  cases ofMark m with
  | ok c => exact .pure c
  | error e => exact .throw e

theorem framed_binRead (fuel : ℕ) : Framed (binRead fuel) :=
  (FString.tame_read 4).framed.bind fun m => (tame_ofMark m).framed.bind fun c =>
    (framed_readPayload fuel c).bind fun _ => (FString.tame_read 4).framed.bind fun _ =>
      (Tame.ite ((Tame.throw _).bind fun _ => .pure _) (.pure _)).framed

theorem binRead_good {fuel : ℕ} {s s' : IStream} {c : Command}
    (h : binRead fuel s = some (.ok (c, s'))) : s'.failed = false := by
  obtain ⟨m, s₁, -, h⟩ := run_bind_eq_ok h
  obtain ⟨c₁, s₂, -, h⟩ := run_bind_eq_ok h
  obtain ⟨c₂, s₃, -, h⟩ := run_bind_eq_ok h
  obtain ⟨terminator, s₄, hread, h⟩ := run_bind_eq_ok h
  rw [read_mark] at hread
  cases hread
  by_cases heoc : nextMark s₃ = eoc
  · rw [if_neg (not_not_intro heoc)] at h
    cases h
    have havailable := available_of_nextMark (s := s₃) (by rw [heoc]; decide)
    by_contra hfailed
    have hshort := (failed_advance_iff (by decide : 0 < 4)).mp (by simpa using hfailed)
    omega
  · rw [if_pos heoc] at h
    cases h

theorem binRead_endless {s : IStream} (h : Endless s) (fuel : ℕ) : binRead fuel s = none := by
  obtain ⟨hmark, hstuck⟩ := h
  unfold binRead
  have hcommand : (liftM (Except.ok (rdp []) : Except GatewayError Command) : GatewayM Command)
      (s.advance 4) = some (.ok (rdp [], s.advance 4)) := rfl
  rw [run_bind_ok (read_mark s), ofMark_channels hmark, run_bind_ok hcommand]
  exact run_bind_none (run_bind_none (readPacket_stuck hstuck fuel))

theorem unread_advance_le (s : IStream) (n : ℕ) :
    (s.advance n).unread.length ≤ s.unread.length := by
  unfold IStream.advance
  split
  · exact le_rfl
  · simp

theorem available_length_le (s : IStream) : s.available.length ≤ s.unread.length := by
  unfold IStream.available
  split <;> simp

theorem binRead_ne_none {s : IStream} (h : ¬ Endless s) {fuel : ℕ}
    (hfuel : s.unread.length + 1 < fuel) : binRead fuel s ≠ none := by
  have hunread := unread_advance_le s 4
  have hpayload : ∀ c, ofMark (nextMark s) = .ok c → c.readPayload fuel (s.advance 4) ≠ none := by
    intro c hc
    have heors : (s.advance 4).unread.length < fuel := by omega
    rcases ofMark_cases (nextMark s) with ⟨e, he⟩ | hwrp | hwre | hrds | ⟨hmark, hrdp⟩
    · rw [he] at hc
      cases hc
    · cases hwrp.symm.trans hc
      exact run_bind_ne_none (readPacket_eors_ne_none Sample.tame_read heors)
        fun _ s₁ _ => (Tame.pure _).ends s₁
    · cases hwre.symm.trans hc
      exact run_bind_ne_none (readPacket_eors_ne_none Event.tame_read heors)
        fun _ s₁ _ => (Tame.pure _).ends s₁
    · cases hrds.symm.trans hc
      exact run_bind_ne_none (readPacket_eors_ne_none VString.tame_read heors)
        fun _ s₁ _ => (Tame.pure _).ends s₁
    · cases hrdp.symm.trans hc
      have hstuck : ¬ Stuck (s.advance 4) := fun hstuck => h ⟨hmark, hstuck⟩
      have havailable := available_length_le (s.advance 4)
      exact run_bind_ne_none (readPacket_ne_none hstuck (by omega))
        fun _ s₁ _ => (Tame.pure _).ends s₁
  unfold binRead
  rw [run_bind_ok (read_mark s)]
  refine run_bind_ne_none ((tame_ofMark _).ends _) fun c s₁ hc => ?_
  cases hmark : ofMark (nextMark s) with
  | error e =>
    rw [hmark] at hc
    cases hc
  | ok c' =>
    rw [hmark] at hc
    cases hc
    refine run_bind_ne_none (hpayload c hmark) fun c₂ s₂ _ => ?_
    exact ((FString.tame_read 4).bind fun _ =>
      .ite ((Tame.throw _).bind fun _ => .pure _) (.pure _)).ends s₂

/-! ### Prefixes of commands -/

/-- The bytes of the command's records, not wrapped to `size_t`. -/
def recordBytes : Command → ℕ
  | wrp samples => encodedSize true samples
  | wre events => encodedSize true events
  | rdp channels => encodedSize false channels
  | rde channels => encodedSize false channels
  | rds names => encodedSize true names

theorem consumes_binWrite {c : Command} {bytes : List Byte} (hlt : c.recordBytes < 2 ^ 32)
    (h : c.binWrite = .ok bytes) :
    ∃ c', ∀ fuel > c.recordCount, Consumes (binRead fuel) bytes c' := by
  have hpayload : ∀ payload, c.writePayload = .ok payload → ∃ c',
      ∀ fuel > c.recordCount, Consumes (c.readsAs.cleared.readPayload fuel) payload c' := by
    intro payload hwrite
    cases c with
    | wrp samples =>
      exact ⟨_, fun fuel hfuel => (consumes_written (fun s _ => (sample_roundTrips s).writes)
        (fun s _ => (sample_roundTrips s).reads) hlt hwrite hfuel).map (Consumes.pure (wrp _))⟩
    | wre events =>
      exact ⟨_, fun fuel hfuel => (consumes_written (fun e => event_writes) (fun e => event_reads)
        hlt hwrite hfuel).map (Consumes.pure (wre _))⟩
    | rdp channels =>
      exact ⟨_, fun fuel hfuel => (consumes_written (fun ch _ => (channel_roundTrips ch).writes)
        (fun ch _ => (channel_roundTrips ch).reads) hlt hwrite hfuel).map (Consumes.pure (rdp _))⟩
    | rde channels =>
      exact ⟨_, fun fuel hfuel => (consumes_written (fun ch _ => (channel_roundTrips ch).writes)
        (fun ch _ => (channel_roundTrips ch).reads) hlt hwrite hfuel).map (Consumes.pure (rdp _))⟩
    | rds names =>
      exact ⟨_, fun fuel hfuel => (consumes_written (fun s => vstring_writes)
        (fun s => vstring_reads) hlt hwrite hfuel).map (Consumes.pure (rds _))⟩
  unfold binWrite at h
  cases hwrite : c.writePayload with
  | error e =>
    rw [hwrite] at h
    cases h
  | ok payload =>
    rw [hwrite] at h
    cases h
    obtain ⟨c', hread⟩ := hpayload payload hwrite
    refine ⟨c', fun fuel hfuel => ?_⟩
    unfold binRead
    refine (FString.consumes_read c.type).bind ?_
    rw [ofMark_type]
    refine (consumes_ok c.readsAs.cleared).after ?_
    refine (hread fuel hfuel).bind ?_
    refine (FString.consumes_read eoc).map ?_
    rw [if_neg (by simp)]
    exact Consumes.pure c'

theorem binRead_prefix_error {c : Command} {bytes : List Byte} {s : IStream}
    (hlt : c.recordBytes < 2 ^ 32) (h : c.binWrite = .ok bytes) (hgood : s.failed = false)
    (hp : s.unread <+: bytes) (hne : s.unread ≠ bytes) (hend : ¬ Endless s) :
    ∃ fuel e, binRead fuel s = some (.error e) := by
  obtain ⟨c', hread⟩ := consumes_binWrite hlt h
  obtain ⟨rest, hrest⟩ := hp
  -- More rounds than the prefix has bytes, and than the command has records.
  have hfuel : s.unread.length + 1 < s.unread.length + 2 + c.recordCount := by omega
  refine ⟨s.unread.length + 2 + c.recordCount, ?_⟩
  cases hr : binRead (s.unread.length + 2 + c.recordCount) s with
  | none => exact absurd hr (binRead_ne_none hend hfuel)
  | some r =>
    cases r with
    | error e => exact ⟨e, rfl⟩
    | ok r =>
      -- On the whole command the reader would leave the rest of it unread.
      exfalso
      obtain ⟨a, s'⟩ := r
      have hextended := (framed_binRead _ _ _ _ hr (binRead_good hr)).2 rest
      obtain ⟨garbage', hwhole⟩ := hread (s.unread.length + 2 + c.recordCount) (by omega) [] s.pos
        s.garbage
      rw [List.append_nil, ← hrest, ← hgood] at hwhole
      have heq := congrArg (fun r => r.2.unread)
        (Except.ok.inj (Option.some.inj (hextended.symm.trans hwhole)))
      have hnil : s'.unread ++ rest = [] := heq
      exact hne (by rw [← hrest, (List.append_eq_nil_iff.mp hnil).2, List.append_nil])

/-- The reader ends on every stream but one whose packet of channels it does not get out of, and on
the others it throws where they hold a proper prefix of a command. -/
theorem binRead_ends_iff (s : IStream) :
    ((∃ fuel, binRead fuel s ≠ none) ↔ ¬ Endless s) ∧
    ∀ (c : Command) bytes, c.recordBytes < 2 ^ 32 → c.binWrite = .ok bytes → s.failed = false →
      s.unread <+: bytes → s.unread ≠ bytes →
      ((∃ fuel e, binRead fuel s = some (.error e)) ↔ ¬ Endless s) := by
  have hendless : Endless s → ∀ fuel, binRead fuel s = none := binRead_endless
  refine ⟨⟨?_, fun h => ⟨s.unread.length + 2, binRead_ne_none h (by omega)⟩⟩, ?_⟩
  · intro ⟨fuel, hfuel⟩ h
    exact hfuel (hendless h fuel)
  · intro c bytes hlt hwrite hgood hp hne
    refine ⟨?_, binRead_prefix_error hlt hwrite hgood hp hne⟩
    intro ⟨fuel, e, hthrow⟩ h
    rw [hendless h fuel] at hthrow
    cases hthrow

/-- All but the last byte of a request for one channel. -/
theorem binRead_ends_iff_rdp : ∃ fuel e, binRead fuel
    ⟨rdpMark.bulk ++ [0, 0, 0, 4, 0, 0, 0, 7, 0x24, 0x2F, 0x80], 0, false, fun _ => 0⟩ =
      some (.error e) :=
  ((binRead_ends_iff
    ⟨rdpMark.bulk ++ [0, 0, 0, 4, 0, 0, 0, 7, 0x24, 0x2F, 0x80], 0, false, fun _ => 0⟩).2
    (rdp [⟨7⟩]) (rdpMark.bulk ++ [0, 0, 0, 4, 0, 0, 0, 7, 0x24, 0x2F, 0x80, 0x80])
    (by decide) (by decide +kernel) rfl (by decide) (by decide)).mpr (by decide +kernel)

/-- Three characters of a mark, and a length that memory happens to hold. -/
theorem binRead_ends_false :
    (¬ ∀ s, ∃ fuel, binRead fuel s ≠ none) ∧
    ¬ ∀ (s : IStream) (c : Command) bytes, c.binWrite = .ok bytes → s.failed = false →
      s.unread <+: bytes → s.unread ≠ bytes → ∃ fuel e, binRead fuel s = some (.error e) := by
  have hendless : Endless ⟨ascii "RDP", 0, false, fun i => if i = 3 then 4 else 0⟩ := by
    decide +kernel
  constructor
  · intro h
    obtain ⟨fuel, hfuel⟩ := h ⟨ascii "RDP", 0, false, fun i => if i = 3 then 4 else 0⟩
    exact hfuel (binRead_endless hendless fuel)
  · intro h
    obtain ⟨fuel, e, hthrow⟩ := h ⟨ascii "RDP", 0, false, fun i => if i = 3 then 4 else 0⟩ (rdp [])
      (rdpMark.bulk ++ [0, 0, 0, 0, 0x24, 0x2F, 0x80, 0x80]) (by decide +kernel) rfl (by decide)
      (by decide)
    rw [binRead_endless hendless fuel] at hthrow
    cases hthrow

end Command

end Ritex.Gateway
