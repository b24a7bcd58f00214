import Ritex.ReadPacket

/-! `ReadPacket` over a plain string of bytes: it finds exactly the frames that start at the
first address byte, pass the length check and carry the right checksum. -/
namespace Ritex
open Interaction

/-- `Read` on a line where the whole string has arrived; a short line keeps it waiting. -/
def takeBytes (n : ℕ) (s : List Byte) : Option (ReadResult n) × List Byte :=
  if h : n ≤ s.length then (some (.ok ⟨s.take n, List.length_take_of_le h⟩), s.drop n)
  else (none, s)

theorem takeBytes_append {n : ℕ} (b : Buffer n) (rest : List Byte) :
    takeBytes n (b.bytes ++ rest) = (some (.ok b), rest) := by
  obtain ⟨bytes, rfl⟩ := b
  simp [takeBytes]

theorem takeBytes_eq_some {n : ℕ} {s s' : List Byte} {r : ReadResult n}
    (h : takeBytes n s = (some r, s')) : ∃ b : Buffer n, r = .ok b ∧ s = b.bytes ++ s' := by
  rw [takeBytes] at h
  split at h
  · simp only [Prod.mk.injEq, Option.some.injEq] at h
    obtain ⟨rfl, rfl⟩ := h
    exact ⟨_, rfl, (List.take_append_drop n s).symm⟩
  · simp at h

theorem eval_readThen_append {n : ℕ} (k : Buffer n → Reader Received) {bytes : List Byte}
    (h : bytes.length = n) (rest : List Byte) :
    (readThen n k).eval takeBytes (bytes ++ rest) = (k ⟨bytes, h⟩).eval takeBytes rest := by
  rw [readThen, Prog.eval_op_some (takeBytes_append ⟨bytes, h⟩ rest)]

theorem eval_readThen_some {n : ℕ} {k : Buffer n → Reader Received} {s s' : List Byte}
    {r : Received} (h : (readThen n k).eval takeBytes s = (some r, s')) :
    ∃ (b : Buffer n) (rest : List Byte), s = b.bytes ++ rest ∧
      (k b).eval takeBytes rest = (some r, s') := by
  rw [readThen] at h
  rcases ht : takeBytes n s with ⟨_ | r₁, rest⟩
  · simp [Prog.eval_op_none ht] at h
  · obtain ⟨b, rfl, rfl⟩ := takeBytes_eq_some ht
    rw [Prog.eval_op_some ht] at h
    exact ⟨b, rest, rfl, h⟩

theorem Buffer.bytes_one (b : Buffer 1) : b.bytes = [b.at 0] := by
  obtain ⟨bytes, h⟩ := b
  obtain ⟨x, rfl⟩ := List.length_eq_one_iff.mp h
  rfl

theorem Buffer.bytes_two (b : Buffer 2) : b.bytes = [b.at 0, b.at 1] := by
  obtain ⟨bytes, h⟩ := b
  obtain ⟨x, y, rfl⟩ := List.length_eq_two.mp h
  rfl

/-! ### The address -/

theorem eval_skip_of_noise {noise : List Byte} (hn : ksuAddress ∉ noise) (rest : List Byte)
    {fuel : ℕ} (hf : noise.length + 2 ≤ fuel) :
    (skipToAddress fuel).eval takeBytes (noise ++ ksuAddress :: rest) =
      (some (.ok ksuAddress), rest) := by
  suffices h : ∀ a : Byte, a ≠ ksuAddress →
      (Prog.loop skipRound fuel a).eval takeBytes (noise ++ ksuAddress :: rest) =
        (some (.ok ksuAddress), rest) from h 0 (by decide)
  induction noise generalizing fuel with
  | nil =>
    intro a ha
    obtain ⟨fuel, rfl⟩ : ∃ m, fuel = m + 2 := ⟨fuel - 2, by simp at hf; omega⟩
    have ht := takeBytes_append (⟨[ksuAddress], rfl⟩ : Buffer 1) rest
    simp only [List.singleton_append] at ht
    simp only [Prog.loop, skipRound, if_neg ha, List.nil_append, Prog.op_bind, Prog.eval_op_some ht,
      Prog.ret_bind, Buffer.at, List.getD_cons_zero, if_true]
    rfl
  | cons x noise ih =>
    intro a ha
    obtain ⟨fuel, rfl⟩ : ∃ m, fuel = m + 1 := ⟨fuel - 1, by simp at hf; omega⟩
    have hx : x ≠ ksuAddress := fun h => hn (h ▸ List.mem_cons_self)
    have ht := takeBytes_append (⟨[x], rfl⟩ : Buffer 1) (noise ++ ksuAddress :: rest)
    simp only [List.singleton_append] at ht
    rw [Prog.loop, skipRound, if_neg ha, List.cons_append, Prog.op_bind, Prog.eval_op_some ht]
    exact ih (fun h => hn (List.mem_cons_of_mem _ h)) (by simp at hf; omega) x hx

theorem noise_of_eval_skip {fuel : ℕ} {s s' : List Byte} {r : Except ReadError Byte}
    (h : (skipToAddress fuel).eval takeBytes s = (some r, s')) :
    r = .ok ksuAddress ∧
      ∃ noise, ksuAddress ∉ noise ∧ s = noise ++ ksuAddress :: s' := by
  suffices hs : ∀ (a : Byte) (s : List Byte),
      (Prog.loop skipRound fuel a).eval takeBytes s = (some r, s') →
      r = .ok ksuAddress ∧ if a = ksuAddress then s = s'
        else ∃ noise, ksuAddress ∉ noise ∧ s = noise ++ ksuAddress :: s' by
    have h0 := hs 0 s h
    rwa [if_neg (by decide)] at h0
  clear h s
  induction fuel with
  | zero => simp [Prog.loop, Prog.eval]
  | succ fuel ih =>
    intro a s h
    rw [Prog.loop, skipRound] at h
    by_cases ha : a = ksuAddress
    · simp only [ha, if_true, Prog.ret_bind, Prog.eval, Prod.mk.injEq, Option.some.injEq] at h
      rw [if_pos ha]
      exact ⟨h.1.symm, h.2⟩
    · rw [if_neg ha, Prog.op_bind] at h
      rw [if_neg ha]
      rcases ht : takeBytes 1 s with ⟨_ | r₁, rest⟩
      · simp [Prog.eval_op_none ht] at h
      · obtain ⟨b, rfl, rfl⟩ := takeBytes_eq_some ht
        rw [Prog.eval_op_some ht] at h
        obtain ⟨hr, hrest⟩ := ih _ _ h
        refine ⟨hr, ?_⟩
        rw [b.bytes_one]
        split at hrest
        · rename_i hb
          exact ⟨[], by simp, by simp [hb, hrest]⟩
        · rename_i hb
          obtain ⟨noise, hn, rfl⟩ := hrest
          refine ⟨b.at 0 :: noise, ?_, by simp⟩
          simp only [List.mem_cons, not_or]
          exact ⟨Ne.symm hb, hn⟩

/-! ### Behind the address -/

/-- The answer to the bytes behind the address byte and what it leaves of them, if `table` has the pairs
of a command byte and a length. -/
inductive TableAnswer (table : Byte → Word → Option PacketType) (writeMode : BitVec 32) (now : ℤ) :
    List Byte → Received → List Byte → Prop
  | badPacket {high low cmd : Byte} {rest : List Byte} (h : table cmd (high ++ low) = none) :
      TableAnswer table writeMode now (high :: low :: cmd :: rest) (none, .badPacket) rest
  | badCrc {high low cmd crcHigh crcLow : Byte} {type : PacketType} {payload rest : List Byte}
      (h : table cmd (high ++ low) = some type)
      (hlength : payload.length + 1 = (high ++ low).toNat)
      (hcrc : crcHigh ++ crcLow ≠ crc16 0 ([ksuAddress, high, low, cmd] ++ payload)) :
      TableAnswer table writeMode now (high :: low :: cmd :: (payload ++ crcHigh :: crcLow :: rest))
        (none, .badCrc) rest
  | packet {high low cmd crcHigh crcLow : Byte} {type : PacketType} {payload rest : List Byte}
      (h : table cmd (high ++ low) = some type)
      (hlength : payload.length + 1 = (high ++ low).toNat) (hlt : payload.length < 2 ^ 16)
      (hcrc : crcHigh ++ crcLow = crc16 0 ([ksuAddress, high, low, cmd] ++ payload)) :
      TableAnswer table writeMode now (high :: low :: cmd :: (payload ++ crcHigh :: crcLow :: rest))
        (some ⟨type, ksuAddress, longCmd writeMode cmd, now, payload, hlt⟩, .noError) rest

theorem eval_readCrc (packet : DataPacket) (crc : Word) (crcHigh crcLow : Byte)
    (rest : List Byte) : (readCrc packet crc).eval takeBytes (crcHigh :: crcLow :: rest) =
      (some (if crcHigh ++ crcLow = crc then (some packet, .noError) else (none, .badCrc)), rest) := by
  have hlen : [crcHigh, crcLow].length = 2 := rfl
  rw [readCrc, show crcHigh :: crcLow :: rest = [crcHigh, crcLow] ++ rest from rfl,
    eval_readThen_append _ hlen rest]
  simp only [Buffer.at, List.getD_cons_zero, List.getD_cons_succ, swap16_ofMemory]
  by_cases hcrc : crcHigh ++ crcLow = crc
  · rw [if_neg (not_not.mpr hcrc), if_pos hcrc]
    rfl
  · rw [if_pos hcrc, if_neg hcrc]
    rfl

theorem bytes_of_eval_readCrc {packet : DataPacket} {crc : Word} {s rest : List Byte} {r : Received}
    (h : (readCrc packet crc).eval takeBytes s = (some r, rest)) :
    ∃ crcHigh crcLow, s = crcHigh :: crcLow :: rest := by
  rw [readCrc] at h
  obtain ⟨b, rest', rfl, hb⟩ := eval_readThen_some h
  have hrest : rest' = rest := by
    split at hb
    · exact (Prod.mk.inj hb).2
    · exact (Prod.mk.inj hb).2
  rw [b.bytes_two, hrest]
  exact ⟨_, _, rfl⟩

/-- The payload of a length that counts the command as well. -/
theorem eval_readPayload {type : PacketType} {cmd length crc : Word} {now : ℤ} {payload : List Byte}
    (hlength : payload.length = length.toNat) (hlt : payload.length < 2 ^ 16)
    (crcHigh crcLow : Byte) (rest : List Byte) :
    (readPayload type ksuAddress cmd now length crc).eval takeBytes
        (payload ++ crcHigh :: crcLow :: rest) =
      (some (if crcHigh ++ crcLow = crc16 crc payload then
        (some ⟨type, ksuAddress, cmd, now, payload, hlt⟩, .noError) else (none, .badCrc)), rest) := by
  rw [readPayload]
  split
  next =>
    rw [eval_readThen_append _ hlength]
    exact eval_readCrc _ _ crcHigh crcLow rest
  next hzero =>
    obtain rfl : payload = [] := List.length_eq_zero_iff.mp (by omega)
    exact eval_readCrc _ _ crcHigh crcLow rest

theorem bytes_of_eval_readPayload {type : PacketType} {cmd length crc : Word} {now : ℤ}
    {s rest : List Byte} {r : Received}
    (h : (readPayload type ksuAddress cmd now length crc).eval takeBytes s = (some r, rest)) :
    ∃ payload crcHigh crcLow, payload.length = length.toNat ∧
      s = payload ++ crcHigh :: crcLow :: rest := by
  rw [readPayload] at h
  split at h
  next =>
    obtain ⟨b, s', rfl, hcrc⟩ := eval_readThen_some h
    obtain ⟨crcHigh, crcLow, rfl⟩ := bytes_of_eval_readCrc hcrc
    exact ⟨b.bytes, crcHigh, crcLow, b.length_eq, rfl⟩
  next hzero =>
    obtain ⟨crcHigh, crcLow, rfl⟩ := bytes_of_eval_readCrc h
    exact ⟨[], crcHigh, crcLow, by rw [List.length_nil]; omega, rfl⟩

theorem eval_readCommand_header (high low cmd : Byte) (rest : List Byte) (writeMode : BitVec 32)
    (now : ℤ) : (readBody writeMode now ksuAddress).eval takeBytes (high :: low :: cmd :: rest) =
      (match isLengthMatches cmd (high ++ low) with
        | none => Prog.ret (none, .badPacket)
        | some type => readPayload type ksuAddress (longCmd writeMode cmd) now (high ++ low - 1)
          (crc16 0 [ksuAddress, high, low, cmd]) : Reader Received).eval takeBytes rest := by
  have hfield : [high, low].length = 2 := rfl
  have hcmd : [cmd].length = 1 := rfl
  rw [readBody, show high :: low :: cmd :: rest = [high, low] ++ ([cmd] ++ rest) from rfl,
    eval_readThen_append _ hfield, readCommand, eval_readThen_append _ hcmd]
  simp only [Buffer.at, List.getD_cons_zero, List.getD_cons_succ, swap16_ofMemory, lsb_longCmd]
  rfl

/-- `ReadPacket` answers as the rows say that `isLengthMatches` finds. -/
theorem eval_readBody_iff {writeMode : BitVec 32} {now : ℤ} {s rest : List Byte} {r : Received} :
    (readBody writeMode now ksuAddress).eval takeBytes s = (some r, rest) ↔
      TableAnswer isLengthMatches writeMode now s r rest := by
  constructor
  · intro h
    have hheader : ∃ high low cmd s', s = high :: low :: cmd :: s' := by
      obtain ⟨field, s₁, rfl, hcmd⟩ := eval_readThen_some h
      obtain ⟨cmd, s₂, rfl, -⟩ := eval_readThen_some hcmd
      exact ⟨_, _, _, s₂, by rw [field.bytes_two, cmd.bytes_one]; rfl⟩
    obtain ⟨high, low, cmd, s', rfl⟩ := hheader
    rw [eval_readCommand_header] at h
    split at h
    next htype =>
      obtain ⟨hr, rfl⟩ := Prod.mk.inj h
      obtain rfl := Option.some.inj hr
      exact .badPacket htype
    next type htype =>
      have hsub := toNat_sub_one_of_matches htype
      obtain ⟨payload, crcHigh, crcLow, hlength, rfl⟩ := bytes_of_eval_readPayload h
      have hlt : payload.length < 2 ^ 16 := by
        rw [hlength]
        exact (_ : Word).isLt
      rw [eval_readPayload hlength hlt, ← crc16_append] at h
      obtain ⟨hr, -⟩ := Prod.mk.inj h
      obtain rfl := Option.some.inj hr
      split
      next hcrc => exact .packet htype (by rw [hlength, hsub]) hlt hcrc
      next hcrc => exact .badCrc htype (by rw [hlength, hsub]) hcrc
  · intro h
    cases h with
    | badPacket htype =>
      rw [eval_readCommand_header, htype]
      rfl
    | badCrc htype hlength hcrc =>
      have hsub := toNat_sub_one_of_matches htype
      rw [eval_readCommand_header, htype]
      dsimp only
      rw [eval_readPayload (by omega) (by omega), ← crc16_append, if_neg hcrc]
    | packet htype hlength hlt hcrc =>
      have hsub := toNat_sub_one_of_matches htype
      rw [eval_readCommand_header, htype]
      dsimp only
      rw [eval_readPayload (by omega) hlt, ← crc16_append, if_pos hcrc]

/-! ### The frame -/

namespace Frame

variable (f : Frame)

def lengthField : Word := BitVec.ofNat 16 (f.payload.length + 1)

def crc : Word := crc16 0 ([ksuAddress, msb f.lengthField, lsb f.lengthField, f.cmd] ++ f.payload)

theorem raw_eq : f.raw = ksuAddress :: msb f.lengthField :: lsb f.lengthField :: f.cmd ::
    (f.payload ++ [msb f.crc, lsb f.crc]) := by
  have hs : BitVec.ofNat 16 f.payload.length + 1#16 = f.lengthField := by
    rw [lengthField, BitVec.ofNat_add]
  simp [raw, DataPacket.createRawPacket, DataPacket.size, hs, crc]

theorem toNat_lengthField : f.lengthField.toNat = f.payload.length + 1 := by
  rw [lengthField, BitVec.toNat_ofNat]
  exact Nat.mod_eq_of_lt f.length_lt

end Frame

/-- Behind the address, a frame is read to its last byte and becomes its packet. -/
theorem eval_readBody_of_frame (f : Frame) (writeMode : BitVec 32) (now : ℤ) (rest : List Byte) :
    (readBody writeMode now ksuAddress).eval takeBytes (f.raw.tail ++ rest) =
      (some (some (f.packet writeMode now), .noError), rest) := by
  have haccepted : isLengthMatches f.cmd (msb f.lengthField ++ lsb f.lengthField) = some f.type := by
    rw [msb_append_lsb]
    exact f.accepted
  have hlength : f.payload.length + 1 = (msb f.lengthField ++ lsb f.lengthField).toNat := by
    rw [msb_append_lsb, f.toNat_lengthField]
  have hraw : f.raw.tail ++ rest = msb f.lengthField :: lsb f.lengthField :: f.cmd ::
      (f.payload ++ msb f.crc :: lsb f.crc :: rest) := by
    rw [f.raw_eq, List.tail_cons]
    simp
  rw [hraw, eval_readBody_iff]
  exact .packet haccepted hlength _ (msb_append_lsb f.crc)

theorem frame_of_eval_readBody {writeMode : BitVec 32} {now : ℤ} {s s' : List Byte}
    {p : DataPacket} {e : ErrorCode}
    (h : (readBody writeMode now ksuAddress).eval takeBytes s = (some (some p, e), s')) :
    ∃ f : Frame, s = f.raw.tail ++ s' ∧ p = f.packet writeMode now ∧ e = .noError := by
  rw [eval_readBody_iff] at h
  cases h with
  | @packet high low cmd crcHigh crcLow type payload _ htype hlength hlt hcrc =>
    have hfield : BitVec.ofNat 16 (payload.length + 1) = high ++ low := by
      rw [hlength, BitVec.ofNat_toNat, BitVec.setWidth_eq]
    have hlt' : payload.length + 1 < 2 ^ 16 := hlength ▸ (high ++ low).isLt
    let f : Frame := ⟨type, cmd, payload, hlt', hfield ▸ htype⟩
    have hf : f.lengthField = high ++ low := hfield
    have hfcrc : f.crc = crcHigh ++ crcLow := by
      rw [Frame.crc, hf, msb_append, lsb_append, hcrc]
    refine ⟨f, ?_, rfl, rfl⟩
    rw [f.raw_eq, List.tail_cons, hf, hfcrc, msb_append, lsb_append, msb_append, lsb_append]
    simp [f]

/-! ### Whole packets -/

/-- `ReadPacket` finds a frame behind any noise without an address byte and stops right
behind it. -/
theorem eval_readPacket_of_frame (f : Frame) {noise : List Byte} (hn : ksuAddress ∉ noise)
    (rest : List Byte) (writeMode : BitVec 32) (now : ℤ) {fuel : ℕ}
    (hf : noise.length + 2 ≤ fuel) :
    (readPacket writeMode now fuel).eval takeBytes (noise ++ f.raw ++ rest) =
      (some (some (f.packet writeMode now), .noError), rest) := by
  have hraw : f.raw = ksuAddress :: f.raw.tail := by rw [f.raw_eq, List.tail_cons]
  rw [hraw, List.append_assoc, List.cons_append, readPacket, Prog.eval_bind,
    eval_skip_of_noise hn _ hf]
  exact eval_readBody_of_frame f writeMode now rest

theorem frame_of_eval_readPacket {writeMode : BitVec 32} {now : ℤ} {fuel : ℕ}
    {s s' : List Byte} {p : DataPacket} {e : ErrorCode}
    (h : (readPacket writeMode now fuel).eval takeBytes s = (some (some p, e), s')) :
    ∃ (f : Frame) (noise : List Byte), ksuAddress ∉ noise ∧ s = noise ++ f.raw ++ s' ∧
      p = f.packet writeMode now ∧ e = .noError := by
  rw [readPacket, Prog.eval_bind] at h
  rcases hskip : (skipToAddress fuel).eval takeBytes s with ⟨_ | r, s₁⟩
  · simp [hskip] at h
  · obtain ⟨rfl, noise, hn, rfl⟩ := noise_of_eval_skip hskip
    rw [hskip] at h
    obtain ⟨f, rfl, rfl, rfl⟩ := frame_of_eval_readBody h
    refine ⟨f, noise, hn, ?_, rfl, rfl⟩
    rw [f.raw_eq]
    simp

/-! ### Lines with timeouts and failures -/

variable {α : Type}

/-- A failed read ends the program with a value outside `Q`. -/
def FailsOutside (Q : α → Prop) : Reader α → Prop
  | .ret _ => True
  | .cut => True
  | .op _ k => (∀ e, (k (.error e)).Ensures fun a => ¬Q a) ∧ ∀ b, FailsOutside Q (k (.ok b))

/-- On any schedule, a value in `Q` is the one that the plain bytes give. -/
theorem eval_failsOutside_some {Q : α → Prop} {prog : Reader α} (hf : FailsOutside Q prog)
    {p p' : Port} (hp : p.echoFifo = []) {a : α} (ha : Q a)
    (h : prog.eval read p = (some a, p')) :
    prog.eval takeBytes p.incoming = (some a, p'.incoming) := by
  induction prog generalizing p with
  | ret b =>
    simp only [Prog.eval, Prod.mk.injEq, Option.some.injEq] at h
    obtain ⟨rfl, rfl⟩ := h
    rfl
  | cut => simp [Prog.eval] at h
  | op n k ih =>
    rcases hr : read n p with ⟨_ | r, p₁⟩
    · simp [Prog.eval_op_none hr] at h
    · rw [Prog.eval_op_some hr] at h
      cases r with
      | error e => exact absurd ha ((hf.1 e).eval h)
      | ok b =>
        obtain ⟨hi, hfifo⟩ := read_empty_ok hp hr
        have ht : takeBytes n p.incoming = (some (.ok b), p₁.incoming) := by
          rw [hi, takeBytes_append]
        rw [Prog.eval_op_some ht]
        exact ih (.ok b) (hf.2 b) hfifo h

/-- The same with pending echo, for a program that starts with a single-byte read: the line
starts with the echo. -/
theorem eval_failsOutside_echo {Q : α → Prop} {k : ReadResult 1 → Reader α}
    (hf : FailsOutside Q (.op 1 k)) {p p' : Port} {a : α} (ha : Q a)
    (h : (Prog.op 1 k : Reader α).eval read p = (some a, p')) :
    ∃ s, p.incoming = p.echoFifo ++ s ∧
      (Prog.op 1 k : Reader α).eval takeBytes s = (some a, p'.incoming) := by
  rcases hr : read 1 p with ⟨_ | r, p₁⟩
  · simp [Prog.eval_op_none hr] at h
  · rw [Prog.eval_op_some hr] at h
    cases r with
    | error e => exact absurd ha ((hf.1 e).eval h)
    | ok b =>
      obtain ⟨hi, hfifo⟩ := read_one_ok hr
      refine ⟨b.bytes ++ p₁.incoming, by rw [hi, List.append_assoc], ?_⟩
      rw [Prog.eval_op_some (takeBytes_append b _)]
      exact eval_failsOutside_some (hf.2 b) hfifo ha h

theorem readThen_failsOutside {n : ℕ} {k : Buffer n → Reader Received}
    (hk : ∀ b, FailsOutside (fun r : Received => r.1.isSome) (k b)) :
    FailsOutside (fun r : Received => r.1.isSome) (readThen n k) :=
  ⟨fun _ => by simp [Prog.Ensures], hk⟩

theorem readBody_failsOutside (writeMode : BitVec 32) (now : ℤ) (address : Byte) :
    FailsOutside (fun r : Received => r.1.isSome) (readBody writeMode now address) := by
  have hcrc : ∀ packet crc, FailsOutside (fun r : Received => r.1.isSome) (readCrc packet crc) :=
    fun packet crc => readThen_failsOutside fun b => by split <;> trivial
  refine readThen_failsOutside fun field => readThen_failsOutside fun cmd => ?_
  dsimp only
  split
  · trivial
  · rw [readPayload]
    split
    · exact readThen_failsOutside fun b => hcrc _ _
    · exact hcrc _ _

theorem readPacket_failsOutside (writeMode : BitVec 32) (now : ℤ) (fuel : ℕ) :
    FailsOutside (fun r : Received => r.1.isSome) (readPacket writeMode now fuel) := by
  rw [readPacket, skipToAddress]
  generalize (0 : Byte) = a
  induction fuel generalizing a with
  | zero => trivial
  | succ fuel ih =>
    rw [Prog.loop, skipRound]
    by_cases ha : a = ksuAddress
    · rw [if_pos ha]
      exact readBody_failsOutside writeMode now a
    · rw [if_neg ha]
      exact ⟨fun e => by simp [Prog.Ensures], fun b => ih (b.at 0)⟩

end Ritex
