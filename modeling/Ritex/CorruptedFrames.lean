import Ritex.Crc16Division
import Ritex.EchoTransparency
import Ritex.TableAnswers

/-! Frames that an error has changed behind the header: `ReadPacket` rejects them. -/
namespace Ritex
open Polynomial BinaryPolynomial Interaction

/-- `ReadPacket` makes a packet of the bytes, from the address byte to the last. -/
def Accepted (frame : List Byte) : Prop :=
  frame.head? = some ksuAddress ∧ ∃ writeMode now fuel p packet error p',
    p.incoming = p.echoFifo ++ frame ∧ p'.incoming = [] ∧
      (readPacket writeMode now fuel).eval read p = (some (some packet, error), p')

/-- Payload and checksum changed by the pattern; the header stays. -/
def corrupt (frame pattern : List Byte) : List Byte :=
  frame.take 4 ++ List.zipWith (· ^^^ ·) (frame.drop 4) pattern

/-- The frame on the line, behind the echo that is awaited and noise without an address byte. -/
structure Arrives (noise frame rest : List Byte) (p : Port) : Prop where
  notMem : ksuAddress ∉ noise
  incoming : p.incoming = p.echoFifo ++ (noise ++ frame ++ rest)

/-- `ReadPacket` answers null and `ERROR_READ_BAD_CRC` if the line does not fail, and no packet if it does. -/
structure Rejected (frame : List Byte) : Prop where
  returns : ∀ noise rest p, Arrives noise frame rest p → (∀ q ∈ p.polls, q.Quiet) →
    p.incoming.length ≤ dataPolls p.polls → ∀ writeMode now fuel, noise.length + 2 ≤ fuel →
      ∃ p', (readPacket writeMode now fuel).eval read p = (some (none, .badCrc), p') ∧
        p'.incoming = rest
  no_packet : ∀ noise rest p, Arrives noise frame rest p → ∀ writeMode now fuel packet error p',
    (readPacket writeMode now fuel).eval read p ≠ (some (some packet, error), p')

/-! ### Accepted frames -/

/-- Whatever the port does, a packet is made of the bytes behind the echo. -/
theorem eval_takeBytes_of_packet {writeMode : BitVec 32} {now : ℤ} {fuel : ℕ} {p p' : Port}
    {packet : DataPacket} {error : ErrorCode} {line : List Byte} (hp : p.incoming = p.echoFifo ++ line)
    (h : (readPacket writeMode now fuel).eval read p = (some (some packet, error), p')) :
    (readPacket writeMode now fuel).eval takeBytes line =
      (some (some packet, error), p'.incoming) := by
  cases fuel with
  | zero => simp [readPacket, skipToAddress, Prog.loop, Prog.eval] at h
  | succ fuel =>
    have houtside := readPacket_failsOutside writeMode now (fuel + 1)
    obtain ⟨k, hk⟩ := readPacket_eq_op writeMode now fuel
    rw [hk] at h houtside ⊢
    obtain ⟨s, hs, heval⟩ := eval_failsOutside_echo houtside rfl h
    have hline : s = line := List.append_cancel_left (hs.symm.trans hp)
    rwa [← hline]

theorem accepted_iff {frame : List Byte} : Accepted frame ↔ ∃ f : Frame, frame = f.raw := by
  constructor
  · rintro ⟨hhead, writeMode, now, fuel, p, packet, error, p', hp, hrest, h⟩
    obtain ⟨f, noise, hn, hframe, -, -⟩ := frame_of_eval_readPacket (eval_takeBytes_of_packet hp h)
    rw [hrest, List.append_nil] at hframe
    cases noise with
    | nil => exact ⟨f, hframe⟩
    | cons x noise =>
      rw [hframe] at hhead
      obtain rfl : x = ksuAddress := by simpa using hhead
      exact absurd List.mem_cons_self hn
  · rintro ⟨f, rfl⟩
    have hn : ksuAddress ∉ ([] : List Byte) := by simp
    have hplain := eval_readPacket_of_frame f hn [] 0 0 (le_refl 2)
    rw [List.nil_append, List.append_nil] at hplain
    obtain ⟨hp, hpolls⟩ := delivers_bytes f.raw
    obtain ⟨p', heval, hrest⟩ := eval_quiet_returns (readPacket_only 0 0 2) hp.quiet hplain hpolls
    have hhead : f.raw.head? = some ksuAddress := by
      rw [f.raw_eq]
      rfl
    exact ⟨hhead, 0, 0, 2, _, _, _, p', rfl, hrest, heval⟩

/-! ### Changed frames -/

theorem rejected_of_answer {frame s : List Byte} (hframe : frame = ksuAddress :: s)
    (h : ∀ writeMode now rest,
      TableAnswer isLengthMatches writeMode now (s ++ rest) (none, .badCrc) rest) :
    Rejected frame := by
  subst hframe
  constructor
  · rintro noise rest p ⟨hn, hline⟩ hquiet hpolls writeMode now fuel hfuel
    have hplain := eval_readPacket_of_answer hn (h writeMode now rest) hfuel
    rw [← List.cons_append, ← List.append_assoc] at hplain
    exact readPacket_behind_echo hline hquiet hpolls hplain
  · rintro noise rest p ⟨hn, hline⟩ writeMode now fuel packet error p' heval
    have hplain := eval_takeBytes_of_packet hline heval
    rw [List.append_assoc, List.cons_append] at hplain
    have hanswer := answer_of_eval_readPacket hn hplain
    obtain ⟨heq, -⟩ := hanswer.unique (h writeMode now rest)
    cases heq

theorem Frame.length_wordsBits_le (f : Frame) {pattern : List Byte}
    (hlength : pattern.length = f.payload.length + 2) : (wordsBits pattern).length ≤ 4256 := by
  obtain ⟨row, hrow, -, hrowLength⟩ := f.exists_row
  have hlong : ∀ row ∈ cmdParams ++ ackParams, row.length.toNat ≤ 0x213 := by decide
  have hle := hlong row hrow
  rw [length_wordsBits]
  omega

/-- Header, payload and checksum of a frame are a multiple of the generator. -/
theorem Frame.generator_dvd (f : Frame) : crcGenerator ∣ wordsPoly
    ([ksuAddress, msb f.lengthField, lsb f.lengthField, f.cmd] ++ (f.payload ++ [msb f.crc, lsb f.crc])) := by
  rw [← List.append_assoc, ← crc16_eq_iff, msb_append_lsb]
  rfl

theorem Frame.corrupt_rejected (f : Frame) {pattern : List Byte}
    (hlength : pattern.length = f.payload.length + 2) (herror : DetectedError (wordsBits pattern)) :
    Rejected (corrupt f.raw pattern) := by
  let tail := f.payload ++ [msb f.crc, lsb f.crc]
  have htail : tail.length = pattern.length := by simp [tail, hlength]
  obtain ⟨payload, high, low, hbytes, hpayload⟩ : ∃ payload high low,
      List.zipWith (· ^^^ ·) tail pattern = payload ++ [high, low] ∧
        payload.length = f.payload.length := by
    have hzip : (List.zipWith (· ^^^ ·) tail pattern).length = f.payload.length + 2 := by
      rw [List.length_zipWith, htail, min_self, hlength]
    have hlast : ((List.zipWith (· ^^^ ·) tail pattern).drop f.payload.length).length = 2 := by
      rw [List.length_drop, hzip]
      omega
    obtain ⟨high, low, hdrop⟩ := List.length_eq_two.mp hlast
    refine ⟨(List.zipWith (· ^^^ ·) tail pattern).take f.payload.length, high, low, ?_, ?_⟩
    · rw [← hdrop, List.take_append_drop]
    · rw [List.length_take, hzip]
      omega
  have hcrc : high ++ low ≠
      crc16 0 ([ksuAddress, msb f.lengthField, lsb f.lengthField, f.cmd] ++ payload) := by
    rw [Ne, crc16_eq_iff, List.append_assoc, ← hbytes, dvd_wordsPoly_xor htail f.generator_dvd]
    exact not_dvd_of_detectedError (f.length_wordsBits_le hlength) herror
  have hcorrupt : corrupt f.raw pattern =
      ksuAddress :: msb f.lengthField :: lsb f.lengthField :: f.cmd :: (payload ++ [high, low]) := by
    rw [corrupt, f.raw_eq, ← hbytes]
    rfl
  refine rejected_of_answer hcorrupt fun writeMode now rest => ?_
  have haccepted : isLengthMatches f.cmd (msb f.lengthField ++ lsb f.lengthField) = some f.type := by
    rw [msb_append_lsb]
    exact f.accepted
  have hfield : payload.length + 1 = (msb f.lengthField ++ lsb f.lengthField).toNat := by
    rw [msb_append_lsb, f.toNat_lengthField, hpayload]
  have hanswer : TableAnswer isLengthMatches writeMode now (msb f.lengthField :: lsb f.lengthField :: f.cmd ::
      (payload ++ high :: low :: rest)) (none, .badCrc) rest := .badCrc haccepted hfield hcrc
  simpa using hanswer

/-- `Crc16` is the remainder of the message at the generator, taken one part after the other; with it
`ReadPacket` rejects every frame that bursts of sixteen bits, an odd number of flips or two flips have
changed behind the header. -/
theorem corrupted_frames_rejected :
    (∀ m : List Byte, wordPoly (crc16 0 m) = (wordsPoly m * X ^ 16) %ₘ crcGenerator) ∧
    (∀ (crc : Word) (xs ys : List Byte), crc16 crc (xs ++ ys) = crc16 (crc16 crc xs) ys) ∧
    ∀ frame pattern, Accepted frame → pattern.length + 4 = frame.length →
      DetectedError (wordsBits pattern) → Rejected (corrupt frame pattern) := by
  refine ⟨fun m => ?_, crc16_append, fun frame pattern haccepted hlength herror => ?_⟩
  · have h := crc16_eq_modByMonic 0 m
    rwa [wordPoly_zero, zero_mul, zero_add] at h
  · obtain ⟨f, rfl⟩ := accepted_iff.mp haccepted
    have hpattern : pattern.length = f.payload.length + 2 := by
      rw [f.raw_eq] at hlength
      simpa using hlength
    exact f.corrupt_rejected hpattern herror

/-- An acknowledgement with a flipped bit in its code and another one in its checksum. -/
theorem corrupted_frames_rejected_ack : Rejected [0x36, 0x00, 0x02, 0x0B, 0x16, 0x30, 0xCD] := by
  have hraw : Frame.raw ⟨.ack, 0x0B, [0x96], by decide, by decide⟩ =
      [0x36, 0x00, 0x02, 0x0B, 0x96, 0x30, 0xCC] := by decide +kernel
  have haccepted : Accepted [0x36, 0x00, 0x02, 0x0B, 0x96, 0x30, 0xCC] :=
    accepted_iff.mpr ⟨_, hraw.symm⟩
  have htwo : (wordsBits ([0x80, 0x00, 0x01] : List Byte)).count true = 2 := by decide
  have hrejected := corrupted_frames_rejected.2.2 _ [0x80, 0x00, 0x01] haccepted rfl (.inr (.inr htwo))
  have hcorrupt : corrupt [0x36, 0x00, 0x02, 0x0B, 0x96, 0x30, 0xCC] [0x80, 0x00, 0x01] =
      [0x36, 0x00, 0x02, 0x0B, 0x16, 0x30, 0xCD] := by decide
  rwa [hcorrupt] at hrejected

end Ritex
