import Ritex.Interaction
import Ritex.Port

/-! `ComTrafficProcessor::ReadPacket` as a program whose operations are the calls of `Read`,
and the frames it accepts. -/
namespace Ritex
open Interaction

/-- A program that reads from the port; the operation is the number of bytes asked for. -/
abbrev Reader (α : Type) := Prog ℕ ReadResult α

/-- The packet that `ReadPacket` returns, if any, and its `error`. -/
abbrev Received := Option DataPacket × ErrorCode

/-- Read `n` bytes and go on with them; a negative result is handed on as the error. -/
def readThen (n : ℕ) (k : Buffer n → Reader Received) : Reader Received :=
  .op n fun
    | .ok b => k b
    | .error e => .ret (none, e.code)

def skipRound (address : Byte) : Reader (Byte ⊕ Except ReadError Byte) :=
  if address = ksuAddress then .ret (.inr (.ok address))
  else .op 1 fun
    | .ok b => .ret (.inl (b.at 0))
    | .error e => .ret (.inr (.error e))

/-- The loop that looks for `KSU_ADDRESS`. -/
def skipToAddress (fuel : ℕ) : Reader (Except ReadError Byte) := Prog.loop skipRound fuel 0

/-- `longCmd`: an information packet is labelled with `m_writeMode`. -/
def longCmd (writeMode : BitVec 32) (cmd : Byte) : Word :=
  if cmd.setWidth 16 = ackInfoMode 0 then (writeMode <<< 8 ||| cmd.setWidth 32).setWidth 16
  else cmd.setWidth 16

theorem Buffer.bytes_lt {length : Word} (b : Buffer length.toNat) :
    b.bytes.length < 2 ^ 16 := by
  rw [b.length_eq]
  exact length.isLt

def readCrc (packet : DataPacket) (calculatedCrc16 : Word) : Reader Received :=
  readThen 2 fun b =>
    if swap16 (ofMemory (b.at 0) (b.at 1)) ≠ calculatedCrc16 then .ret (none, .badCrc)
    else .ret (some packet, .noError)

/-- The payload is read only if the length, with the command taken off, is not zero. -/
def readPayload (type : PacketType) (address : Byte) (longCmd : Word) (now : ℤ) (length crc : Word) :
    Reader Received :=
  if 0 < length.toNat then
    readThen length.toNat fun b =>
      readCrc ⟨type, address, longCmd, now, b.bytes, b.bytes_lt⟩ (crc16 crc b.bytes)
  else readCrc ⟨type, address, longCmd, now, [], nil_length_lt⟩ crc

/-- The command byte and the length check; the first parameter of `isLengthMatches` is an
unsigned char. -/
def readCommand (writeMode : BitVec 32) (now : ℤ) (address : Byte) (length crc : Word) :
    Reader Received :=
  readThen 1 fun b =>
    let cmd := b.at 0
    let longCmd := longCmd writeMode cmd
    match isLengthMatches (lsb longCmd) length with
    | none => .ret (none, .badPacket)
    | some type => readPayload type address longCmd now (length - 1) (crc16Byte crc cmd)

def readBody (writeMode : BitVec 32) (now : ℤ) (address : Byte) : Reader Received :=
  readThen 2 fun b =>
    readCommand writeMode now address (swap16 (ofMemory (b.at 0) (b.at 1)))
      (crc16 (crc16Byte 0 address) b.bytes)

def readPacket (writeMode : BitVec 32) (now : ℤ) (fuel : ℕ) : Reader Received :=
  (skipToAddress fuel).bind fun
    | .ok address => readBody writeMode now address
    | .error e => .ret (none, e.code)

theorem lsb_longCmd (writeMode : BitVec 32) (cmd : Byte) : lsb (longCmd writeMode cmd) = cmd := by
  rw [longCmd]
  split
  · apply BitVec.eq_of_getLsbD_eq
    intro i hi
    simp only [lsb, BitVec.getLsbD_setWidth, BitVec.getLsbD_or, BitVec.getLsbD_shiftLeft]
    grind
  · simp [lsb]

/-! ### The reads of `ReadPacket` -/

theorem readThen_only {n : ℕ} (hn : 0 < n) {k : Buffer n → Reader Received}
    (hk : ∀ b, (k b).Only (0 < ·)) : (readThen n k).Only (0 < ·) :=
  ⟨hn, fun r => match r with
    | .ok b => hk b
    | .error _ => trivial⟩

theorem readCrc_only (packet : DataPacket) (crc : Word) : (readCrc packet crc).Only (0 < ·) :=
  readThen_only (by decide) fun b => by split <;> trivial

theorem readBody_only (writeMode : BitVec 32) (now : ℤ) (address : Byte) :
    (readBody writeMode now address).Only (0 < ·) := by
  refine readThen_only (by decide) fun field => readThen_only (by decide) fun cmd => ?_
  dsimp only
  split
  · trivial
  · rw [readPayload]
    split
    · rename_i hlen
      exact readThen_only hlen fun b => readCrc_only _ _
    · exact readCrc_only _ _

theorem skipToAddress_only (fuel : ℕ) : (skipToAddress fuel).Only (0 < ·) := by
  refine Prog.Only.loop (fun a => ?_) fuel 0
  unfold skipRound
  split
  · trivial
  · exact ⟨by decide, fun r => by cases r <;> trivial⟩

theorem readPacket_only (writeMode : BitVec 32) (now : ℤ) (fuel : ℕ) :
    (readPacket writeMode now fuel).Only (0 < ·) :=
  (skipToAddress_only fuel).bind fun r => match r with
    | .ok address => readBody_only writeMode now address
    | .error _ => trivial

/-! ### Frames -/

/-- The contents of a frame that passes the length check. -/
structure Frame where
  type : PacketType
  cmd : Byte
  payload : List Byte
  length_lt : payload.length + 1 < 2 ^ 16
  accepted : isLengthMatches cmd (BitVec.ofNat 16 (payload.length + 1)) = some type
  deriving DecidableEq

namespace Frame

def packet (f : Frame) (writeMode : BitVec 32) (now : ℤ) : DataPacket :=
  ⟨f.type, ksuAddress, longCmd writeMode f.cmd, now, f.payload, by have := f.length_lt; omega⟩

def raw (f : Frame) : List Byte :=
  DataPacket.createRawPacket
    ⟨f.type, ksuAddress, f.cmd.setWidth 16, 0, f.payload, by have := f.length_lt; omega⟩

theorem exists_row (f : Frame) : ∃ row ∈ cmdParams ++ ackParams,
    getCmd row.cmd = f.cmd.setWidth 16 ∧ row.length.toNat = f.payload.length + 1 := by
  obtain ⟨row, hrow, hcmd, hlength⟩ := isLengthMatches_row f.accepted
  have hlt := f.length_lt
  refine ⟨row, hrow, hcmd, ?_⟩
  rw [hlength, BitVec.toNat_ofNat, Nat.mod_eq_of_lt hlt]

end Frame

inductive WaitError
  | timeout
  | other
  | badPacket
  | badCrc
  deriving DecidableEq, Repr

def WaitError.code : WaitError → ErrorCode
  | .timeout => .timeout
  | .other => .other
  | .badPacket => .badPacket
  | .badCrc => .badCrc

/-- How one call of `WaitForKsuActivity` ends. -/
abbrev Wait := Except WaitError Frame

def Wait.received (writeMode : BitVec 32) (now : ℤ) : Wait → Received
  | .ok f => (some (f.packet writeMode now), .noError)
  | .error e => (none, e.code)

/-! ### The results of `ReadPacket` -/

def FromWait (writeMode : BitVec 32) (now : ℤ) (r : Received) : Prop :=
  ∃ w : Wait, r = w.received writeMode now

theorem fromWait_readError (writeMode : BitVec 32) (now : ℤ) (e : ReadError) :
    FromWait writeMode now (none, e.code) := by
  cases e with
  | timeout => exact ⟨.error .timeout, rfl⟩
  | other => exact ⟨.error .other, rfl⟩

theorem readThen_ensures {writeMode : BitVec 32} {now : ℤ} {n : ℕ} {k : Buffer n → Reader Received}
    (hk : ∀ b, (k b).Ensures (FromWait writeMode now)) :
    (readThen n k).Ensures (FromWait writeMode now) := by
  intro r
  cases r with
  | ok b => exact hk b
  | error e => exact fromWait_readError writeMode now e

theorem readCrc_ensures (f : Frame) (writeMode : BitVec 32) (now : ℤ) (crc : Word) :
    (readCrc (f.packet writeMode now) crc).Ensures (FromWait writeMode now) := by
  refine readThen_ensures fun b => ?_
  split
  · exact ⟨.error .badCrc, rfl⟩
  · exact ⟨.ok f, rfl⟩

theorem readBody_ensures (writeMode : BitVec 32) (now : ℤ) :
    (readBody writeMode now ksuAddress).Ensures (FromWait writeMode now) := by
  refine readThen_ensures fun field => readThen_ensures fun cmd => ?_
  dsimp only
  cases htype : isLengthMatches (lsb (longCmd writeMode (cmd.at 0)))
      (swap16 (ofMemory (field.at 0) (field.at 1))) with
  | none => exact ⟨.error .badPacket, rfl⟩
  | some type =>
    rw [lsb_longCmd] at htype
    generalize swap16 (ofMemory (field.at 0) (field.at 1)) = length at htype ⊢
    have hsub := toNat_sub_one_of_matches htype
    have hframe : ∀ payload : List Byte, payload.length = (length - 1).toNat →
        ∃ hlt : payload.length + 1 < 2 ^ 16,
          isLengthMatches (cmd.at 0) (BitVec.ofNat 16 (payload.length + 1)) = some type := by
      intro payload hlen
      rw [hlen, hsub, BitVec.ofNat_toNat, BitVec.setWidth_eq]
      exact ⟨length.isLt, htype⟩
    show (readPayload _ _ _ _ _ _).Ensures _
    unfold readPayload
    split
    · refine readThen_ensures fun b => ?_
      obtain ⟨hlt, haccepted⟩ := hframe b.bytes b.length_eq
      exact readCrc_ensures ⟨type, cmd.at 0, b.bytes, hlt, haccepted⟩ writeMode now _
    · obtain ⟨hlt, haccepted⟩ := hframe [] (by simp only [List.length_nil]; omega)
      exact readCrc_ensures ⟨type, cmd.at 0, [], hlt, haccepted⟩ writeMode now _

/-- Whatever the port does, `ReadPacket` yields an accepted frame under the label of its mode or
one of the errors of a wait. -/
theorem readPacket_ensures (writeMode : BitVec 32) (now : ℤ) (fuel : ℕ) :
    (readPacket writeMode now fuel).Ensures (FromWait writeMode now) := by
  have hskip : (skipToAddress fuel).Ensures fun r => ∀ a, r = .ok a → a = ksuAddress := by
    refine Prog.Ensures.loop (J := fun _ => True) (fun a _ => ?_) fuel trivial
    unfold skipRound
    split
    next ha =>
      rintro b heq
      exact (Except.ok.inj heq).symm.trans ha
    next =>
      intro r
      cases r with
      | ok b => trivial
      | error e =>
        rintro b heq
        cases heq
  refine hskip.bind fun r hr => ?_
  cases r with
  | ok address =>
    rw [hr address rfl]
    exact readBody_ensures writeMode now
  | error e => exact fromWait_readError writeMode now e

end Ritex
