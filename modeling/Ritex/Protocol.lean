import Ritex.Crc16

/-! Constants of `RitexDevice.h` and the command tables of `ComTrafficProcessor.cpp`. -/
namespace Ritex

/-- `ERROR_READ_*`: how a wait for a packet ended. -/
inductive ErrorCode
  | noError
  | badCrc
  | timeout
  | badPacket
  | other
  | oom
  | unexpectedPacket
  deriving DecidableEq, Repr

def ErrorCode.value : ErrorCode → ℤ
  | .noError => 0
  | .badCrc => -1
  | .timeout => -2
  | .badPacket => -3
  | .other => -4
  | .oom => -5
  | .unexpectedPacket => -6

def ksuAddress : Byte := 0x36

def writeMode (mode : ℕ) : Word := BitVec.ofNat 16 mode <<< 8

def cmdMask : Word := 0x00FF
def modeMask : Word := 0xFF00

def getCmd (x : Word) : Word := (x &&& cmdMask) >>> 0
def getMode (x : Word) : Word := (x &&& modeMask) >>> 8

theorem getCmd_eq (x : Word) : getCmd x = (lsb x).setWidth 16 := by
  have hlow : ∀ i < 8, cmdMask.getLsbD i = true := by decide
  have hhigh : ∀ i < 16, ¬i < 8 → cmdMask.getLsbD i = false := by decide
  apply BitVec.eq_of_getLsbD_eq
  intro i hi
  simp only [lsb, getCmd, BitVec.getLsbD_setWidth, BitVec.getLsbD_ushiftRight,
    BitVec.getLsbD_and, Nat.zero_add]
  by_cases h8 : i < 8
  · simp [hlow i h8, h8, hi]
  · simp [hhigh i hi h8, h8]

@[simp] theorem lsb_getCmd (x : Word) : lsb (getCmd x) = lsb x := by
  rw [getCmd_eq, lsb_setWidth]

def reqVdOn : Word := 0x80
def reqVdOff : Word := 0x84
def reqVdRotation : Word := 0x8C
def reqSettingSet : Word := 0x90
def reqDeviceReq : Word := 0x88
def reqInfo : Word := 0x94
def reqInfoRequestMode0 : Word := writeMode 0 ||| reqInfo
def reqStoredInfoRequest : Word := 0x98
def reqSettingAllGet : Word := 0x9C
def reqSetSpeed : Word := 0xA0
def reqPasswordGet : Word := 0xA4

def ackInfo : Word := 0x64

def ackInfoMode (mode : ℕ) : Word := writeMode mode ||| ackInfo

def ackStoredInfo : Word := 0x68
def ackAllSettings : Word := 0x6C
def ackAck : Word := 0x0B
def ackPasswords : Word := 0x70

def vdOnStart : Byte := 0x0
def vdOnReset : Byte := 0x16
def vdOnTune : Byte := 0x1
def vdRotateLeft : Byte := 0x0
def vdRotateRight : Byte := 0x4

def vdOnMask : Byte := 0x1
def vdModeAutoMask : Byte := 0x2

def vdStatusOffset : ℕ := 0
def writeModeOffset : ℕ := 22

inductive PacketType
  | cmd
  | ack
  deriving DecidableEq, Repr

/-! ### The parameter tables -/

/-- `__tag_cmdParams`; the length counts the command byte. -/
structure CmdParams where
  cmd : Word
  length : Word
  ack : ℤ
  deriving DecidableEq, Repr

def idxAckAck : ℤ := 0
def idxAckPasswords : ℤ := 1
def idxAckAllSettings : ℤ := 2
def idxAckInfo : ℤ := 3
def idxAckStoredInfo : ℤ := 4
def idxAckNone : ℤ := -1

def cmdParams : List CmdParams :=
  [⟨reqVdOff, 1, idxAckInfo⟩,
   ⟨reqInfoRequestMode0, 1, idxAckInfo⟩,
   ⟨reqDeviceReq, 1, idxAckAck⟩,
   ⟨reqSettingAllGet, 1, idxAckAllSettings⟩,
   ⟨reqPasswordGet, 1, idxAckPasswords⟩,
   ⟨reqVdRotation, 2, idxAckInfo⟩,
   ⟨reqVdOn, 2, idxAckInfo⟩,
   ⟨reqSetSpeed, 2, idxAckAck⟩,
   ⟨reqSettingSet, 4, idxAckAllSettings⟩,
   ⟨reqStoredInfoRequest, 7, idxAckStoredInfo⟩]

def maxCommandIndex : ℕ := cmdParams.length

def ackParams : List CmdParams :=
  [⟨ackAck, 2, idxAckNone⟩,
   ⟨ackPasswords, 5, idxAckNone⟩,
   ⟨ackAllSettings, 0x30, idxAckAck⟩,
   ⟨ackInfoMode 0, 0x28, idxAckNone⟩,
   ⟨ackInfoMode 1, 0x05, idxAckNone⟩,
   ⟨ackInfoMode 2, 0x20, idxAckNone⟩,
   ⟨ackInfoMode 3, 0x12, idxAckNone⟩,
   ⟨ackInfoMode 4, 0x0D, idxAckNone⟩,
   ⟨ackInfoMode 5, 0x12, idxAckNone⟩,
   ⟨ackInfoMode 6, 0x13, idxAckNone⟩,
   ⟨ackStoredInfo, 0x213, idxAckNone⟩]

/-- `MAX_ACK_INDEX` is computed from the size of `m_cmdParams`. -/
def maxAckIndex : ℕ := cmdParams.length

def hasRow (table : List CmdParams) (bound : ℕ) (cmd : Byte) (length : Word) : Bool :=
  (table.take bound).any fun row => getCmd row.cmd == cmd.setWidth 16 && row.length == length

/-- `isLengthMatches`; the type of the packet is the table the row was found in. -/
def isLengthMatches (cmd : Byte) (length : Word) : Option PacketType :=
  if hasRow cmdParams maxCommandIndex cmd length then some .cmd
  else if hasRow ackParams maxAckIndex cmd length then some .ack
  else none

/-- `GetAckForCmd`; the scan has no break, so the last matching row counts. -/
def getAckForCmd (cmd : Word) (primary : Bool) : ℤ :=
  let index := (cmdParams.take maxCommandIndex).foldl
    (fun index row => if row.cmd = cmd then row.ack else index) (-1)
  if index = -1 then -1
  else
    let index := if primary then index else (ackParams.map CmdParams.ack).getD index.toNat (-1)
    if index = -1 then -1
    else (((ackParams.map CmdParams.cmd).getD index.toNat 0).toNat : ℤ)

theorem hasRow_iff {table : List CmdParams} {bound : ℕ} {cmd : Byte} {length : Word} :
    hasRow table bound cmd length = true ↔
      ∃ row ∈ table.take bound, getCmd row.cmd = cmd.setWidth 16 ∧ row.length = length := by
  simp [hasRow, List.any_eq_true]

theorem isLengthMatches_row {cmd : Byte} {length : Word} {type : PacketType}
    (h : isLengthMatches cmd length = some type) :
    ∃ row ∈ cmdParams ++ ackParams, getCmd row.cmd = cmd.setWidth 16 ∧ row.length = length := by
  rw [isLengthMatches] at h
  split at h
  · rename_i hcmd
    obtain ⟨row, hrow, hr⟩ := hasRow_iff.mp hcmd
    exact ⟨row, List.mem_append_left _ (List.mem_of_mem_take hrow), hr⟩
  · split at h
    · rename_i hack
      obtain ⟨row, hrow, hr⟩ := hasRow_iff.mp hack
      exact ⟨row, List.mem_append_right _ (List.mem_of_mem_take hrow), hr⟩
    · simp at h

theorem isLengthMatches_length_pos {cmd : Byte} {length : Word} {type : PacketType}
    (h : isLengthMatches cmd length = some type) : 0 < length.toNat := by
  obtain ⟨row, hrow, -, rfl⟩ := isLengthMatches_row h
  have hpos : ∀ row ∈ cmdParams ++ ackParams, 0 < row.length.toNat := by decide
  exact hpos row hrow

/-- The length is counted down by the command byte, which does not underflow. -/
theorem toNat_sub_one_of_matches {cmd : Byte} {length : Word} {type : PacketType}
    (h : isLengthMatches cmd length = some type) : (length - 1).toNat + 1 = length.toNat := by
  have hpos := isLengthMatches_length_pos h
  rw [BitVec.toNat_sub_of_le (by rw [BitVec.le_def]; exact hpos)]
  exact Nat.sub_add_cancel hpos

/-! ### Packets -/

theorem nil_length_lt : ([] : List Byte).length < 2 ^ 16 := by decide

theorem one_length_lt (a : Byte) : [a].length < 2 ^ 16 := by simp

theorem three_length_lt (a b c : Byte) : [a, b, c].length < 2 ^ 16 := by simp

/-- `DataPacket`, with the payload that `m_pData` and `m_size` hold. -/
structure DataPacket where
  type : PacketType
  address : Byte
  cmd : Word
  timestamp : ℤ
  data : List Byte
  size_lt : data.length < 2 ^ 16
  deriving DecidableEq

namespace DataPacket

def size (p : DataPacket) : Word := BitVec.ofNat 16 p.data.length

def setCmdMode (p : DataPacket) (mode : Word) : DataPacket :=
  { p with cmd := p.cmd ||| (mode &&& 0xFF) <<< 8 }

/-- `CreateRawPacket`: address, length most significant byte first, command, payload, checksum. -/
def createRawPacket (p : DataPacket) : List Byte :=
  let body := [p.address, msb (p.size + 1), lsb (p.size + 1), lsb (getCmd p.cmd)] ++ p.data
  let crc := crc16 0 body
  body ++ [msb crc, lsb crc]

end DataPacket

/-- `(m_writeMode + i) % 7`. -/
def cycleMode (writeMode : BitVec 32) (i : ℕ) : ℤ := (writeMode.toInt + i).tmod 7

end Ritex
