import Ritex.BusDiscipline

/-! The records that the device makes of a packet: one for each entry of the offset table under the
packet's command. -/
namespace Ritex

/-- The big-endian value of one or two bytes that a payload carries for an entry. -/
def payloadValue (payload : List Byte) (entry : OffsetTableEntry) : ℕ :=
  if entry.size = 1 then (payload.getD entry.offset 0).toNat
  else (payload.getD entry.offset 0 ++ payload.getD (entry.offset + 1) 0 : Word).toNat

def channelRecord (packet : DataPacket) (entry : OffsetTableEntry) : DBDataPacket :=
  ⟨entry.channelId, entry.paramId, packet.timestamp, payloadValue packet.data entry⟩

/-- The payload holds the one or two bytes of the entry. -/
structure Covers (payload : List Byte) (entry : OffsetTableEntry) : Prop where
  size : entry.size = 1 ∨ entry.size = 2
  inside : entry.offset + entry.size ≤ payload.length

theorem DataPacket.memory_of_lt (packet : DataPacket) (beyond : ℕ → Byte) {i : ℕ}
    (hi : i < packet.data.length) : packet.memory beyond i = packet.data.getD i 0 := by
  rw [DataPacket.memory, List.getD_eq_getElem _ _ hi, List.getD_eq_getElem _ _ hi]

theorem entryValue_value {packet : DataPacket} {entry : OffsetTableEntry}
    (h : Covers packet.data entry) (beyond : ℕ → Byte) :
    (entryValue entry).value (packet.memory beyond) = payloadValue packet.data entry := by
  have hinside := h.inside
  unfold entryValue payloadValue
  rcases h.size with hsize | hsize
  · rw [if_pos hsize, if_pos hsize, ← packet.memory_of_lt beyond (by omega)]
    rfl
  · rw [if_neg (by omega), if_pos hsize, if_neg (by omega),
      ← packet.memory_of_lt beyond (i := entry.offset) (by omega),
      ← packet.memory_of_lt beyond (i := entry.offset + 1) (by omega)]
    exact congrArg BitVec.toNat (swap16_ofMemory _ _)

/-- The entries under the command of a packet, one record each. -/
theorem reportDataPacket_value {table : List OffsetTableEntry} {packet : DataPacket}
    (h : ∀ entry ∈ table, entry.cmd = packet.cmd → Covers packet.data entry) (beyond : ℕ → Byte) :
    (reportDataPacket table packet).value (packet.memory beyond) =
      (table.filter fun entry => entry.cmd = packet.cmd).map (channelRecord packet) := by
  induction table with
  | nil => rfl
  | cons entry table ih =>
    have hrest := ih fun entry hentry => h entry (List.mem_cons_of_mem _ hentry)
    rw [reportDataPacket, List.filter_cons]
    by_cases hcmd : entry.cmd = packet.cmd
    · have hvalue := entryValue_value (h entry List.mem_cons_self hcmd) beyond
      rw [if_pos hcmd, if_pos (decide_eq_true hcmd), List.map_cons, ← hrest, channelRecord, ← hvalue]
      rfl
    · rw [if_neg hcmd, if_neg (by simpa using hcmd)]
      exact hrest

end Ritex
