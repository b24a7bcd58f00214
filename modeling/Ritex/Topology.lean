import Ritex.Payload

/-! The parameters of the station and where information packets carry them:
`RitexDevice::RitexDevice`, `FindGarameter`, `CreateOffsetTable` and `ReportDataPacket`. -/
namespace Ritex

structure ControllerData where
  cmd : Word
  offset : ℕ
  size : ℕ
  deriving DecidableEq, Repr

/-- `AdapterParameter`, as far as the offset table uses it. -/
structure AdapterParameter where
  id : ℤ
  controllerData : Option ControllerData
  deriving DecidableEq, Repr

def deviceStateChannelParam : ℤ := 1050100010

def deviceChannels : List AdapterParameter := [⟨deviceStateChannelParam, none⟩]

def sensorChannels : List AdapterParameter :=
  [⟨1050100150, some ⟨ackInfoMode 5, 2, 2⟩⟩,
   ⟨1050000020, some ⟨ackInfoMode 5, 4, 2⟩⟩,
   ⟨1050000030, some ⟨ackInfoMode 5, 6, 1⟩⟩,
   ⟨1050109020, some ⟨ackInfoMode 5, 7, 2⟩⟩,
   ⟨1050109030, some ⟨ackInfoMode 5, 9, 2⟩⟩,
   ⟨1050110080, some ⟨ackInfoMode 5, 11, 1⟩⟩,
   ⟨1050101010, some ⟨ackInfoMode 5, 12, 1⟩⟩,
   ⟨1050110090, some ⟨ackInfoMode 5, 13, 1⟩⟩,
   ⟨1050101020, some ⟨ackInfoMode 5, 14, 1⟩⟩,
   ⟨1050110100, some ⟨ackInfoMode 5, 15, 1⟩⟩,
   ⟨1050101030, some ⟨ackInfoMode 5, 16, 1⟩⟩,
   ⟨1050110030, some ⟨ackInfoMode 2, 7, 1⟩⟩,
   ⟨1050110040, some ⟨ackInfoMode 2, 8, 1⟩⟩,
   ⟨1050111080, some ⟨ackInfoMode 2, 9, 2⟩⟩,
   ⟨1050111090, some ⟨ackInfoMode 2, 11, 2⟩⟩,
   ⟨1050111100, some ⟨ackInfoMode 2, 13, 2⟩⟩,
   ⟨1050111110, some ⟨ackInfoMode 2, 15, 2⟩⟩,
   ⟨1050111120, some ⟨ackInfoMode 2, 17, 2⟩⟩,
   ⟨1050104000, some ⟨ackInfoMode 2, 25, 1⟩⟩,
   ⟨1050104010, some ⟨ackInfoMode 2, 26, 1⟩⟩,
   ⟨1050100110, some ⟨ackInfoMode 2, 27, 1⟩⟩,
   ⟨1050100120, some ⟨ackInfoMode 2, 28, 1⟩⟩,
   ⟨1050100130, some ⟨ackInfoMode 2, 29, 1⟩⟩,
   ⟨1050100140, some ⟨ackInfoMode 2, 30, 1⟩⟩,
   ⟨1050100090, some ⟨ackInfoMode 0, 0, 1⟩⟩,
   ⟨1050100100, some ⟨ackInfoMode 0, 1, 1⟩⟩,
   ⟨1050101000, some ⟨ackInfoMode 0, 13, 2⟩⟩,
   ⟨1050110050, some ⟨ackInfoMode 2, 4, 1⟩⟩,
   ⟨1050110060, some ⟨ackInfoMode 2, 5, 1⟩⟩,
   ⟨1050110070, some ⟨ackInfoMode 2, 6, 1⟩⟩,
   ⟨1050111000, some ⟨ackInfoMode 2, 19, 2⟩⟩,
   ⟨1050111010, some ⟨ackInfoMode 2, 21, 2⟩⟩,
   ⟨1050111020, some ⟨ackInfoMode 2, 23, 2⟩⟩,
   ⟨1050111070, some ⟨ackInfoMode 0, 5, 2⟩⟩,
   ⟨1050110020, some ⟨ackInfoMode 0, 15, 1⟩⟩,
   ⟨1050100060, some ⟨ackInfoMode 0, 8, 1⟩⟩,
   ⟨1050100070, some ⟨ackInfoMode 0, 9, 1⟩⟩,
   ⟨1050100080, some ⟨ackInfoMode 0, 10, 1⟩⟩,
   ⟨1050110010, some ⟨ackInfoMode 0, 4, 1⟩⟩,
   ⟨1050100050, some ⟨ackInfoMode 0, 7, 1⟩⟩,
   ⟨1050112010, some ⟨ackInfoMode 0, 35, 2⟩⟩,
   ⟨1050112020, some ⟨ackInfoMode 0, 18, 1⟩⟩,
   ⟨1050117000, some ⟨ackInfoMode 0, 11, 2⟩⟩,
   ⟨1050109010, some ⟨ackInfoMode 0, 2, 2⟩⟩,
   ⟨1050201000, some ⟨ackInfoMode 0, 29, 2⟩⟩,
   ⟨1050102010, some ⟨ackInfoMode 0, 25, 2⟩⟩,
   ⟨1050601010, some ⟨ackInfoMode 0, 33, 2⟩⟩,
   ⟨1080105030, some ⟨ackInfoMode 0, 17, 1⟩⟩,
   ⟨1080104010, some ⟨ackInfoMode 0, 16, 1⟩⟩,
   ⟨1080104020, some ⟨ackInfoMode 3, 2, 1⟩⟩,
   ⟨1080100009, some ⟨ackInfoMode 3, 4, 2⟩⟩,
   ⟨1080100010, some ⟨ackInfoMode 3, 6, 2⟩⟩,
   ⟨1080105040, some ⟨ackInfoMode 3, 10, 2⟩⟩]

/-- `FindGarameter`: device channels come before the sensor's. -/
def findGarameter (paramId : ℤ) : Option AdapterParameter :=
  (deviceChannels ++ sensorChannels).find? fun param => param.id == paramId

structure ParameterFilterEntry where
  channelId : ℤ
  paramId : ℤ
  deriving DecidableEq, Repr

abbrev ParameterFilter := List ParameterFilterEntry

def ParameterFilter.findChannel (filter : ParameterFilter) (param : ℤ) : ℤ :=
  match filter.find? fun entry => entry.paramId == param with
  | some entry => entry.channelId
  | none => -1

def getDeviceStateChannelId (filter : ParameterFilter) : ℤ :=
  filter.findChannel deviceStateChannelParam

structure OffsetTableEntry where
  paramId : ℤ
  channelId : ℤ
  cmd : Word
  offset : ℕ
  size : ℕ
  deriving DecidableEq, Repr

/-- The entry for one item of the filter: none if the topology does not know the parameter or
the station does not send it. -/
def offsetTableEntry (item : ParameterFilterEntry) : Option OffsetTableEntry := do
  let param ← findGarameter item.paramId
  let data ← param.controllerData
  return ⟨item.paramId, item.channelId, data.cmd, data.offset, data.size⟩

def createOffsetTable (filter : ParameterFilter) : List OffsetTableEntry :=
  filter.filterMap offsetTableEntry

/-- `DBDataPacket`; the float holds an unsigned short exactly. -/
structure DBDataPacket where
  channelId : ℤ
  paramId : ℤ
  registerDate : ℤ
  value : ℕ
  deriving DecidableEq, Repr

/-- The value of an entry; a size other than one and two leaves the default. -/
def entryValue (entry : OffsetTableEntry) : PayloadReader ℕ :=
  if entry.size = 1 then do return (← PayloadReader.byte entry.offset).toNat
  else if entry.size = 2 then do return (← PayloadReader.word entry.offset).toNat
  else return 0

def reportDataPacket : List OffsetTableEntry → DataPacket → PayloadReader (List DBDataPacket)
  | [], _ => return []
  | entry :: table, packet =>
    if entry.cmd = packet.cmd then do
      let value ← entryValue entry
      let events ← reportDataPacket table packet
      return ⟨entry.channelId, entry.paramId, packet.timestamp, value⟩ :: events
    else reportDataPacket table packet

/-! ### What the table holds -/

theorem mem_createOffsetTable {filter : ParameterFilter} {entry : OffsetTableEntry}
    (h : entry ∈ createOffsetTable filter) :
    ∃ param ∈ sensorChannels,
      param.controllerData = some ⟨entry.cmd, entry.offset, entry.size⟩ := by
  obtain ⟨item, -, hitem⟩ := List.mem_filterMap.mp h
  simp only [offsetTableEntry, Option.bind_eq_bind, Option.bind_eq_some_iff, Option.pure_def,
    Option.some.injEq] at hitem
  obtain ⟨param, hparam, data, hdata, rfl⟩ := hitem
  have hmem := List.mem_of_find?_eq_some hparam
  rw [List.mem_append] at hmem
  rcases hmem with hdev | hsensor
  · rw [deviceChannels, List.mem_singleton] at hdev
    simp [hdev] at hdata
  · exact ⟨param, hsensor, hdata⟩

/-- The modes whose information packets carry channels, and the length of the part of the
payload that holds them. -/
def channelsEnd : List (ℕ × ℕ) := [(0, 37), (2, 31), (3, 12), (5, 17)]

theorem sensorChannels_controllerData : ∀ param ∈ sensorChannels, ∀ data,
    param.controllerData = some data → (data.size = 1 ∨ data.size = 2) ∧
      ∃ row ∈ channelsEnd, data.cmd = ackInfoMode row.1 ∧ data.offset + data.size ≤ row.2 := by
  decide

theorem entry_size {filter : ParameterFilter} {entry : OffsetTableEntry}
    (h : entry ∈ createOffsetTable filter) : entry.size = 1 ∨ entry.size = 2 := by
  obtain ⟨param, hmem, hdata⟩ := mem_createOffsetTable h
  exact (sensorChannels_controllerData param hmem _ hdata).1

end Ritex
