import Ritex.Protocol

/-! The packets that the adapter itself sends to the station. -/
namespace Ritex

def setSettingPacket (setting : Byte) (value : Word) (now : ℤ) : DataPacket :=
  ⟨.cmd, ksuAddress, reqSettingSet, now, [setting, msb value, lsb value], three_length_lt _ _ _⟩

def getAllSettingsPacket (now : ℤ) : DataPacket :=
  ⟨.cmd, ksuAddress, reqSettingAllGet, now, [], nil_length_lt⟩

def getPasswordsPacket (now : ℤ) : DataPacket :=
  ⟨.cmd, ksuAddress, reqPasswordGet, now, [], nil_length_lt⟩

def captureDevicePacket (now : ℤ) : DataPacket :=
  ⟨.cmd, ksuAddress, reqDeviceReq, now, [], nil_length_lt⟩

def requestCurrentDataPacket (now : ℤ) : DataPacket :=
  ⟨.cmd, ksuAddress, reqInfo, now, [], nil_length_lt⟩

/-- The packet that `ExecuteCustomCommand` queues, if it supports the command. -/
def customCommandPacket (cmd : Byte) (p1 : Byte) (p2 : Word) (now : ℤ) : Option DataPacket :=
  let packet (data : List Byte) (h : data.length < 2 ^ 16) : DataPacket :=
    ⟨.cmd, ksuAddress, cmd.setWidth 16, now, data, h⟩
  if cmd.setWidth 16 = reqSettingSet then some (packet [p1, msb p2, lsb p2] (three_length_lt _ _ _))
  else if cmd.setWidth 16 = reqVdOn then some (packet [p1] (one_length_lt p1))
  else if cmd.setWidth 16 = reqVdOff then some (packet [] nil_length_lt)
  else if cmd.setWidth 16 = reqVdRotation then some (packet [p1] (one_length_lt p1))
  else none

def testDevicePacket (now : ℤ) : DataPacket :=
  ⟨.cmd, ksuAddress, reqInfoRequestMode0, now, [], nil_length_lt⟩

/-- The packets that the adapter builds. -/
inductive AdapterBuilt : DataPacket → Prop
  | setSetting (setting : Byte) (value : Word) (now : ℤ) :
      AdapterBuilt (setSettingPacket setting value now)
  | getAllSettings (now : ℤ) : AdapterBuilt (getAllSettingsPacket now)
  | getPasswords (now : ℤ) : AdapterBuilt (getPasswordsPacket now)
  | captureDevice (now : ℤ) : AdapterBuilt (captureDevicePacket now)
  | requestCurrentData (now : ℤ) : AdapterBuilt (requestCurrentDataPacket now)
  | executeCustomCommand {cmd p1 : Byte} {p2 : Word} {now : ℤ} {p : DataPacket}
      (h : customCommandPacket cmd p1 p2 now = some p) : AdapterBuilt p
  | testDevice (now : ℤ) : AdapterBuilt (testDevicePacket now)

/-- The command byte and the length of a packet form a row of `m_cmdParams`. -/
def HasCommandRow (p : DataPacket) : Prop :=
  ∃ row ∈ cmdParams, getCmd row.cmd = getCmd p.cmd ∧ row.length.toNat = p.data.length + 1

theorem AdapterBuilt.address {p : DataPacket} (h : AdapterBuilt p) : p.address = ksuAddress := by
  cases h with
  | executeCustomCommand h =>
    simp only [customCommandPacket] at h
    split_ifs at h <;> simp only [Option.some.injEq] at h <;> rw [← h]
  | _ => rfl

theorem AdapterBuilt.hasCommandRow {p : DataPacket} (h : AdapterBuilt p) : HasCommandRow p := by
  cases h with
  | setSetting => exact ⟨⟨reqSettingSet, 4, idxAckAllSettings⟩, by decide, rfl, rfl⟩
  | getAllSettings => exact ⟨⟨reqSettingAllGet, 1, idxAckAllSettings⟩, by decide, rfl, rfl⟩
  | getPasswords => exact ⟨⟨reqPasswordGet, 1, idxAckPasswords⟩, by decide, rfl, rfl⟩
  | captureDevice => exact ⟨⟨reqDeviceReq, 1, idxAckAck⟩, by decide, rfl, rfl⟩
  | requestCurrentData => exact ⟨⟨reqInfoRequestMode0, 1, idxAckInfo⟩, by decide, rfl, rfl⟩
  | testDevice => exact ⟨⟨reqInfoRequestMode0, 1, idxAckInfo⟩, by decide, rfl, rfl⟩
  | executeCustomCommand h =>
    simp only [customCommandPacket] at h
    split_ifs at h with hset hon hoff hrot <;> simp only [Option.some.injEq] at h <;> subst h
    · exact ⟨⟨reqSettingSet, 4, idxAckAllSettings⟩, by decide, congrArg getCmd hset.symm, rfl⟩
    · exact ⟨⟨reqVdOn, 2, idxAckInfo⟩, by decide, congrArg getCmd hon.symm, rfl⟩
    · exact ⟨⟨reqVdOff, 1, idxAckInfo⟩, by decide, congrArg getCmd hoff.symm, rfl⟩
    · exact ⟨⟨reqVdRotation, 2, idxAckInfo⟩, by decide, congrArg getCmd hrot.symm, rfl⟩

end Ritex
