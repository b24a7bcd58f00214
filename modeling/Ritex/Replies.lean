import Ritex.Settings

/-! What a command makes of the reply to it: the texts of `CmdTestDevice::SetReply`,
`CmdExternal::SetReply` and `DeviceCommand::SetReply`, and the templates that external commands
are made from. -/
namespace Ritex

/-- `fault_codes` of `ErrorsMsg.h`: the table of the device and two rows more. -/
def errorsMsgCodes : List (ℤ × String) := faultCodes ++ [(-6, "СУ занята"), (-4, "СУ занята")]

def errorsMsgText (code : ℤ) : String := faultText errorsMsgCodes code

structure CmdTemplate where
  cmd : Word
  param : Byte
  deriving DecidableEq, Repr

/-- The templates of "change setting", by the number of the setting. -/
def settingTemplates : List (ℤ × CmdTemplate) :=
  allSettings.map fun row => (row.id, ⟨reqSettingSet, BitVec.ofInt 8 row.id⟩)

def engineTemplates : List (ℤ × CmdTemplate) :=
  [(1, ⟨reqVdOn, vdOnStart⟩), (2, ⟨reqVdOff, 0⟩), (3, ⟨reqVdOn, vdOnReset⟩),
   (4, ⟨reqVdOn, vdOnTune⟩), (5, ⟨reqVdRotation, vdRotateLeft⟩),
   (6, ⟨reqVdRotation, vdRotateRight⟩)]

/-- `CmdExternal`: an external command is made from one of the templates. -/
structure CmdExternal where
  template : CmdTemplate
  param2 : Word
  sourceRaw : String
  cmdIdRaw : String
  template_mem : template ∈ (settingTemplates ++ engineTemplates).map Prod.snd
  deriving DecidableEq

namespace CmdExternal

def cmdId (c : CmdExternal) : Word := c.template.cmd
def param1 (c : CmdExternal) : Byte := c.template.param

def source (c : CmdExternal) : String := c.sourceRaw ++ "$" ++ c.cmdIdRaw

end CmdExternal

theorem settingTemplates_inRange : ∀ t ∈ settingTemplates.map Prod.snd,
    settingIdInRange t.param.toNat = true := by
  decide +kernel

theorem engineTemplates_cmd : ∀ t ∈ engineTemplates.map Prod.snd, t.cmd ≠ reqSettingSet := by
  decide

theorem CmdExternal.param1_inRange (c : CmdExternal) (h : c.cmdId = reqSettingSet) :
    settingIdInRange c.param1.toNat = true := by
  have hmem := c.template_mem
  rw [List.map_append, List.mem_append] at hmem
  rcases hmem with hset | heng
  · exact settingTemplates_inRange _ hset
  · exact absurd h (engineTemplates_cmd _ heng)

/-- The result of `DeviceCommand::SetReply`. -/
def commonReply (status : ErrorCode) : String :=
  match status with
  | .badCrc => "7;Ошибка в CRC\n"
  | .timeout => "7;Станция не отвечает\n"
  | status => "7;Ошибка неизвестна: код " ++ itoa status.value ++ "\n"

/-- The result of `CmdTestDevice::SetReply` for a packet. -/
def testDeviceReply (packet : DataPacket) : PayloadReader String :=
  if packet.cmd = ackInfoMode 0 then do
    let tm ← PayloadReader.word 33
    return "8|Ответ получен. Наработка " ++ itoa tm.toNat ++ " часов\n"
  else return "7|Получен неизвестный ответ\n"

structure ExternalReply where
  rawResult : String
  values : SettingValues
  events : List DBEventCommon

def errorReply (code : Byte) : String :=
  "7;Ошибка. Код " ++ itoa code.toNat ++ ": " ++ errorsMsgText code.toNat ++ "\n"

/-- The reply to a changed setting; `none` is a failed assertion. -/
def settingReply (filter : ParameterFilter) (c : CmdExternal) (values : SettingValues) (now : ℤ) :
    Option ExternalReply := do
  let (oldValue, values) ← setCurrentSettingValue values c.param1.toNat c.param2
  match oldValue with
  | none => return ⟨"8;Уставка изменена\n", values, []⟩
  | some oldValue =>
    let name ← getSettingName c.param1.toNat
    return ⟨"8;Уставка изменена\n", values,
      [settingEvent filter now c.param2 oldValue name c.source]⟩

def motorReply (filter : ParameterFilter) (c : CmdExternal) (values : SettingValues) (now : ℤ)
    (packet : DataPacket) : PayloadReader ExternalReply :=
  if packet.cmd = ackAck then do
    return ⟨errorReply (← PayloadReader.byte 0), values, []⟩
  else if packet.cmd = ackInfo then
    return ⟨"8;Прием без ошибок\n", values,
      if c.cmdId = reqVdOn then [reportStationState filter 1 0 now c.source]
      else if c.cmdId = reqVdOff then [reportStationState filter 0 1 now c.source]
      else []⟩
  else return ⟨"7;Получен неизвестный ответ\n", values, []⟩

/-- `CmdExternal::SetReply` for a packet, before it notifies; `none` is a failed assertion. -/
def externalReply (filter : ParameterFilter) (c : CmdExternal) (values : SettingValues) (now : ℤ)
    (packet : DataPacket) : PayloadReader (Option ExternalReply) :=
  if c.cmdId = reqSettingSet then
    if packet.cmd = ackAck then do
      return some ⟨errorReply (← PayloadReader.byte 0), values, []⟩
    else if packet.cmd = ackAllSettings then return settingReply filter c values now
    else return some ⟨"", values, []⟩
  else if c.cmdId = reqVdOff ∨ c.cmdId = reqVdOn ∨ c.cmdId = reqVdRotation then do
    return some (← motorReply filter c values now packet)
  else return some ⟨"", values, []⟩

theorem settingReply_isSome (filter : ParameterFilter) (c : CmdExternal)
    (h : c.cmdId = reqSettingSet) (values : SettingValues) (now : ℤ) :
    (settingReply filter c values now).isSome = true := by
  have hr := c.param1_inRange h
  rw [settingReply]
  rcases hset : setCurrentSettingValue values c.param1.toNat c.param2 with _ | ⟨old, values'⟩
  · simp only [setCurrentSettingValue, hr, Bool.not_true, Bool.false_eq_true, if_false] at hset
    split at hset
    · simp at hset
    · split at hset <;> simp at hset
  · cases old with
    | none => rfl
    | some old =>
      simp only [getSettingName, hr]
      cases allSettings.find? fun row => row.id == (c.param1.toNat : ℤ) <;> rfl

theorem externalReply_isSome (filter : ParameterFilter) (c : CmdExternal)
    (values : SettingValues) (now : ℤ) (packet : DataPacket) (memory : ℕ → Byte) :
    ((externalReply filter c values now packet).value memory).isSome = true := by
  rw [externalReply]
  split
  · rename_i hset
    split
    · rfl
    · split
      · exact settingReply_isSome filter c hset values now
      · rfl
  · split <;> rfl

end Ritex
