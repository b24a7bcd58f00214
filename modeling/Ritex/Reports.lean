import Ritex.Topology

/-! Events of the device: faults, the state of the motor and the deviation of its clock. -/
namespace Ritex

structure DBEventCommon where
  typeId : ℤ := 0
  channelId : ℤ := -1
  registerTimeDate : ℤ := 0
  argument1 : String := "X"
  argument2 : String := "X"
  argument3 : String := "X"
  argument4 : String := "X"
  deriving DecidableEq, Repr

def itoa (i : ℤ) : String := toString i

/-- `fault_codes` of `RitexDevice.cpp`. -/
def faultCodes : List (ℤ × String) :=
  [(0, "Авария устранена"),
   (1, "Ошибка связи ПИУ-ЦУУ"),
   (2, "Ошибка связи ЦУУ-ПЧ"),
   (3, "Ошибка связи ЦУУ-ПЧ"),
   (4, "Ошибка связи ЦУУ-ТМС"),
   (20, "Ошибка ввода уставки"),
   (21, "Не введен пароль"),
   (22, "Ввод уставки запрещен"),
   (30, "Защита по I GND (Аварийный останов для СУПН-М)"),
   (31, "Защита по U макс."),
   (32, "Защита драйвера ШИМ пли КОМ"),
   (33, "Защита по I макс."),
   (10, "Неисправность БЦУУ"),
   (40, "Неисправность ПЧ"),
   (41, "Неисправность вентиляторов ПЧ"),
   (42, "Неисправность датчика Rиз"),
   (43, "Неисправность ТМС"),
   (44, "Неисправность ПИнС"),
   (50, "Обрыв фазы"),
   (51, "Напряжение сети ниже допуска"),
   (52, "Напряжение сети выше допуска"),
   (53, "Дисбаланс входных напряжений"),
   (54, "Дисбаланс выходных напряжений"),
   (55, "Дисбаланс выходных токов"),
   (56, "Перегруз по току"),
   (57, "Недогруз по току"),
   (58, "Турбинное вращение"),
   (59, "rиз ниже допуска"),
   (60, "Давление на устье выше допуска"),
   (61, "Давление на устье ниже допуска"),
   (62, "Давление на приеме насоса ниже допуска"),
   (63, "Температура двигателя выше допуска"),
   (64, "Вибрация выше допуска"),
   (65, "Программный сбой")]

def faultText (codes : List (ℤ × String)) (code : ℤ) : String :=
  match codes.find? fun row => row.1 == code with
  | some row => row.2
  | none => ""

def getFaultText (code : ℤ) : String := faultText faultCodes code

def reportFault (filter : ParameterFilter) (code time : ℤ) : DBEventCommon :=
  let event : DBEventCommon :=
    { channelId := getDeviceStateChannelId filter, registerTimeDate := time }
  if code = 0 then { event with typeId := 25 }
  else { event with
    typeId := 8, argument1 := getFaultText code, argument2 := "E-" ++ itoa code }

def reportStationState (filter : ParameterFilter) (newState oldState time : ℤ) (src : String) :
    DBEventCommon where
  typeId := 10
  channelId := getDeviceStateChannelId filter
  registerTimeDate := time
  argument1 := itoa newState
  argument2 := itoa oldState
  argument3 := if newState = 0 then "ВД выключен" else "ВД включен"
  argument4 := src

/-- `m_isInFault` and `m_faultCode`. -/
structure FaultState where
  isInFault : Bool
  faultCode : ℤ
  deriving DecidableEq, Repr

def FaultState.next (filter : ParameterFilter) (s : FaultState) (errorCode timestamp : ℤ) :
    FaultState × Option DBEventCommon :=
  if !s.isInFault then
    if errorCode > 0 then (⟨true, errorCode⟩, some (reportFault filter errorCode timestamp))
    else (s, none)
  else if errorCode = 0 then (⟨false, 0⟩, some (reportFault filter 0 timestamp))
  else if errorCode ≠ s.faultCode then
    (⟨true, errorCode⟩, some (reportFault filter errorCode timestamp))
  else (s, none)

/-- `CheckAndReportFault`; the state of the motor is read for the log only. -/
def checkAndReportFault (filter : ParameterFilter) (s : FaultState) (packet : DataPacket) :
    PayloadReader (FaultState × Option DBEventCommon) :=
  if packet.cmd = ackInfoMode 1 then return (s, none)
  else if getCmd packet.cmd = ackInfo then do
    let _vdState ← PayloadReader.byte vdStatusOffset
    let errorCode ← PayloadReader.byte 1
    return s.next filter errorCode.toNat packet.timestamp
  else return (s, none)

/-- `struct tm`, as far as `CheckAndReportTimeDiviation` fills it; seconds and the daylight
saving flag are zero. -/
structure Tm where
  year : ℤ
  mon : ℤ
  mday : ℤ
  hour : ℤ
  min : ℤ
  deriving DecidableEq, Repr

/-- `abs(system_time - timestamp)`: `abs` takes and returns an `int`. -/
def clockDistance (systemTime timestamp : ℤ) : ℤ :=
  (BitVec.ofInt 32 (systemTime - timestamp)).abs.toInt

theorem clockDistance_eq {systemTime timestamp : ℤ} (h : |systemTime - timestamp| < 2 ^ 31) :
    clockDistance systemTime timestamp = |systemTime - timestamp| := by
  obtain ⟨hlow, hhigh⟩ := abs_lt.mp h
  have hint : (BitVec.ofInt 32 (systemTime - timestamp)).toInt = systemTime - timestamp :=
    BitVec.toInt_ofInt_eq_self (by decide) hlow.le hhigh
  have hmin : BitVec.ofInt 32 (systemTime - timestamp) ≠ BitVec.intMin 32 := by
    intro heq
    rw [heq] at hint
    have : (BitVec.intMin 32).toInt = -2 ^ 31 := by decide
    omega
  rw [clockDistance, BitVec.toInt_abs_eq_natAbs_of_ne_intMin hmin, hint, Int.natCast_natAbs]

/-- Clocks that are so far apart count as close to each other. -/
example : clockDistance (2 ^ 31) 0 = -2 ^ 31 := by decide

def nextDiviation (filter : ParameterFilter) (timeDiviation : ℤ) (isReported : Bool)
    (systemTime timestamp : ℤ) : Bool × Option DBEventCommon :=
  if clockDistance systemTime timestamp > timeDiviation then
    if isReported then (isReported, none)
    else (true, some {
      typeId := 6
      channelId := getDeviceStateChannelId filter
      registerTimeDate := systemTime
      argument1 := itoa ((clockDistance systemTime timestamp).tdiv 60) })
  else (false, none)

/-- `CheckAndReportTimeDiviation`, with `mktime` as a parameter. -/
def checkAndReportTimeDiviation (mktime : Tm → ℤ) (filter : ParameterFilter) (timeDiviation : ℤ)
    (isReported : Bool) (systemTime : ℤ) (packet : DataPacket) :
    PayloadReader (Bool × Option DBEventCommon) :=
  if packet.cmd = ackInfoMode 0 then do
    let year ← PayloadReader.word 21
    let min ← PayloadReader.byte 24
    let hour ← PayloadReader.byte 23
    let mday ← PayloadReader.byte 19
    let mon ← PayloadReader.byte 20
    let timestamp := mktime
      ⟨(year.toNat : ℤ) - 1900, (mon.toNat : ℤ) - 1, mday.toNat, hour.toNat, min.toNat⟩
    return nextDiviation filter timeDiviation isReported systemTime timestamp
  else return (isReported, none)

end Ritex
