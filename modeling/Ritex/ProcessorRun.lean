import Ritex.ProcessCommand
import Ritex.History

/-! `ComTrafficProcessor::Run`: the wait for the start, the two states of the main loop and the
exit. -/
namespace Ritex
open Interaction

namespace Processor

/-! ### Traffic -/

def reportMotor (cfg : ProcessorConfig) (oldStatus newStatus : Byte) : ProcessorM Unit := do
  if oldStatus &&& vdOnMask ≠ newStatus &&& vdOnMask then
    let now ← time
    reportEvents [reportStationState cfg.filter (newStatus &&& vdOnMask).toNat
      (oldStatus &&& vdOnMask).toNat now "HND"]
  else return ()

def needCapture (p : Processor) : ProcessorM Bool := do
  let empty ← queueEmpty
  if empty then
    let now ← time
    return p.nextModeLoopCycle < now
  else return true

/-- `CheckAndReportFault` and `CheckAndReportTimeDiviation`. -/
def checkPacket (cfg : ProcessorConfig) (p : Processor) (packet : DataPacket) :
    ProcessorM Processor := do
  let (fault, faultEvent) ← readData packet (checkAndReportFault cfg.filter p.fault packet)
  reportEvents faultEvent.toList
  let systemTime ← time
  let timeDiviation ← Prog.perform Op.timeDiviation
  let (isReported, timeEvent) ← readData packet (checkAndReportTimeDiviation cfg.mktime cfg.filter
    timeDiviation p.isDiviationReported systemTime packet)
  reportEvents timeEvent.toList
  return { p with fault := fault, isDiviationReported := isReported }

/-- `ReportDataPacket`. -/
def reportData (cfg : ProcessorConfig) (packet : DataPacket) : ProcessorM Unit := do
  let packets ← readData packet (reportDataPacket cfg.offsetTable packet)
  enqueData packets

def capturePeriod : ℕ := 5

def captureData (cfg : ProcessorConfig) (p : Processor) (packet : DataPacket) :
    ProcessorM Processor := do
  if cfg.isDataCapture then
    if (p.dataCapturePeriod + 1) % capturePeriod = 0 then
      reportData cfg packet
      return { p with dataCapturePeriod := 0 }
    else return { p with dataCapturePeriod := p.dataCapturePeriod + 1 }
  else return p

/-- `CheckSettigsChanged`, which asserts that it gets the settings. -/
def checkSettings (cfg : ProcessorConfig) (p : Processor) (packet : DataPacket) :
    ProcessorM Processor := do
  if packet.cmd = ackAllSettings then
    let now ← time
    let (settings, events) ← readData packet
      (checkSettigsChanged cfg.filter p.isFirstSettingsPacket now p.settings)
    reportEvents events
    return { p with settings := settings, isFirstSettingsPacket := false }
  else crash

/-- The device is captured next, or the packet is reported. -/
def captureOrReport (cfg : ProcessorConfig) (p : Processor) (packet : DataPacket) :
    ProcessorM Processor := do
  if ← p.needCapture then return { p with nextState := .captureDevice }
  else
    let p ← p.checkPacket cfg packet
    p.captureData cfg packet

def trafficInfo (cfg : ProcessorConfig) (p : Processor) (packet : DataPacket) :
    ProcessorM Processor := do
  let status ← readData packet (PayloadReader.byte vdStatusOffset)
  if p.motorStatus ≠ 0xFF then reportMotor cfg p.motorStatus status
  let p := { p with isAutoMode := status &&& vdModeAutoMask ≠ 0, motorStatus := status }
  p.captureOrReport cfg packet

def motorStatusReply (cfg : ProcessorConfig) (p : Processor) : ProcessorM Processor := do
  let (packet, error) ← p.waitForKsuActivity ksuInactivityTimeout
  if error = .noError then
    let packet ← deref packet
    if getCmd packet.cmd = ackInfo then
      let status ← readData packet (PayloadReader.byte vdStatusOffset)
      reportMotor cfg p.motorStatus status
      return { p with motorStatus := status }
    else return p
  else return p

/-- `ProcessMotorCmd`: the operator's command is acknowledged, then information is requested and
sent. -/
def processMotorCmd (cfg : ProcessorConfig) (p : Processor) : ProcessorM Processor := do
  let (packet, error) ← p.waitForKsuActivity ksuInactivityTimeout
  if error = .noError then
    let packet ← deref packet
    if getCmd packet.cmd = ackAck then
      let code ← readData packet (PayloadReader.byte 0)
      if code = 0 then
        let (packet2, error) ← p.waitForKsuActivity ksuInactivityTimeout
        if error = .noError then
          let packet2 ← deref packet2
          if getCmd packet2.cmd = reqInfo then p.motorStatusReply cfg else return p
        else return p
      else return p
    else return p
  else return p

/-- A motor command of the operator; its parameter is read for the log only. -/
def trafficMotor (cfg : ProcessorConfig) (p : Processor) (packet : DataPacket) :
    ProcessorM Processor := do
  if getCmd packet.cmd = reqVdRotation then
    let _ ← readData packet (PayloadReader.byte 0)
    p.processMotorCmd cfg
  else p.processMotorCmd cfg

/-- `STATE_PROCESS_KSU_TRAFFIC`. -/
def processTraffic (cfg : ProcessorConfig) (p : Processor) : ProcessorM Processor := do
  let (packet, error) ← p.waitForKsuActivity (ksuInactivityTimeout * 20)
  if error = .noError then
    let packet ← deref packet
    if getCmd packet.cmd = ackInfo then p.trafficInfo cfg packet
    else if getCmd packet.cmd = ackAllSettings then p.checkSettings cfg packet
    else if isMotorCommand (getCmd packet.cmd) then p.trafficMotor cfg packet
    else return p
  else return p

/-! ### Capture -/

def captureDevice (p : Processor) : ProcessorM Bool := do
  let now ← time
  write .captureDevice (captureDevicePacket now)
  let (packet, error) ← p.waitForKsuActivity ksuInactivityTimeout
  if error = .noError then
    let packet ← deref packet
    if getCmd packet.cmd = ackAck then
      let code ← readData packet (PayloadReader.byte 0)
      return code = 150
    else return false
  else return false

/-- `GetPasswords`: `passHi` and `passLow`. -/
def getPasswords (p : Processor) : ProcessorM (Option (Byte × Byte)) := do
  let now ← time
  write .getPasswords (getPasswordsPacket now)
  let (packet, error) ← p.waitForKsuActivity ksuInactivityTimeout
  if error = .noError then
    let packet ← deref packet
    if getCmd packet.cmd = ackPasswords then
      let passHi ← readData packet (PayloadReader.byte 2)
      let passLow ← readData packet (PayloadReader.byte 3)
      return some (passHi, passLow)
    else return none
  else return none

/-- `SetPassword`: its result, which nothing sets unless the settings came, and `settings`. -/
def setPassword (p : Processor) (password : Word) : ProcessorM (Bool × Option DataPacket) := do
  let result ← Prog.perform Op.uninitialised
  let now ← time
  write .setPassword (setSettingPacket 44 password now)
  let (packet, error) ← p.waitForKsuActivity ksuInactivityTimeout
  if error = .noError then
    let packet ← deref packet
    if packet.cmd = ackAck then
      let _ ← readData packet (PayloadReader.byte 0)
      return (result, none)
    else if packet.cmd = ackAllSettings then return (true, some packet)
    else return (result, none)
  else return (result, none)

def changeMode (p : Processor) (mode : Word) : ProcessorM Bool := do
  let now ← time
  write .changeMode (setSettingPacket 45 mode now)
  let (packet, error) ← p.waitForKsuActivity ksuInactivityTimeout
  if error = .noError then
    let packet ← deref packet
    if getCmd packet.cmd = ackAllSettings then
      let current ← readData packet (PayloadReader.byte writeModeOffset)
      return current.setWidth 16 = mode
    else return false
  else return false

def drainRound (cfg : ProcessorConfig) (p : Processor) : ProcessorM (Processor ⊕ Processor) := do
  let _ ← Prog.perform Op.lockCmd
  let pending ← Prog.perform Op.popFront
  let _ ← Prog.perform Op.unlockCmd
  match pending with
  | some c =>
    command (.handedOver c)
    let p ← p.processCommand cfg c
    command (.returned c)
    return .inl p
  | none => return .inr p

/-- The rest of the cycle through the modes from its current index on. -/
def modeCycle (cfg : ProcessorConfig) (p : Processor) : List ℕ → ProcessorM Unit
  | [] => .ret ()
  | i :: rest => do
    if p.isAutoMode && cycleMode p.writeMode i == 1 then modeCycle cfg p rest
    else
      let changed ← p.changeMode (BitVec.ofInt 16 (cycleMode p.writeMode i))
      if changed then
        requestCurrentData
        let (packet, error) ← p.waitForKsuActivity ksuInactivityTimeout
        let packet ← deref packet
        if error = .noError then
          reportData cfg (packet.setCmdMode (BitVec.ofInt 16 (cycleMode p.writeMode i)))
        modeCycle cfg p rest
      else return ()

def modeCycleTime : ℤ := 60

/-- The visit once the password is set and the settings have come. -/
def captured (cfg : ProcessorConfig) (fuel : ℕ) (p : Processor) (settings : DataPacket) :
    ProcessorM Processor := do
  let writeMode ← readData settings (PayloadReader.byte writeModeOffset)
  let p := { p with writeMode := writeMode.setWidth 32 }
  let p ← p.checkSettings cfg settings
  let p ← Prog.loop (fun p : Processor => p.drainRound cfg) fuel p
  let now ← time
  if p.nextModeLoopCycle < now then
    p.modeCycle cfg [1, 2, 3, 4, 5, 6, 7]
    let now ← time
    return { p with
      nextModeLoopCycle := now + modeCycleTime + 5, nextState := .processKsuTraffic }
  else return { p with nextState := .processKsuTraffic }

/-- `STATE_CAPTURE_DEVICE`. -/
def processCapture (cfg : ProcessorConfig) (fuel : ℕ) (p : Processor) : ProcessorM Processor := do
  if ← p.captureDevice then
    match ← p.getPasswords with
    | some (passHi, passLow) =>
      let (result, settings) ← p.setPassword (passHi.setWidth 16 <<< 8 ||| passLow.setWidth 16)
      if result then
        match settings with
        | some settings => p.captured cfg fuel settings
        | none => return p
      else return p
    | none => return p
  else return p

/-! ### The thread -/

def processState (cfg : ProcessorConfig) (fuel : ℕ) (p : Processor) : ProcessorM Processor :=
  match p.state with
  | .processKsuTraffic => p.processTraffic cfg
  | .captureDevice => p.processCapture cfg fuel

def runRound (cfg : ProcessorConfig) (fuel : ℕ) (p : Processor) :
    ProcessorM (Processor ⊕ Processor) := do
  let doRun : Bool ← Prog.perform Op.loopTest
  if doRun then
    let p := { p with state := p.nextState }
    let _ ← Prog.perform (Op.enter p.state)
    let p ← p.processState cfg fuel
    if cfg.isDataCapture then
      setDoRun true
      return .inl p
    else
      let empty ← queueEmpty
      setDoRun !empty
      return .inl p
  else return .inr p

/-- One test and round of the wait for the start; the mutex is unlocked inside of the loop. -/
def startRound (_ : Unit) : ProcessorM (Unit ⊕ Unit) := do
  let doRun : Bool ← Prog.perform Op.startTest
  if doRun then return .inr ()
  else
    let _ ← Prog.perform Op.waitStart
    let _ ← Prog.perform Op.wokenStart
    let _ ← Prog.perform Op.unlockStart
    return .inl ()

def waitForStart (cfg : ProcessorConfig) (fuel : ℕ) : ProcessorM Unit := do
  if cfg.isDataCapture then return ()
  else
    let _ ← Prog.perform Op.lockStart
    Prog.loop startRound fuel ()

def clearRound (_ : Unit) : ProcessorM (Unit ⊕ Unit) := do
  let front ← Prog.perform Op.deleteFront
  match front with
  | some _ => return .inl ()
  | none => return .inr ()

def run (cfg : ProcessorConfig) (fuel : ℕ) (p : Processor) : ProcessorM Unit := do
  waitForStart cfg fuel
  let now ← time
  let p := { p with
    state := .processKsuTraffic, nextState := .processKsuTraffic, nextModeLoopCycle := now }
  let _ ← Prog.loop (fun p : Processor => p.runRound cfg fuel) fuel p
  let _ ← Prog.perform Op.lockCmd
  Prog.loop clearRound fuel ()
  let _ ← Prog.perform Op.unlockCmd
  let _ ← Prog.perform Op.notifyExit
  return ()

end Processor

/-! ### A station that lets itself be captured -/

def knownProcessor : Processor where
  state := .processKsuTraffic
  nextState := .processKsuTraffic
  writeMode := 0
  fault := ⟨false, -1⟩
  dataCapturePeriod := 5
  nextModeLoopCycle := 0
  isAutoMode := false
  motorStatus := 0xFF
  settings := fun _ => {}
  isFirstSettingsPacket := false
  isDiviationReported := false

def unfilteredConfig (isDataCapture : Bool) : ProcessorConfig :=
  ⟨isDataCapture, [], [], fun _ => 0⟩

def infoFrame : Frame where
  type := .ack
  cmd := 0x64
  payload := [0, 0, 0, 0]
  length_lt := by decide
  accepted := by decide

def captureAckFrame : Frame where
  type := .ack
  cmd := 0x0B
  payload := [150]
  length_lt := by decide
  accepted := by decide

def passwordsFrame : Frame where
  type := .ack
  cmd := 0x70
  payload := [0, 0, 0x12, 0x34]
  length_lt := by decide
  accepted := by decide

def settingsFrame : Frame where
  type := .ack
  cmd := 0x6C
  payload := List.replicate 0x2F 0
  length_lt := by decide
  accepted := by decide

def modeFrame : Frame where
  type := .ack
  cmd := 0x6C
  payload := List.replicate 22 0 ++ [1] ++ List.replicate 24 0
  length_lt := by decide
  accepted := by decide

def noticeScript : List (Event Op Res) :=
  [⟨.time, (0 : ℤ)⟩, ⟨.loopTest, true⟩, ⟨.enter .processKsuTraffic, ()⟩,
   ⟨.wait 30000, ((.ok infoFrame : Wait), (0 : ℤ))⟩, ⟨.heap, fun _ : ℕ => (0 : Byte)⟩,
   ⟨.queueEmpty, false⟩]

def captureScript : List (Event Op Res) :=
  [⟨.setDoRun true, ()⟩, ⟨.loopTest, true⟩, ⟨.enter .captureDevice, ()⟩,
   ⟨.time, (0 : ℤ)⟩, ⟨.write .captureDevice (captureDevicePacket 0), ()⟩,
   ⟨.wait 1500, ((.ok captureAckFrame : Wait), (0 : ℤ))⟩, ⟨.heap, fun _ : ℕ => (0 : Byte)⟩,
   ⟨.time, (0 : ℤ)⟩, ⟨.write .getPasswords (getPasswordsPacket 0), ()⟩,
   ⟨.wait 1500, ((.ok passwordsFrame : Wait), (0 : ℤ))⟩, ⟨.heap, fun _ : ℕ => (0 : Byte)⟩,
   ⟨.heap, fun _ : ℕ => (0 : Byte)⟩, ⟨.uninitialised, false⟩,
   ⟨.time, (0 : ℤ)⟩, ⟨.write .setPassword (setSettingPacket 44 0x1234 0), ()⟩,
   ⟨.wait 1500, ((.ok settingsFrame : Wait), (0 : ℤ))⟩, ⟨.heap, fun _ : ℕ => (0 : Byte)⟩,
   ⟨.time, (0 : ℤ)⟩, ⟨.heap, fun _ : ℕ => (0 : Byte)⟩]

def testCommand : CustomCommand := ⟨testDevicePacket 0, ⟨.testDevice, [0]⟩⟩

def unansweredScript : List (Event Op Res) :=
  [⟨.lockCmd, ()⟩, ⟨.popFront, some testCommand⟩, ⟨.unlockCmd, ()⟩,
   ⟨.command (.handedOver testCommand), ()⟩, ⟨.write .processCommand testCommand.dataPacket, ()⟩,
   ⟨.wait 1500, ((.error .timeout : Wait), (0 : ℤ))⟩,
   ⟨.command (.setReply testCommand none .timeout), ()⟩,
   ⟨.command (.onResultReady testCommand 0 (commonReply .timeout)), ()⟩,
   ⟨.command (.deleted testCommand), ()⟩, ⟨.command (.returned testCommand), ()⟩]

def cycleScript : List (Event Op Res) :=
  [⟨.lockCmd, ()⟩, ⟨.popFront, (none : Option CustomCommand)⟩, ⟨.unlockCmd, ()⟩, ⟨.time, (1 : ℤ)⟩,
   ⟨.time, (1 : ℤ)⟩, ⟨.write .changeMode (setSettingPacket 45 1 1), ()⟩,
   ⟨.wait 1500, ((.ok modeFrame : Wait), (1 : ℤ))⟩, ⟨.heap, fun _ : ℕ => (0 : Byte)⟩,
   ⟨.time, (1 : ℤ)⟩, ⟨.write .requestCurrentData (requestCurrentDataPacket 1), ()⟩]

end Ritex
