import Ritex.ProcessorOps

/-! `ComTrafficProcessor::ProcessCommand` and the `SetReply` of the commands. -/
namespace Ritex
open Interaction

namespace Processor

/-! ### The reply to a command -/

def notifyListeners (c : CustomCommand) (rawResult : String) : List ℕ → ProcessorM Unit
  | [] => .ret ()
  | listener :: listeners => do
    command (.onResultReady c listener rawResult)
    notifyListeners c rawResult listeners

def notifyResultReady (c : CustomCommand) (rawResult : String) : ProcessorM Unit := do
  notifyListeners c rawResult c.parentCommand.listeners
  command (.deleted c)

/-- What the reply to an external command does; no reply is a failed assertion. -/
def applyReply (p : Processor) (c : CustomCommand) : Option ExternalReply → ProcessorM Processor
  | none => crash
  | some reply => do
    reportEvents reply.events
    notifyResultReady c reply.rawResult
    return { p with settings := reply.values }

/-- `CmdExternal::SetReply`. -/
def setExternalReply (cfg : ProcessorConfig) (p : Processor) (c : CustomCommand) (cmd : CmdExternal)
    (packet : Option DataPacket) (status : ErrorCode) : ProcessorM Processor := do
  let now ← time
  if status = .noError then
    let packet ← deref packet
    let reply ← readData packet (externalReply cfg.filter cmd p.settings now packet)
    p.applyReply c reply
  else
    notifyResultReady c (commonReply status)
    return p

/-- `CmdTestDevice::SetReply`. -/
def setTestReply (c : CustomCommand) (packet : Option DataPacket) (status : ErrorCode) :
    ProcessorM Unit := do
  if status = .noError then
    let packet ← deref packet
    let rawResult ← readData packet (testDeviceReply packet)
    notifyResultReady c rawResult
  else notifyResultReady c (commonReply status)

def setReply (cfg : ProcessorConfig) (p : Processor) (c : CustomCommand)
    (packet : Option DataPacket) (status : ErrorCode) : ProcessorM Processor := do
  command (.setReply c packet status)
  match c.parentCommand.commandClass with
  | .external cmd => setExternalReply cfg p c cmd packet status
  | .testDevice => do
    setTestReply c packet status
    return p

/-! ### The exchange with the station -/

def requestCurrentData : ProcessorM Unit := do
  let now ← time
  write .requestCurrentData (requestCurrentDataPacket now)

def isMotorCommand (cmd : Word) : Bool := cmd = reqVdOn ∨ cmd = reqVdOff ∨ cmd = reqVdRotation

/-- `!x == cmd` for an acknowledgement `x`: the negation comes first. -/
def negationMatches (ack : ℤ) (cmd : Word) : Bool := (if ack = 0 then 1 else 0) = cmd.toNat

def checkReply (request : DataPacket) (reply : DataPacket) : ErrorCode :=
  if negationMatches (getAckForCmd (getCmd request.cmd) true) reply.cmd &&
      negationMatches (getAckForCmd request.cmd false) reply.cmd
  then .unexpectedPacket else .noError

/-- The negation of an acknowledgement is 0 or 1. -/
theorem checkReply_noError {request reply : DataPacket} (h : 2 ≤ reply.cmd.toNat) :
    checkReply request reply = .noError := by
  have hmatches : ∀ ack, negationMatches ack reply.cmd = false := by
    intro ack
    unfold negationMatches
    split <;> exact decide_eq_false (by omega)
  rw [checkReply, hmatches]
  rfl

def motorInfo (p : Processor) (c : CustomCommand) : ProcessorM (Received × Processor) := do
  requestCurrentData
  let (packet, error) ← p.waitForKsuActivity ksuInactivityTimeout
  if error ≠ .noError then return ((packet, error), p)
  else
    let info ← deref packet
    if getCmd info.cmd = ackInfo then
      let motorStatus ← readData info (PayloadReader.byte vdStatusOffset)
      return ((packet, checkReply c.dataPacket info), { p with motorStatus := motorStatus })
    else return ((packet, checkReply c.dataPacket info), p)

/-- The reply to a motor command: an acknowledgement with code 0 is followed by a request for
information. -/
def motorCommand (p : Processor) (c : CustomCommand) (reply : DataPacket) :
    ProcessorM (Received × Processor) := do
  if getCmd reply.cmd = ackAck then
    let code ← readData reply (PayloadReader.byte 0)
    if code = 0 then p.motorInfo c
    else return ((some reply, .noError), p)
  else return ((some reply, .unexpectedPacket), p)

/-- The `do while (false)` of `ProcessCommand`. -/
def commandReply (p : Processor) (c : CustomCommand) (packet : Option DataPacket)
    (error : ErrorCode) : ProcessorM (Received × Processor) := do
  if error = .noError then
    let reply ← deref packet
    if isMotorCommand (getCmd c.dataPacket.cmd) then p.motorCommand c reply
    else return ((packet, checkReply c.dataPacket reply), p)
  else return ((packet, error), p)

def processCommand (cfg : ProcessorConfig) (p : Processor) (c : CustomCommand) :
    ProcessorM Processor := do
  write .processCommand c.dataPacket
  let (packet, error) ← p.waitForKsuActivity ksuInactivityTimeout
  let ((packet, error), p) ← p.commandReply c packet error
  p.setReply cfg c packet error

end Processor

end Ritex
