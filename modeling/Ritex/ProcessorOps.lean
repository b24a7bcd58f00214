import Ritex.ReadPacket
import Ritex.Requests
import Ritex.Replies

/-! What the thread of `ComTrafficProcessor` does to the world: the port, the clock, the queue of
pending commands, the flags it shares with the server thread, the loggers and the listeners of a
command. -/
namespace Ritex
open Interaction

inductive KsuState
  | processKsuTraffic
  | captureDevice
  deriving DecidableEq

/-- The classes of the commands that wait for a reply of the station. -/
inductive CommandClass
  | external (c : CmdExternal)
  | testDevice
  deriving DecidableEq

structure DeviceCommand where
  commandClass : CommandClass
  listeners : List ℕ
  deriving DecidableEq

structure CustomCommand where
  dataPacket : DataPacket
  parentCommand : DeviceCommand
  deriving DecidableEq

/-- The function that writes a packet. -/
inductive Writer
  | captureDevice
  | getPasswords
  | setPassword
  | changeMode
  | requestCurrentData
  | processCommand
  deriving DecidableEq

/-- What happens to a command once it has left the queue. `Run` notes its call of `ProcessCommand`
and the return from it, the rest is what the call does. -/
inductive CommandEvent
  | handedOver (c : CustomCommand)
  | setReply (c : CustomCommand) (packet : Option DataPacket) (status : ErrorCode)
  | onResultReady (c : CustomCommand) (listener : ℕ) (rawResult : String)
  /-- The end of `NotifyResultReady`, which deletes the command. -/
  | deleted (c : CustomCommand)
  | returned (c : CustomCommand)
  deriving DecidableEq

inductive Op
  | time
  /-- A pass of the switch over the states begins. -/
  | enter (state : KsuState)
  | wait (timeout : ℕ)
  | write (writer : Writer) (packet : DataPacket)
  /-- The value of a `bool` that nothing has initialised. -/
  | uninitialised
  /-- The bytes behind a payload. -/
  | heap
  /-- `m_timeDiviation`, which the server thread sets. -/
  | timeDiviation
  | reportEvent (event : DBEventCommon)
  | enqueData (packet : DBDataPacket)
  | lockStart
  /-- The test of `m_doRun` while the thread waits for its start. -/
  | startTest
  /-- `pthread_cond_wait` lets the mutex go. -/
  | waitStart
  /-- `pthread_cond_wait` returns with the mutex. -/
  | wokenStart
  | unlockStart
  /-- The test of `m_doRun` that ends the main loop. -/
  | loopTest
  | setDoRun (value : Bool)
  /-- `m_pendingCmdQueue.empty()` outside of the mutex. -/
  | queueEmpty
  | lockCmd
  | unlockCmd
  | popFront
  | deleteFront
  | command (event : CommandEvent)
  | notifyExit
  /-- A null pointer is followed or an assertion fails. -/
  | crash
  deriving DecidableEq

def Res : Op → Type
  | .time => ℤ
  | .wait _ => Wait × ℤ
  | .uninitialised => Bool
  | .heap => ℕ → Byte
  | .timeDiviation => ℤ
  | .startTest => Bool
  | .loopTest => Bool
  | .queueEmpty => Bool
  | .popFront => Option CustomCommand
  | .deleteFront => Option CustomCommand
  | _ => Unit

abbrev ProcessorM (α : Type) := Prog Op Res α

/-- What does not change while the thread runs. -/
structure ProcessorConfig where
  isDataCapture : Bool
  filter : ParameterFilter
  offsetTable : List OffsetTableEntry
  mktime : Tm → ℤ

/-- The members that only the thread uses, with those of the device that it alone writes. -/
structure Processor where
  state : KsuState
  nextState : KsuState
  writeMode : BitVec 32
  fault : FaultState
  dataCapturePeriod : ℕ
  nextModeLoopCycle : ℤ
  isAutoMode : Bool
  motorStatus : Byte
  settings : SettingValues
  isFirstSettingsPacket : Bool
  isDiviationReported : Bool

namespace Processor

def time : ProcessorM ℤ := Prog.perform Op.time

def write (writer : Writer) (packet : DataPacket) : ProcessorM Unit :=
  Prog.perform (Op.write writer packet)

def command (event : CommandEvent) : ProcessorM Unit := Prog.perform (Op.command event)

def queueEmpty : ProcessorM Bool := Prog.perform Op.queueEmpty

def setDoRun (value : Bool) : ProcessorM Unit := Prog.perform (Op.setDoRun value)

def crash {α : Type} : ProcessorM α := .op Op.crash fun _ => .cut

def deref : Option DataPacket → ProcessorM DataPacket
  | some packet => .ret packet
  | none => crash

def readData {α : Type} (packet : DataPacket) (x : PayloadReader α) : ProcessorM α := do
  let beyond ← Prog.perform Op.heap
  return x.value (packet.memory beyond)

def reportEvents : List DBEventCommon → ProcessorM Unit
  | [] => .ret ()
  | event :: events => .op (Op.reportEvent event) fun _ => reportEvents events

def enqueData : List DBDataPacket → ProcessorM Unit
  | [] => .ret ()
  | packet :: packets => .op (Op.enqueData packet) fun _ => enqueData packets

def ksuInactivityTimeout : ℕ := 1500

def waitForKsuActivity (p : Processor) (timeout : ℕ) : ProcessorM Received := do
  let (w, now) ← Prog.perform (Op.wait timeout)
  return w.received p.writeMode now

end Processor

end Ritex
