import Ritex.CommandQueue

/-! The thread of `DaemonCommServer` beside the thread of the processor in one-shot mode: the server
executes one command after another (`ExecuteCustomCommand`, `TestDevice`), creates the processor
with the first of them, queues it, starts the processor and waits until it is notified. -/
namespace Ritex
open Interaction

inductive ServerPc
  | idle
  | check (c : CustomCommand)
  | create (c : CustomCommand)
  | send (c : CustomCommand)
  /-- In `Start`, before the mutex is locked, the flag is set and the mutex is unlocked. -/
  | startLock
  | startSet
  | startUnlock
  | waiting
  deriving DecidableEq

/-- The queue with its log, the flags that the threads share, and the server. -/
structure ShutdownWorld extends CommandWorld where
  /-- `m_fd` is not -1. -/
  isRunning : Bool
  isCreated : Bool
  doRun : Bool
  startLocked : Bool
  canProcess : Bool
  /-- The server thread is cancelled: it takes no further request. -/
  isCancelled : Bool
  server : ServerPc
  /-- The processor has found `m_doRun` false. -/
  left : Bool
  /-- What the loop at the exit has deleted. -/
  deleted : List CustomCommand
  passed : Bool
  deriving DecidableEq

namespace ShutdownWorld

def initial : ShutdownWorld where
  toCommandWorld := .initial
  isRunning := false
  isCreated := false
  doRun := false
  startLocked := false
  canProcess := true
  isCancelled := false
  server := .idle
  left := false
  deleted := []
  passed := false

def serverListener : ℕ := 0

def notifiesServer : CommandEvent → Bool
  | .onResultReady _ listener _ => listener == serverListener
  | _ => false

/-! ### The processor -/

def withCommands (s : ShutdownWorld) (w : CommandWorld) : ShutdownWorld :=
  { s with toCommandWorld := w }

def read (s : ShutdownWorld) (found flag : Bool) : Option ShutdownWorld :=
  if found = flag then some s else none

def next : (o : Op) → ShutdownWorld → Res o → Option ShutdownWorld
  | .lockStart, s, _ =>
    if s.isCreated && !s.startLocked then some { s with startLocked := true } else none
  | .startTest, s, doRun => s.read doRun s.doRun
  | .waitStart, s, _ => some { s with startLocked := false }
  | .wokenStart, s, _ => if s.startLocked then none else some { s with startLocked := true }
  | .unlockStart, s, _ => some { s with startLocked := false }
  | .loopTest, s, doRun =>
    (s.read doRun s.doRun).map fun s => { s with left := s.left || !s.doRun }
  | .setDoRun value, s, _ => some { s with doRun := value }
  | .queueEmpty, s, empty => s.read empty s.queue.isEmpty
  | .deleteFront, s, front => (s.takeFront front).map fun w => { s.withCommands w with
      deleted := s.deleted ++ front.toList, passed := s.passed || front.isNone }
  | .command event, s, r =>
    (CommandWorld.next (.command event) s.toCommandWorld r).map fun w =>
      { s.withCommands w with canProcess := s.canProcess || notifiesServer event }
  | .notifyExit, s, _ => some { s with isCancelled := true }
  | o, s, r => (CommandWorld.next o s.toCommandWorld r).map s.withCommands

/-! ### The server -/

def commandPacket (command : DeviceCommand) (now : ℤ) : Option DataPacket :=
  match command.commandClass with
  | .external cmd => customCommandPacket (cmd.cmdId.setWidth 8) cmd.param1 cmd.param2 now
  | .testDevice => some (testDevicePacket now)

/-- Where the server goes when a command is not executed: it reports an error, but for the test of
the device it waits all the same. -/
def refused (c : CustomCommand) : ServerPc :=
  match c.parentCommand.commandClass with
  | .external _ => .idle
  | .testDevice => .waiting

inductive ServerMove
  | request (command : DeviceCommand) (now : ℤ)
  | isRunning
  | create (isOpened isCreated : Bool)
  | sendCustomCmd
  | lockStart
  | setDoRun
  | unlockStart
  | resume
  deriving DecidableEq

/-- `m_canProcessCommands` is cleared and the server made a listener before the command is
executed. -/
def request (s : ShutdownWorld) (command : DeviceCommand) (now : ℤ) : ShutdownWorld :=
  match commandPacket command now with
  | some packet => { s with
      canProcess := false
      server := .check
        ⟨packet, { command with listeners := command.listeners ++ [serverListener] }⟩ }
  | none => { s with canProcess := false }

def create (s : ShutdownWorld) (c : CustomCommand) (isOpened isCreated : Bool) : ShutdownWorld :=
  if isOpened then { s with
    isRunning := true
    isCreated := isCreated
    doRun := false
    startLocked := false
    server := if isCreated then .send c else refused c }
  else { s with server := refused c }

/-- The test of the device refuses a running processor. -/
def checked (s : ShutdownWorld) (c : CustomCommand) : ShutdownWorld :=
  if s.isRunning then
    match c.parentCommand.commandClass with
    | .external _ => { s with server := .send c }
    | .testDevice => { s with server := refused c }
  else { s with server := .create c }

def move : ServerMove → ShutdownWorld → Option ShutdownWorld
  | .request command now, s =>
    if s.server = .idle ∧ s.isCancelled = false then some (s.request command now) else none
  | .isRunning, s =>
    match s.server with
    | .check c => some (s.checked c)
    | _ => none
  | .create isOpened isCreated, s =>
    match s.server with
    | .create c => some (s.create c isOpened isCreated)
    | _ => none
  | .sendCustomCmd, s =>
    match s.server with
    | .send c => (CommandWorld.push c s.toCommandWorld).map fun w =>
      { s.withCommands w with server := .startLock }
    | _ => none
  | .lockStart, s =>
    if s.server = .startLock ∧ s.startLocked = false then
      some { s with startLocked := true, server := .startSet } else none
  | .setDoRun, s =>
    if s.server = .startSet then some { s with doRun := true, server := .startUnlock } else none
  | .unlockStart, s =>
    if s.server = .startUnlock then
      some { s with startLocked := false, server := .waiting } else none
  | .resume, s =>
    if s.server = .waiting ∧ s.canProcess = true then some { s with server := .idle } else none

end ShutdownWorld

def shutdownEnv : Env Op Res ShutdownWorld :=
  Env.ofSteps ShutdownWorld.next ShutdownWorld.move

end Ritex
