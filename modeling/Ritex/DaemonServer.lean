import Ritex.DeviceCommands
import Ritex.Transition

/-! `DaemonCommServer::Run`: the server reads a request of its client, executes it, and waits until the
command is reported finished before it reads the next one. -/
namespace Ritex
open Transition

/-- What is outside of the server and fixed: `getopt_long_only` and `atof`. -/
structure ServerLibrary where
  getopt : List Text → List OptionToken
  atof : Text → Word

/-- What `recv` brings. -/
inductive Input
  /-- The length cannot be read. -/
  | error
  /-- The connection ends within the length. -/
  | noLength
  | badLength
  /-- The connection ends within the bytes that the length promises. -/
  | noContent
  | request (data : List Byte)

inductive ServerEvent
  | request (data : List Byte)
  | response (text : String)
  | queued (c : CustomCommand)
  /-- The server waits on `m_canProcessCommandsCond`. -/
  | waits
  | closed
  /-- The server is no more: the program is aborted, or the thread cancelled. -/
  | ended
  deriving DecidableEq

inductive ServerPhase
  | reading
  | executed
  | waiting
  | ended
  deriving DecidableEq

def executionError : String := "7;Не могу начать выполнение команды. Внутренняя ошибка\n"

def wrongContentLength : String := "7;[SERVER] got wrong content length\n"

def wrongPacketLength : String := "7;[SERVER] got wrong packet length\n"

structure ServerState where
  device : DeviceState
  phase : ServerPhase
  canProcess : Bool
  /-- The command in the queue that has no reply yet. -/
  unreplied : Option CustomCommand
  log : List ServerEvent

namespace ServerState

def record (s : ServerState) (events : List ServerEvent) : ServerState :=
  { s with log := s.log ++ events }

def stop (s : ServerState) : ServerState := { s with phase := .ended, log := s.log ++ [.ended] }

def finish (s : ServerState) (execution : Execution) (device : DeviceState) : ServerState :=
  match execution with
  | .failed => { s.record [.response executionError] with
      device := device, canProcess := false, phase := .reading }
  | .notified => { s.record [.response ""] with
      device := device, canProcess := true, phase := .executed }
  | .queued c => { s.record [.queued c] with
      device := device, canProcess := false, phase := .executed, unreplied := some c }
  | .nothing => { s with device := device, canProcess := false, phase := .executed }

def perform (lib : ServerLibrary) (s : ServerState) (x : Circumstances) (cmd : CompiledCommand) :
    ServerState :=
  match createCommand lib.atof cmd with
  | .null => s
  | .aborted => s.stop
  | .created command =>
    let (execution, device) := execute (s.device.synchronised cmd) x command
    s.finish execution device

/-- A complete request: nothing happens to one that is not accepted. -/
def serve (lib : ServerLibrary) (s : ServerState) (x : Circumstances) (data : List Byte) :
    ServerState :=
  match parse lib.getopt (setCmdLine (cString (data ++ x.beyond))) with
  | none => s
  | some command =>
    match command.compile additionalParameterMap x.fakeId with
    | none => s
    | some cmd => s.perform lib x cmd

/-- What `recv` brings is answered; all but a complete request ends the connection. -/
def receive (lib : ServerLibrary) (s : ServerState) (x : Circumstances) : Input → ServerState
  | .error => s.record [.closed]
  | .noLength => s.record [.response wrongPacketLength, .closed]
  | .badLength => s.stop
  | .noContent => s.record [.response wrongContentLength, .closed]
  | .request data => (s.record [.request data]).serve lib x data

end ServerState

/-- A step of the server, or of the processor: it replies to the command in its queue, and in one-shot
mode its end cancels the server. -/
inductive ServerAction
  | receive (x : Circumstances) (input : Input)
  | wait
  | goOn
  | reply (rawResult : String)
  | cancel

def ServerState.act (lib : ServerLibrary) (s : ServerState) : ServerAction → Option ServerState
  | .receive x input => if s.phase = .reading then some (s.receive lib x input) else none
  | .wait =>
    if s.phase = .executed ∧ s.canProcess = false then
      some { s.record [.waits] with phase := .waiting } else none
  | .goOn =>
    if (s.phase = .executed ∨ s.phase = .waiting) ∧ s.canProcess = true then
      some { s with phase := .reading } else none
  | .reply rawResult =>
    if s.unreplied.isSome = true ∧ s.phase ≠ .ended then
      some { s.record [.response rawResult] with canProcess := true, unreplied := none }
    else none
  | .cancel =>
    if s.device.isOneShot = true ∧ s.phase ≠ .ended then some s.stop else none

def ServerState.initial (timeDiviation : ℤ) : ServerState where
  device := ⟨false, false, timeDiviation⟩
  phase := .reading
  canProcess := true
  unreplied := none
  log := []

def daemonServer (lib : ServerLibrary) (timeDiviation : ℤ) : System ServerState where
  init s := s = .initial timeDiviation
  step s s' := ∃ a, s.act lib a = some s'

end Ritex
