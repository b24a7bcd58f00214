import Ritex.ForkingPrograms
import Ritex.GatewayStrings

/-! How the gateway becomes a daemon (`gateway/daemon.cpp`): a parent, its child and its grandchild,
and two pipes on which the two let the parent know that they are ready. The process is started with
its standard descriptors open, a message is written to a pipe as a whole or not at all, and an end that
cannot be closed is released all the same. -/
namespace Ritex.Gateway
open Interaction Strings

inductive PipeName
  | child
  | grandchild
  deriving DecidableEq

inductive PipeEnd
  | reader
  | writer
  deriving DecidableEq

inductive Signal
  | hup
  | int
  | quit
  | usr1
  | usr2
  | term
  | chld
  | ttin
  | ttou
  | winch
  deriving DecidableEq

/-- The calls that concern no pipe. -/
inductive DaemonCall
  | waitpid
  | openNull
  | dup2 (fd : Fin 3)
  | closeNull
  | setsid
  | ignoreSignal (s : Signal)
  | chdir
  /-- `init` of the descendant class. -/
  | init
  | openPidFile
  | writePidFile
  deriving DecidableEq

inductive DaemonOp
  | pipe (p : PipeName)
  | fork
  /-- `file_t::close` on an end of a pipe. -/
  | close (p : PipeName) (e : PipeEnd)
  /-- `file_t::read` to the end of the file. -/
  | read (p : PipeName)
  | write (p : PipeName) (text : Text)
  | call (c : DaemonCall)
  /-- `body` of the descendant class. -/
  | body
  deriving DecidableEq

/-- An exception, with the text of a `std::exception`. -/
inductive Thrown
  | exception (what : Text)
  | unknown
  deriving DecidableEq

inductive Forked
  | parent
  | child
  | failed (thrown : Thrown)
  deriving DecidableEq

/-- Every operation may throw. -/
abbrev DaemonRes : DaemonOp → Type
  | .fork => Forked
  | .read _ => Except Thrown Text
  | _ => Option Thrown

abbrev DaemonM := ExceptT Thrown (Prog DaemonOp DaemonRes)

namespace Daemon

def perform (o : DaemonOp) : DaemonM (DaemonRes o) := ExceptT.lift (Prog.perform o)

def orThrow : Option Thrown → DaemonM Unit
  | none => return ()
  | some e => throw e

def pipe (p : PipeName) : DaemonM Unit := do orThrow (← perform (.pipe p))

/-- Whether this is the new process. -/
def fork : DaemonM Bool := do
  match ← perform .fork with
  | .parent => return false
  | .child => return true
  | .failed e => throw e

def close (p : PipeName) (e : PipeEnd) : DaemonM Unit := do orThrow (← perform (.close p e))

/-- `~file_t`, which closes the end but throws nothing. -/
def destroy (p : PipeName) (e : PipeEnd) : DaemonM Unit := discard (perform (.close p e))

def read (p : PipeName) : DaemonM Text := ExceptT.mk (Prog.perform (DaemonOp.read p))

def write (p : PipeName) (text : Text) : DaemonM Unit := do orThrow (← perform (.write p text))

def call (c : DaemonCall) : DaemonM Unit := do orThrow (← perform (.call c))

def body : DaemonM Unit := do orThrow (← perform .body)

def calls : List DaemonCall → DaemonM Unit
  | [] => return ()
  | c :: cs => do
    call c
    calls cs

def ok : Text := "(ok)".toList

/-- What is written of an exception. -/
def message : Thrown → Text
  | .exception what => what ++ ['\n']
  | .unknown => "Unknown exception occurred\n".toList

def initCalls : List DaemonCall := [.chdir, .init, .openPidFile, .writePidFile]

/-- `_init`. -/
def init : DaemonM Unit := calls initCalls

def grandchildBlock : DaemonM Unit := do
  close .child .writer
  init
  write .grandchild ok
  close .grandchild .writer

def grandchild : DaemonM Unit := do
  tryCatch grandchildBlock fun e => do
    write .grandchild (message e)
    throw e
  body

def reopenCalls : List DaemonCall :=
  [.openNull, .dup2 0, .closeNull, .openNull, .dup2 1, .dup2 2, .closeNull]

def ignoredSignals : List Signal := [.hup, .int, .quit, .usr1, .usr2, .term, .chld, .ttin, .ttou, .winch]

def sessionCalls : List DaemonCall := reopenCalls ++ .setsid :: ignoredSignals.map .ignoreSignal

/-- The child behind the second `fork`. -/
def childRest : DaemonM Unit := do
  close .grandchild .writer
  call .waitpid
  write .child ok

/-- The block under `try` in `_child`; whether it returns from the function. -/
def childBlock : DaemonM Bool := do
  close .child .reader
  close .grandchild .reader
  calls sessionCalls
  if ← fork then
    grandchild
    return true
  else
    childRest
    return false

def child : DaemonM Unit := do
  let isReturned ← tryCatch childBlock fun e => do
    write .child (message e)
    return false
  if isReturned then return () else close .child .writer

def reason (reply : Text) : Text :=
  if reply = [] then "Died silently".toList else printStrings (Strings.split ['\n'] reply)

/-- The message of what the parent throws unless both replies are `ok`. -/
def initializationError (cReply gReply : Text) : Option Text :=
  if cReply = ok ∧ gReply = ok then none
  else
    let errors := if cReply = ok then [] else "Child: ".toList ++ reason cReply
    let errors := if gReply = ok then errors
      else errors ++ (if errors = [] then [] else "; ".toList) ++ "Grandchild: ".toList ++ reason gReply
    some ("Daemon initialization failed: ".toList ++ errors)

/-- `what` of an `err_t` that the daemon throws, with the place in the source if it is compiled in. -/
def what (location message : Text) : Text := location ++ "daemon: ".toList ++ message

def parent (location : Text) : DaemonM Unit := do
  close .child .writer
  close .grandchild .writer
  call .waitpid
  let cReply ← read .child
  let gReply ← read .grandchild
  match initializationError cReply gReply with
  | some errors => throw (.exception (what location errors))
  | none =>
    close .child .reader
    close .grandchild .reader

/-- The destructors of the two pipes. -/
def closePipes : DaemonM Unit := do
  destroy .grandchild .writer
  destroy .grandchild .reader
  destroy .child .writer
  destroy .child .reader

/-- `_parent` before the pipes are destroyed. -/
def parentBlock (location : Text) : DaemonM Unit := do
  pipe .child
  pipe .grandchild
  if ← fork then child else parent location

/-- `_parent`, from which all three processes return. -/
def daemonize (location : Text) : DaemonM Unit := ExceptT.mk do
  let outcome ← (parentBlock location).run
  let _ ← closePipes.run
  return outcome

/-- `run`; `location` is where the parent throws. -/
def run (location : Text) (isDaemonized : Bool) : DaemonM Unit :=
  if isDaemonized then daemonize location else do
    init
    body

end Daemon

end Ritex.Gateway
