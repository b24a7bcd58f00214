import Ritex.Transition

/-! The request loop of the daemon server and the thread that finishes commands
(`DaemonCommServer::Run`, `OnResultReady`), up to the cancellation of the server thread. What a
request contains and what its command does are left open here: a request may be dropped, a
command may be refused, may notify inside `Execute`, may be accepted and notify once at any later
time, or may never notify. -/
namespace Ritex.RequestLoop
open Transition

/-- A command, with the number of the request that created it and the connection that request was
read from. -/
structure Command where
  request : ℕ
  connection : ℕ
  deriving DecidableEq

inductive Thread
  | server
  | finisher
  deriving DecidableEq

/-- What a thread does next in `OnResultReady`. -/
inductive Callback
  | send
  | lock
  | set
  | signal
  | unlock
  deriving DecidableEq

inductive Server
  | accept
  | recv
  | received (connection : ℕ)
  | lockClear (c : Command)
  | clear (c : Command)
  | unlockClear (c : Command)
  | execute (c : Command) (accepted : Bool)
  | notify (c : Command) (next : Callback)
  | lockWait (c : Command)
  | test (c : Command)
  | wait (c : Command)
  | woken (c : Command)
  | unlockWait (c : Command)
  | refuse (c : Command)
  | reject
  | close
  | stopped
  deriving DecidableEq

/-- A call of `SendResponseToClient`, with the command it is about and the connection behind
`m_clientSock`. -/
structure Response where
  request : ℕ
  command : Option Command
  connection : Option ℕ
  deriving DecidableEq

structure State where
  server : Server
  clientSock : Option ℕ
  canProcessCommands : Bool
  mutex : Option Thread
  connections : ℕ
  requests : ℕ
  accepted : List Command
  finisher : Option (Command × Callback)
  responses : List Response
  executed : List Command
  finished : List Command
  deriving DecidableEq

def initial : State where
  server := .accept
  clientSock := none
  canProcessCommands := true
  mutex := none
  connections := 0
  requests := 0
  accepted := []
  finisher := none
  responses := []
  executed := []
  finished := []

namespace State

def sendResponseToClient (s : State) (request : ℕ) (command : Option Command) : State :=
  { s with responses := ⟨request, command, s.clientSock⟩ :: s.responses }

/-- `pthread_cond_signal`: only the server ever waits. -/
def signal (s : State) : State :=
  match s.server with
  | .wait c => { s with server := .woken c }
  | _ => s

end State

/-- `OnResultReady` up to its last unlock. -/
inductive CallbackStep (thread : Thread) (c : Command) : Callback → State → Callback → State → Prop
  | send (s : State) :
    CallbackStep thread c .send s .lock (s.sendResponseToClient c.request (some c))
  | lock {s : State} (hm : s.mutex = none) :
    CallbackStep thread c .lock s .set { s with mutex := some thread }
  | set (s : State) :
    CallbackStep thread c .set s .signal { s with canProcessCommands := true }
  | signal (s : State) : CallbackStep thread c .signal s .unlock s.signal

inductive Step : State → State → Prop
  | accept {s : State} (h : s.server = .accept) :
    Step s { s with
      server := .recv, clientSock := some s.connections, connections := s.connections + 1 }
  | acceptError {s : State} (h : s.server = .accept) : Step s { s with server := .stopped }
  | recv {s : State} {connection : ℕ} (h : s.server = .recv) (hc : s.clientSock = some connection) :
    Step s { s with server := .received connection, requests := s.requests + 1 }
  -- The descriptor is dropped before the message about the error is sent.
  | recvError {s : State} (h : s.server = .recv) :
    Step s { s with server := .reject, clientSock := none, requests := s.requests + 1 }
  | recvShort {s : State} (h : s.server = .recv) :
    Step s { s with server := .reject, requests := s.requests + 1 }
  -- No command comes out of the request; the loop goes on without an answer.
  | skip {s : State} {connection : ℕ} (h : s.server = .received connection) :
    Step s { s with server := .recv }
  | create {s : State} {connection : ℕ} (h : s.server = .received connection) :
    Step s { s with server := .lockClear ⟨s.requests, connection⟩ }
  | lockClear {s : State} {c : Command} (h : s.server = .lockClear c) (hm : s.mutex = none) :
    Step s { s with server := .clear c, mutex := some .server }
  | clear {s : State} {c : Command} (h : s.server = .clear c) :
    Step s { s with server := .unlockClear c, canProcessCommands := false }
  | unlockClear {s : State} {c : Command} (h : s.server = .unlockClear c) :
    Step s { s with server := .execute c false, mutex := none }
  | submit {s : State} {c : Command} (h : s.server = .execute c false) :
    Step s { s with server := .execute c true, accepted := s.accepted ++ [c] }
  | notifyInside {s : State} {c : Command} (h : s.server = .execute c false) :
    Step s { s with server := .notify c .send }
  | executeFalse {s : State} {c : Command} (h : s.server = .execute c false) :
    Step s { s with server := .refuse c }
  | executeTrue {s : State} {c : Command} {accepted : Bool} (h : s.server = .execute c accepted) :
    Step s { s with server := .lockWait c, executed := c :: s.executed }
  | serverCallback {s s' : State} {c : Command} {next next' : Callback}
    (h : s.server = .notify c next) (hs : CallbackStep .server c next s next' s') :
    Step s { s' with server := .notify c next' }
  | serverReturn {s : State} {c : Command} (h : s.server = .notify c .unlock) :
    Step s { s with
      server := .lockWait c, mutex := none, executed := c :: s.executed,
      finished := c :: s.finished }
  | lockWait {s : State} {c : Command} (h : s.server = .lockWait c) (hm : s.mutex = none) :
    Step s { s with server := .test c, mutex := some .server }
  | testTrue {s : State} {c : Command} (h : s.server = .test c)
    (hf : s.canProcessCommands = true) : Step s { s with server := .unlockWait c }
  | testFalse {s : State} {c : Command} (h : s.server = .test c)
    (hf : s.canProcessCommands = false) : Step s { s with server := .wait c, mutex := none }
  | spurious {s : State} {c : Command} (h : s.server = .wait c) :
    Step s { s with server := .woken c }
  | wake {s : State} {c : Command} (h : s.server = .woken c) (hm : s.mutex = none) :
    Step s { s with server := .test c, mutex := some .server }
  | unlockWait {s : State} {c : Command} (h : s.server = .unlockWait c) :
    Step s { s with server := .recv, mutex := none }
  | refuse {s : State} {c : Command} (h : s.server = .refuse c) :
    Step s { s.sendResponseToClient s.requests (some c) with server := .recv }
  | reject {s : State} (h : s.server = .reject) :
    Step s { s.sendResponseToClient s.requests none with server := .close }
  | close {s : State} (h : s.server = .close) :
    Step s { s with server := .accept, clientSock := none }
  | finish {s : State} {c : Command} {before after : List Command} (h : s.finisher = none)
    (ha : s.accepted = before ++ c :: after) :
    Step s { s with accepted := before ++ after, finisher := some (c, .send) }
  | finisherCallback {s s' : State} {c : Command} {next next' : Callback}
    (h : s.finisher = some (c, next)) (hs : CallbackStep .finisher c next s next' s') :
    Step s { s' with finisher := some (c, next') }
  | finisherReturn {s : State} {c : Command} (h : s.finisher = some (c, .unlock)) :
    Step s { s with finisher := none, mutex := none, finished := c :: s.finished }

def system : System State where
  init s := s = initial
  step := Step

end Ritex.RequestLoop
