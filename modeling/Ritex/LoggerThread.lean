import Ritex.GatewayCommand
import Ritex.Reports
import Ritex.ThreadPool

/-! `LoggerThread`: a thread that sends records to the gateway, the threads that enqueue records and
the one that destroys it. A thread that is cancelled stops at a cancellation point. -/
namespace Ritex.Gateway
open Interaction Streams

def etimedout : ℤ := 110

/-- The two tests `m_queue.empty()` of `Run`. -/
inductive EmptyTest
  | waiting
  | sending
  deriving DecidableEq

/-- The operations on records of type `ρ`; a null pointer to a record is `none`. -/
inductive LoggerOp (ρ : Type)
  /-- `Log`, which writes to a file and may be cancelled there. -/
  | log
  | lock
  | unlock
  | clockGettime
  | empty (test : EmptyTest)
  /-- `pthread_cond_timedwait` until it has released the mutex. -/
  | wait (tm : ℤ)
  /-- The rest of `pthread_cond_timedwait`: a signal, a time-out or nothing has woken the thread. -/
  | wake
  | size
  | front
  | pop
  | socket
  | connect (sock : ℤ)
  | write (sock : ℤ) (data : List Byte)
  | read (sock : ℤ)
  | close (sock : ℤ)
  | bindParams (data : ρ)
  /-- An exception that nobody catches. -/
  | terminate (error : GatewayError)
  | delete (data : ρ)
  | push (event : Option ρ)
  | signal
  | cancel
  | join
  | condDestroy
  | mutexDestroy
  | assertEmpty
  deriving DecidableEq

/-- Answers; at a cancellation point `none` says that the thread was cancelled there. A read that
fails gives `some none`. -/
abbrev LoggerRes {ρ : Type} : LoggerOp ρ → Type
  | .log => Option Unit
  | .clockGettime => ℤ
  | .empty _ => Bool
  | .wake => Option ℤ
  | .size => ℕ
  | .front => Option ρ
  | .socket => ℤ
  | .connect _ => Option ℤ
  | .write _ _ => Option ℤ
  | .read _ => Option (Option (List Byte))
  | .close _ => Option ℤ
  | .terminate _ => Empty
  | .assertEmpty => Bool
  | _ => Unit

abbrev LoggerProg (ρ α : Type) := Prog (LoggerOp ρ) LoggerRes α

def LoggerOp.perform {ρ : Type} (o : LoggerOp ρ) : LoggerProg ρ (LoggerRes o) := Prog.perform o

/-- What a subclass of `LoggerThread` brings: the command for a record, and whether its `BindParams`
logs before it sends and after it has read. -/
structure LoggerClass (ρ : Type) where
  command : ρ → Command
  logsBefore : Bool
  logsAfter : Bool

def toInt32 (size : ℕ) : ℤ := (size : ℤ).bmod (2 ^ 32)

def eot : Mark := .ofBytes 4 (ascii "EOT")

section
variable {ρ α : Type}

/-- Goes on unless the thread was cancelled. -/
def orStop (p : LoggerProg ρ (Option α)) : LoggerProg ρ α :=
  p.bind fun
    | some a => .ret a
    | none => .cut

def log : LoggerProg ρ Unit := orStop LoggerOp.log.perform

def onlyIf (c : Bool) (p : LoggerProg ρ Unit) : LoggerProg ρ Unit := if c then p else return

/-- `while(m_queue.empty())`; a signal that is early or spurious ends a wait as any other does. -/
def waitForData (tm : ℤ) (waits : ℕ) : LoggerProg ρ ℤ :=
  Prog.loop (fun rc => do
    if ← (LoggerOp.empty .waiting).perform then
      (LoggerOp.wait tm).perform
      let rc ← orStop LoggerOp.wake.perform
      return .inl rc
    else return .inr rc) waits 0

namespace LoggerClass

variable (cls : LoggerClass ρ)

/-- The bytes that `bin_write` has made of a command go to the gateway, and its answer is read. -/
def transmit (sock : ℤ) : Except GatewayError (List Byte) → LoggerProg ρ Unit
  | .error e => do
    let never ← (LoggerOp.terminate e).perform
    nomatch never
  | .ok bytes => do
    let _ ← orStop (LoggerOp.write sock bytes).perform
    log
    let _ ← orStop (LoggerOp.read sock).perform
    onlyIf cls.logsAfter log

/-- `BindParams`; its caller drops the result. -/
def bindParams (data : ρ) (sock : ℤ) : LoggerProg ρ Bool := do
  onlyIf cls.logsBefore log
  cls.transmit sock (cls.command data).binWrite
  return true

def passOn (sock : ℤ) : Option ρ → LoggerProg ρ Unit
  | none => return
  | some data => do
    log
    (LoggerOp.bindParams data).perform
    let _ ← cls.bindParams data sock
    (LoggerOp.delete data).perform

/-- `while(transactionSize > 0)`. -/
def sendItems (sock : ℤ) : ℕ → LoggerProg ρ Unit
  | 0 => return
  | transactionSize + 1 => do
    log
    LoggerOp.lock.perform
    if ← (LoggerOp.empty .sending).perform then return
    let pData ← LoggerOp.front.perform
    LoggerOp.pop.perform
    LoggerOp.unlock.perform
    cls.passOn sock pData
    sendItems sock transactionSize

/-- The body of `while(true)` in `Run`, in which the thread waits at most `waits` times. -/
def round (waits : ℕ) : LoggerProg ρ Unit := do
  LoggerOp.lock.perform
  let now ← LoggerOp.clockGettime.perform
  log
  let rc ← waitForData (now + 5) waits
  let size ← LoggerOp.size.perform
  let transactionSize := toInt32 size
  log
  LoggerOp.unlock.perform
  if rc = etimedout ∧ transactionSize = 0 then
    log
  else
    let sock ← LoggerOp.socket.perform
    log
    log
    let _ ← orStop (LoggerOp.connect sock).perform
    log
    log
    cls.sendItems sock transactionSize.toNat
    log
    let _ ← orStop (LoggerOp.write sock eot.bulk).perform
    let _ ← orStop (LoggerOp.close sock).perform
    return

end LoggerClass

def enqueData (event : Option ρ) (signal : Bool) : LoggerProg ρ Bool := do
  log
  LoggerOp.lock.perform
  (LoggerOp.push event).perform
  LoggerOp.unlock.perform
  onlyIf signal LoggerOp.signal.perform
  return true

/-- `~LoggerThread` as far as its assertion. -/
def destroy : LoggerProg ρ Unit := do
  log
  LoggerOp.cancel.perform
  LoggerOp.join.perform
  LoggerOp.condDestroy.perform
  LoggerOp.mutexDestroy.perform
  let _ ← LoggerOp.assertEmpty.perform
  return

end

/-! ### Subclasses -/

/-- The first 20 characters of `TimeToString`, which ends with a zero byte. -/
def registerDate (timeToString : ℤ → List Byte) (time : ℤ) : Date :=
  ⟨(timeToString time ++ List.replicate 20 0).take 20, by simp⟩

def argument (text : String) : VString := ⟨text.toUTF8.toList.map UInt8.toBitVec⟩

def eventLoggerThread (timeToString : ℤ → List Byte) : LoggerClass DBEventCommon where
  command event := .wre [
    { id := BitVec.ofInt 32 event.typeId
      channel := ⟨BitVec.ofInt 32 event.channelId⟩
      date := registerDate timeToString event.registerTimeDate
      arg1 := argument event.argument1
      arg2 := argument event.argument2
      arg3 := argument event.argument3
      arg4 := argument event.argument4 }]
  logsBefore := true
  logsAfter := false

def dataLoggerThread (timeToString : ℤ → List Byte) (floatBits : ℕ → BitVec 32) :
    LoggerClass DBDataPacket where
  command packet := .wrp [
    { id := BitVec.ofInt 32 packet.paramId
      channel := ⟨BitVec.ofInt 32 packet.channelId⟩
      date := registerDate timeToString packet.registerDate
      value := floatBits packet.value }]
  logsBefore := false
  logsAfter := true

/-! ### Threads -/

inductive Party (ι : Type)
  | logger
  | producer (i : ι)
  | owner
  deriving DecidableEq

/-- A record that was passed to `BindParams`: whether the gateway has received its whole command,
and has acknowledged it. -/
structure Delivery (ρ : Type) where
  item : ρ
  received : Bool := false
  acknowledged : Bool := false
  deriving DecidableEq

/-- What the logger's thread alone changes, and the records it has passed to `BindParams` and
deleted. -/
structure Courier (ρ : Type) where
  connected : Bool := false
  /-- Taken from the queue and not yet passed to `BindParams`. -/
  inHand : Option ρ := none
  /-- Passed to `BindParams` and not yet deleted. -/
  delivery : Option (Delivery ρ) := none
  bound : List ρ := []
  deleted : List (Delivery ρ) := []
  /-- The loop over the queue was left by its `break`. -/
  brokeOff : Bool := false
  ended : Bool := false
  deriving DecidableEq

structure LoggerState (ι ρ : Type) where
  mutex : Mutex (Party ι) := none
  queue : List (Option ρ) := []
  courier : Courier ρ := {}
  enqueued : List (Option ρ) := []
  cancelRequested : Bool := false
  assertFailed : Bool := false
  deriving DecidableEq

def ack : Mark := .ofBytes 4 (ascii "S")

def acknowledges (reply : Option (List Byte)) : Bool :=
  reply.any fun bytes => bytes.take 4 == ack.bulk

namespace Courier

variable {ρ : Type} (c : Courier ρ)

def take (pData : Option ρ) : Courier ρ := { c with inHand := pData }

def bind (data : ρ) : Courier ρ :=
  { c with inHand := none, bound := c.bound ++ [data], delivery := some { item := data } }

def sent (data : List Byte) (written : ℤ) : Courier ρ :=
  { c with delivery := c.delivery.map fun d =>
      { d with received := c.connected && decide (written = data.length) } }

def answered (reply : Option (List Byte)) : Courier ρ :=
  { c with delivery := c.delivery.map fun d => { d with acknowledged := acknowledges reply } }

def delete : Courier ρ :=
  { c with delivery := none, deleted := c.deleted ++ c.delivery.toList }

def stop : Courier ρ := { c with ended := true }

@[simp] theorem sent_item (data : List Byte) (written : ℤ) :
    (c.sent data written).delivery.map Delivery.item = c.delivery.map Delivery.item := by
  simp [sent, Function.comp_def]

@[simp] theorem answered_item (reply : Option (List Byte)) :
    (c.answered reply).delivery.map Delivery.item = c.delivery.map Delivery.item := by
  simp [answered, Function.comp_def]

end Courier

section
variable {ι ρ : Type} [DecidableEq ι] [DecidableEq ρ]

def LoggerState.stopped (p : Party ι) (s : LoggerState ι ρ) : Option (LoggerState ι ρ) :=
  if p = .logger then
    if s.cancelRequested then some { s with courier := s.courier.stop } else none
  else some s

def loggerNext (p : Party ι) :
    (o : LoggerOp ρ) → LoggerState ι ρ → LoggerRes o → Option (LoggerState ι ρ)
  | .log, s, (r : Option Unit) => if r.isSome then some s else s.stopped p
  | .lock, s, _ => (s.mutex.lock p).map fun m => { s with mutex := m }
  | .unlock, s, _ => some { s with mutex := s.mutex.unlock p }
  | .clockGettime, s, _ => some s
  | .empty test, s, (r : Bool) =>
    if r = s.queue.isEmpty then
      some { s with
        courier := { s.courier with brokeOff := s.courier.brokeOff || r && test == .sending } }
    else none
  | .wait _, s, _ => some { s with mutex := s.mutex.unlock p }
  | .wake, s, (r : Option ℤ) => (s.mutex.lock p).bind fun m =>
    if r.isSome then some { s with mutex := m } else LoggerState.stopped p { s with mutex := m }
  | .size, s, (r : ℕ) => if r = s.queue.length then some s else none
  -- the front of an empty queue can be anything
  | .front, s, (r : Option ρ) => if s.queue.head?.all (· = r) then some s else none
  | .pop, s, _ =>
    some { s with queue := s.queue.tail, courier := s.courier.take s.queue.head?.join }
  | .socket, s, _ => some { s with courier := { s.courier with connected := false } }
  | .connect _, s, (r : Option ℤ) =>
    if r.isSome then some { s with courier := { s.courier with connected := r == some 0 } }
    else s.stopped p
  | .write _ data, s, (r : Option ℤ) =>
    match r with
    | some written => some { s with courier := s.courier.sent data written }
    | none => s.stopped p
  | .read _, s, (r : Option (Option (List Byte))) =>
    match r with
    | some reply => some { s with courier := s.courier.answered reply }
    | none => s.stopped p
  | .close _, s, (r : Option ℤ) =>
    if r.isSome then some { s with courier := { s.courier with connected := false } }
    else s.stopped p
  | .bindParams data, s, _ => some { s with courier := s.courier.bind data }
  | .terminate _, _, r => nomatch r
  | .delete _, s, _ => some { s with courier := s.courier.delete }
  | .push event, s, _ =>
    some { s with queue := s.queue ++ [event], enqueued := s.enqueued ++ [event] }
  | .signal, s, _ => some s
  | .cancel, s, _ => some { s with cancelRequested := true }
  | .join, s, _ => if s.courier.ended then some s else none
  | .condDestroy, s, _ => some s
  | .mutexDestroy, s, _ => some s
  | .assertEmpty, s, (r : Bool) =>
    if r = s.queue.isEmpty then some { s with assertFailed := s.assertFailed || !r } else none

inductive LoggerCall (ρ : Type)
  | round (waits : ℕ)
  | enqueData (event : Option ρ) (signal : Bool)
  | destroy

/-- The logger's thread begins the next round, another thread calls a member. -/
def LoggerClass.code (cls : LoggerClass ρ) :
    Party ι → LoggerCall ρ → Option (LoggerProg ρ Unit)
  | .logger, .round waits => some (cls.round waits)
  | .producer _, .enqueData event signal => some do
    let _ ← Gateway.enqueData event signal
    return
  | .owner, .destroy => some Gateway.destroy
  | _, _ => none

/-- The logger's thread with the others, as far as `mayAnswer` lets the answers through. -/
def LoggerClass.threads (cls : LoggerClass ρ)
    (mayAnswer : Party ι → (o : LoggerOp ρ) → LoggerState ι ρ → LoggerRes o → Bool) :
    Threads (Party ι) (LoggerCall ρ) (LoggerOp ρ) LoggerRes Unit (LoggerState ι ρ) where
  next p o s r := if mayAnswer p o s r then loggerNext p o s r else none
  start p call s := (cls.code p call).map fun prog => (prog, s)

end

abbrev LoggerPool (ι ρ : Type) := Pool (Party ι) (LoggerOp ρ) LoggerRes Unit (LoggerState ι ρ)

def LoggerPool.created {ι ρ : Type} : LoggerPool ι ρ := ⟨fun _ => .ret (), {}⟩

end Ritex.Gateway
