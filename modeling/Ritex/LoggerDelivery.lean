import Ritex.LoggerHandoff

/-! Which records a logger loses: none if the gateway takes and acknowledges every command, and the
thread is cancelled with nothing left. -/
namespace Ritex.Gateway
open Interaction Streams

/-- Every record that was enqueued is in the queue, on its way or deleted; the gateway has those that
are deleted, and the queue is empty when the destructor asserts it. -/
structure NothingLost {ι ρ : Type} (pool : LoggerPool ι ρ) : Prop where
  account : pool.state.enqueued.reduceOption =
    pool.state.courier.deleted.map Delivery.item ++
      (pool.state.courier.delivery.map Delivery.item).toList ++
      pool.state.courier.inHand.toList ++ pool.state.queue.reduceOption
  deleted : ∀ d ∈ pool.state.courier.deleted, d.received = true ∧ d.acknowledged = true
  ended : pool.state.courier.ended = true → pool.state.courier.inHand = none ∧
    ∀ d ∈ pool.state.courier.delivery, d.received = true ∧ d.acknowledged = true
  asserted : ∀ k, pool.left .owner = .op .assertEmpty k → pool.state.queue = []

theorem settled_iff {ι ρ : Type} {s : LoggerState ι ρ} : s.settled = true ↔
    s.queue = [] ∧ s.courier.inHand = none ∧ s.courier.delivery.all Delivery.complete = true := by
  rw [LoggerState.settled, Bool.and_eq_true, Bool.and_eq_true, List.isEmpty_iff, Option.isNone_iff_eq_none,
    and_assoc]

variable {ι ρ : Type} [DecidableEq ι] [DecidableEq ρ] {cls : LoggerClass ρ}

theorem queue_eq_nil_of_assertEmpty {pool : LoggerPool ι ρ}
    (h : (cls.threads faultless).Reaches LoggerPool.created pool) {k : Bool → LoggerProg ρ Unit}
    (hleft : pool.left .owner = .op .assertEmpty k) : pool.state.queue = [] := by
  by_contra hqueue
  have hempty : pool.state.queue.isEmpty = false := by
    rw [Bool.eq_false_iff, ne_eq, List.isEmpty_iff]
    exact hqueue
  have hnext : (cls.threads faultless).next .owner .assertEmpty pool.state false =
      some { pool.state with assertFailed := true } := by
    change (if false = pool.state.queue.isEmpty then
      some { pool.state with assertFailed := pool.state.assertFailed || !false } else none) = _
    rw [if_pos hempty.symm, Bool.not_false, Bool.or_true]
  have hreaches : (cls.threads (answersOf true)).Reaches LoggerPool.created
      (pool.set .owner (k false) { pool.state with assertFailed := true }) :=
    Relation.ReflTransGen.tail h (.answer hleft hnext)
  have hfailed := ((logger_cooperates hreaches).1.intact rfl).asserted
  cases hfailed

/-- In a run without faults nothing is lost. -/
theorem faultless_delivers (cls : LoggerClass ρ) {pool : LoggerPool ι ρ}
    (h : (cls.threads faultless).Reaches LoggerPool.created pool) : NothingLost pool := by
  have hcooperates : pool.Cooperates (cls.threads (answersOf true)) (loggerContract true)
      fun p _ => Rests p := logger_cooperates h
  have hinv := hcooperates.1
  have hintact := hinv.intact rfl
  refine ⟨?_, fun d hd => ?_, fun hended => ?_, fun k hleft => queue_eq_nil_of_assertEmpty h hleft⟩
  · rw [← hinv.handoff, hinv.bound]
  · exact Bool.and_eq_true _ _ ▸ hintact.deleted d hd
  · obtain ⟨-, hinHand, hdelivery⟩ := settled_iff.mp (hintact.ended hended)
    refine ⟨hinHand, fun d hd => ?_⟩
    rw [Option.all_eq_true] at hdelivery
    exact Bool.and_eq_true _ _ ▸ hdelivery d hd

def eventCommand : List Byte :=
  ((eventLoggerThread sampleTime).command {}).binWrite.toOption.getD []

/-- An event is enqueued and sent, with these answers of the gateway. -/
def eventScript (connected written : ℤ) (reply : Option (List Byte)) :
    List (PoolTurn (Party Bool) (LoggerCall DBEventCommon) (LoggerOp DBEventCommon) LoggerRes) :=
  [.start (.producer true) (.enqueData (some {}) true), .answer (.producer true) ⟨.log, some ()⟩,
    .answer (.producer true) ⟨.lock, ()⟩, .answer (.producer true) ⟨.push (some {}), ()⟩,
    .answer (.producer true) ⟨.unlock, ()⟩, .answer (.producer true) ⟨.signal, ()⟩,
    .start .logger (.round 1), .answer .logger ⟨.lock, ()⟩, .answer .logger ⟨.clockGettime, 100⟩,
    .answer .logger ⟨.log, some ()⟩, .answer .logger ⟨.empty .waiting, false⟩,
    .answer .logger ⟨.size, 1⟩, .answer .logger ⟨.log, some ()⟩, .answer .logger ⟨.unlock, ()⟩,
    .answer .logger ⟨.socket, 5⟩, .answer .logger ⟨.log, some ()⟩, .answer .logger ⟨.log, some ()⟩,
    .answer .logger ⟨.connect 5, some connected⟩, .answer .logger ⟨.log, some ()⟩,
    .answer .logger ⟨.log, some ()⟩, .answer .logger ⟨.log, some ()⟩, .answer .logger ⟨.lock, ()⟩,
    .answer .logger ⟨.empty .sending, false⟩, .answer .logger ⟨.front, some {}⟩,
    .answer .logger ⟨.pop, ()⟩, .answer .logger ⟨.unlock, ()⟩, .answer .logger ⟨.log, some ()⟩,
    .answer .logger ⟨.bindParams {}, ()⟩, .answer .logger ⟨.log, some ()⟩,
    .answer .logger ⟨.write 5 eventCommand, some written⟩, .answer .logger ⟨.log, some ()⟩,
    .answer .logger ⟨.read 5, some reply⟩, .answer .logger ⟨.delete {}, ()⟩]

theorem faultless_delivers_event : ∃ pool : LoggerPool Bool DBEventCommon,
    pool.state.courier.deleted.length = 1 ∧ NothingLost pool := by
  obtain ⟨pool, hreaches, htest⟩ := Threads.exists_reaches_of_replay
    ((eventLoggerThread sampleTime).threads faultless)
    (eventScript 0 eventCommand.length (some ack.bulk)) LoggerPool.created
    (fun pool : LoggerPool Bool DBEventCommon =>
      decide (pool.state.courier.deleted.length = 1)) (by decide +kernel)
  exact ⟨pool, of_decide_eq_true htest, faultless_delivers (eventLoggerThread sampleTime) hreaches⟩

/-- An event is enqueued without a signal, and the logger is destroyed while it waits. -/
def destroyedScript : List (PoolTurn (Party Bool) (LoggerCall DBEventCommon)
    (LoggerOp DBEventCommon) LoggerRes) :=
  [.start .logger (.round 1), .answer .logger ⟨.lock, ()⟩, .answer .logger ⟨.clockGettime, 100⟩,
    .answer .logger ⟨.log, some ()⟩, .answer .logger ⟨.empty .waiting, true⟩,
    .answer .logger ⟨.wait 105, ()⟩, .start (.producer true) (.enqueData (some {}) false),
    .answer (.producer true) ⟨.log, some ()⟩, .answer (.producer true) ⟨.lock, ()⟩,
    .answer (.producer true) ⟨.push (some {}), ()⟩, .answer (.producer true) ⟨.unlock, ()⟩,
    .start .owner .destroy, .answer .owner ⟨.log, some ()⟩, .answer .owner ⟨.cancel, ()⟩,
    .answer .logger ⟨.wake, none⟩, .answer .owner ⟨.join, ()⟩, .answer .owner ⟨.condDestroy, ()⟩,
    .answer .owner ⟨.mutexDestroy, ()⟩]

def asserts (prog : LoggerProg DBEventCommon Unit) : Bool :=
  match prog with
  | .op .assertEmpty _ => true
  | _ => false

theorem exists_of_asserts {prog : LoggerProg DBEventCommon Unit} (h : asserts prog = true) :
    ∃ k, prog = .op .assertEmpty k := by
  unfold asserts at h
  split at h
  next k => exact ⟨k, rfl⟩
  next => cases h

/-- There is no gateway to connect to; and the queue is not empty when the logger is destroyed. -/
theorem faultless_delivers_false :
    (¬∀ pool : LoggerPool Bool DBEventCommon,
      ((eventLoggerThread sampleTime).threads fun _ _ _ _ => true).Reaches LoggerPool.created pool →
      ∀ d ∈ pool.state.courier.deleted, d.received = true ∧ d.acknowledged = true) ∧
    ¬∀ pool : LoggerPool Bool DBEventCommon,
      ((eventLoggerThread sampleTime).threads fun _ _ _ _ => true).Reaches LoggerPool.created pool →
      ∀ k, pool.left .owner = .op .assertEmpty k → pool.state.queue = [] := by
  constructor
  · intro hall
    obtain ⟨pool, hreaches, htest⟩ := Threads.exists_reaches_of_replay
      ((eventLoggerThread sampleTime).threads fun _ _ _ _ => true) (eventScript (-1) (-1) none)
      LoggerPool.created
      (fun pool : LoggerPool Bool DBEventCommon =>
        decide (pool.state.courier.deleted = [{ item := {} }])) (by decide +kernel)
    have hdeleted := hall pool hreaches
    rw [of_decide_eq_true htest] at hdeleted
    cases (hdeleted _ (List.mem_singleton_self _)).1
  · intro hall
    obtain ⟨pool, hreaches, htest⟩ := Threads.exists_reaches_of_replay
      ((eventLoggerThread sampleTime).threads fun _ _ _ _ => true) destroyedScript LoggerPool.created
      (fun pool : LoggerPool Bool DBEventCommon =>
        asserts (pool.left .owner) && decide (pool.state.queue = [some {}])) (by decide +kernel)
    obtain ⟨hasserts, hqueue⟩ := Bool.and_eq_true_iff.mp htest
    obtain ⟨k, hleft⟩ := exists_of_asserts hasserts
    have hempty := hall pool hreaches k hleft
    rw [of_decide_eq_true hqueue] at hempty
    cases hempty

end Ritex.Gateway
