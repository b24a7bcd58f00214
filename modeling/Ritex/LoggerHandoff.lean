import Ritex.LoggerOperations

/-! The queue of a logger between the threads that enqueue records and the thread that sends them:
every record that was enqueued is sent once and in order. -/
namespace Ritex.Gateway
open Interaction Streams

/-- What a thread knows between its calls. -/
def Rests {ι ρ : Type} (p : Party ι) (s : LoggerState ι ρ) : Prop :=
  match p with
  | .logger => ∃ c : Courier ρ, c.Ready ∧ s.Free 0 c
  | .producer i => s.mutex ≠ some (.producer i)
  | .owner => True

theorem Rests.rely {ι ρ : Type} {p : Party ι} {s s' : LoggerState ι ρ} (h : Rests p s) (hrely : LoggerRely p s s') :
    Rests p s' := by
  cases p with
  | logger =>
    obtain ⟨c, hc, hfree⟩ := h
    exact ⟨c, hc, hfree.rely hrely⟩
  | producer i => exact hrely.waits h
  | owner => trivial

variable {ι ρ : Type} [DecidableEq ι] [DecidableEq ρ] {cls : LoggerClass ρ} {isFaultless : Bool}
  {p : Party ι} {s : LoggerState ι ρ} {n : ℕ} {q : List (Option ρ)} {c : Courier ρ} {sock : ℤ}

open LoggerState

/-! ### Rounds -/

/-- After `BindParams` the record is out of hand, and without faults the gateway has it. -/
def Courier.Passed (isFaultless : Bool) (c : Courier ρ) : Prop :=
  c.inHand = none ∧ c.ended = false ∧
    (isFaultless = true → c.delivery.all Delivery.complete = true)

theorem transmit_cooperates {data : ρ} (hinHand : c.inHand = none) (hended : c.ended = false)
    (hdelivery : c.delivery = some { item := data }) (command : Except GatewayError (List Byte))
    (h : s.Free n c) :
    cls.Cooperates isFaultless (.logger : Party ι) (cls.transmit sock command)
      (fun _ s' => ∃ c', c'.Passed isFaultless ∧ s'.Free n c') s := by
  cases command with
  | error e =>
    intro s₁ _ _ r
    exact Empty.elim r
  | ok bytes =>
    refine (write_logger hended h).bind fun _ s₁ h₁ => ?_
    obtain ⟨c₁, ⟨written, rfl, hwritten⟩, h₁⟩ := h₁
    refine (log_cooperates h₁ fun _ _ => Free.rely).bind fun _ s₂ h₂ => ?_
    refine (read_logger (c := c.sent bytes written) hended h₂).bind fun _ s₃ h₃ => ?_
    obtain ⟨c₃, ⟨reply, rfl, hreply⟩, h₃⟩ := h₃
    have hpassed : ((c.sent bytes written).answered reply).Passed isFaultless := by
      refine ⟨hinHand, hended, fun hfaultless => ?_⟩
      have hwhole := (hwritten hfaultless).resolve_left (by simp [hdelivery])
      have hack := (hreply hfaultless).resolve_left (by simp [Courier.sent, hdelivery])
      simp [Courier.answered, Courier.sent, hdelivery, Delivery.complete, hwhole, hack]
    refine onlyIf_cooperates ?_ ⟨_, hpassed, h₃⟩
    exact (log_cooperates h₃ fun _ _ => Free.rely).mono fun _ _ h₄ => ⟨_, hpassed, h₄⟩

theorem passOn_cooperates {pData : Option ρ} (hc : c.Ready) (h : s.Free n (c.take pData)) :
    cls.Cooperates isFaultless (.logger : Party ι) (cls.passOn sock pData)
      (fun _ s' => ∃ c', c'.Ready ∧ s'.Free n c') s := by
  cases pData with
  | none => exact ⟨c.take none, ⟨rfl, hc.2⟩, h⟩
  | some data =>
    refine (log_cooperates h fun _ _ => Free.rely).bind fun _ s₁ h₁ => ?_
    refine (bindParams_logger (c := c.take (some data)) rfl hc.2.1 hc.2.2 h₁).bind fun _ s₂ h₂ => ?_
    obtain ⟨c₂, rfl, h₂⟩ := h₂
    refine Prog.Cooperates.bind (P := fun _ s' => ∃ c', c'.Passed isFaultless ∧ s'.Free n c') ?_
      fun _ s₃ h₃ => ?_
    · refine (onlyIf_cooperates (log_cooperates h₂ fun _ _ => Free.rely) h₂).bind fun _ s₃ h₃ => ?_
      exact (transmit_cooperates (c := (c.take (some data)).bind data) rfl hc.2.2 rfl _ h₃).bind fun _ _ h₄ => h₄
    · obtain ⟨c₃, hpassed, h₃⟩ := h₃
      exact delete_logger hpassed.1 hpassed.2.1 hpassed.2.2 h₃

/-- The queue never holds fewer pointers than the round has still to send. -/
theorem sendItems_cooperates (hc : c.Ready) (h : s.Free n c) :
    cls.Cooperates isFaultless (.logger : Party ι) (cls.sendItems sock n)
      (fun _ s' => ∃ c', c'.Ready ∧ s'.Free 0 c') s := by
  induction n generalizing c s with
  | zero => exact ⟨c, hc, h⟩
  | succ n ih =>
    refine (log_cooperates h fun _ _ => Free.rely).bind fun _ s₁ h₁ => ?_
    refine (lock_logger h₁).bind fun _ s₂ h₂ => ?_
    obtain ⟨q, hlength, h₂⟩ := h₂
    cases q with
    | nil => cases hlength
    | cons pData rest =>
      refine (empty_logger h₂ fun _ => List.cons_ne_nil pData rest).bind fun isEmpty s₃ h₃ => ?_
      obtain ⟨rfl, h₃⟩ := h₃
      refine (front_logger h₃).bind fun _ s₄ h₄ => ?_
      obtain ⟨rfl, h₄⟩ := h₄
      refine (pop_logger hc h₄).bind fun _ s₅ h₅ => ?_
      refine (unlock_logger (Nat.le_of_succ_le_succ hlength) h₅).bind fun _ s₆ h₆ => ?_
      refine (passOn_cooperates hc h₆).bind fun _ s₇ h₇ => ?_
      obtain ⟨c', hc', h₇⟩ := h₇
      exact ih hc' h₇

theorem toInt32_toNat_le (size : ℕ) : (toInt32 size).toNat ≤ size := by
  have hbmod : ∀ m : ℕ, (size : ℤ).bmod m ≤ size := by
    intro m
    have hemod : (size : ℤ) % m ≤ size := by exact_mod_cast Nat.mod_le size m
    rw [Int.bmod]
    split <;> omega
  exact Int.toNat_le.mpr (hbmod (2 ^ 32))

theorem waitForData_cooperates {tm : ℤ} {waits : ℕ} (h : s.Locked q c) :
    cls.Cooperates isFaultless (.logger : Party ι) (waitForData tm waits)
      (fun _ s' => ∃ q', s'.Locked q' c) s := by
  refine Prog.Cooperates.loop (J := fun _ s' => ∃ q', s'.Locked q' c) (fun rc s₁ h₁ => ?_) waits ⟨q, h⟩
  obtain ⟨q₁, h₁⟩ := h₁
  have hwaiting : EmptyTest.waiting = .sending → q₁ ≠ [] := nofun
  refine (empty_logger h₁ hwaiting).bind fun isEmpty s₂ h₂ => ?_
  refine Prog.Cooperates.ite (fun _ => ?_) fun _ => ?_
  · refine (wait_logger h₂.2).bind fun _ s₃ h₃ => ?_
    refine (wake_logger h₃).bind fun rc' s₄ h₄ => ?_
    exact ⟨fun _ _ => h₄, nofun⟩
  · exact ⟨nofun, fun _ _ => ⟨q₁, h₂.2⟩⟩

theorem round_cooperates {waits : ℕ} (hc : c.Ready) (h : s.Free 0 c) :
    cls.Cooperates isFaultless (.logger : Party ι) (cls.round waits)
      (fun _ s' => ∃ c', c'.Ready ∧ s'.Free 0 c') s := by
  refine (lock_logger h).bind fun _ s₁ h₁ => ?_
  obtain ⟨q₁, -, h₁⟩ := h₁
  refine (clockGettime_logger h₁).bind fun now s₂ h₂ => ?_
  refine (log_cooperates h₂ fun _ _ => Locked.rely).bind fun _ s₃ h₃ => ?_
  refine (waitForData_cooperates h₃).bind fun rc s₄ h₄ => ?_
  obtain ⟨q, h₄⟩ := h₄
  refine (size_logger h₄).bind fun size s₅ h₅ => ?_
  obtain ⟨rfl, h₅⟩ := h₅
  have hsize := toInt32_toNat_le q.length
  generalize toInt32 q.length = transactionSize at hsize ⊢
  refine (log_cooperates h₅ fun _ _ => Locked.rely).bind fun _ s₆ h₆ => ?_
  refine (unlock_logger hsize h₆).bind fun _ s₇ h₇ => ?_
  refine Prog.Cooperates.ite (fun _ => ?_) fun _ => ?_
  · refine (log_cooperates h₇ fun _ _ => Free.rely).mono fun _ s₈ h₈ => ?_
    exact ⟨c, hc, h₈.1, Nat.zero_le _, h₈.2.2⟩
  · refine (socket_logger hc h₇).bind fun sock s₈ h₈ => ?_
    obtain ⟨c₈, hc₈, h₈⟩ := h₈
    refine (log_cooperates h₈ fun _ _ => Free.rely).bind fun _ s₉ h₉ => ?_
    refine (log_cooperates h₉ fun _ _ => Free.rely).bind fun _ s₁₀ h₁₀ => ?_
    refine (connect_logger hc₈ h₁₀).bind fun _ s₁₁ h₁₁ => ?_
    obtain ⟨c₁₁, hc₁₁, h₁₁⟩ := h₁₁
    refine (log_cooperates h₁₁ fun _ _ => Free.rely).bind fun _ s₁₂ h₁₂ => ?_
    refine (log_cooperates h₁₂ fun _ _ => Free.rely).bind fun _ s₁₃ h₁₃ => ?_
    refine (sendItems_cooperates hc₁₁ h₁₃).bind fun _ s₁₄ h₁₄ => ?_
    obtain ⟨c₁₄, hc₁₄, h₁₄⟩ := h₁₄
    refine (log_cooperates h₁₄ fun _ _ => Free.rely).bind fun _ s₁₅ h₁₅ => ?_
    refine (write_logger hc₁₄.2.2 h₁₅).bind fun _ s₁₆ h₁₆ => ?_
    obtain ⟨c₁₆, ⟨written, rfl, -⟩, h₁₆⟩ := h₁₆
    have hsent : (c₁₄.sent eot.bulk written).Ready :=
      ⟨hc₁₄.1, by simp [Courier.sent, hc₁₄.2.1], hc₁₄.2.2⟩
    exact (close_logger hsent h₁₆).bind fun _ _ h₁₇ => h₁₇

/-! ### The other threads -/

theorem log_other {A : LoggerState ι ρ → Prop} (hp : p ≠ .logger) (hA : A s)
    (hrely : ∀ s s', A s → LoggerRely p s s' → A s') :
    cls.Cooperates isFaultless p log (fun _ => A) s := by
  refine orStop_cooperates (perform_cooperates hA hrely fun s₁ r s₂ h₁ hinv _ ha => ?_)
  have hs₂ : s₂ = s₁ := by
    cases r with
    | none =>
      have hstopped : s₁.stopped p = some s₂ := ha
      rw [stopped, if_neg hp] at hstopped
      exact (Option.some.inj hstopped).symm
    | some u => exact (Option.some.inj ha).symm
  rw [hs₂]
  exact ⟨loggerContract_grants hinv (.inl ⟨rfl, rfl⟩) (fun _ => ⟨rfl, [], by simp⟩) id, fun _ _ => h₁⟩

/-- An operation of another thread that the shared state does not show. -/
theorem perform_other {o : LoggerOp ρ} {A : LoggerState ι ρ → Prop} (hA : A s)
    (hrely : ∀ s s', A s → LoggerRely p s s' → A s')
    (hnext : ∀ (s₁ : LoggerState ι ρ) r s₂, A s₁ → LoggerInv isFaultless s₁ →
      loggerNext p o s₁ r = some s₂ → LoggerInv isFaultless s₂ ∧ A s₂ ∧ s₂.mutex = s₁.mutex ∧
        s₂.queue = s₁.queue ∧ s₂.courier = s₁.courier) :
    cls.Cooperates isFaultless p o.perform (fun _ => A) s := by
  refine perform_cooperates hA hrely fun s₁ r s₂ h₁ hinv _ ha => ?_
  obtain ⟨hinv', hA', hmutex, hqueue, hcourier⟩ := hnext s₁ r s₂ h₁ hinv ha
  refine ⟨loggerContract_grants hinv' (.inl ⟨hmutex, hqueue⟩) (fun _ => ⟨hcourier, [], ?_⟩) ?_, hA'⟩
  · rw [hqueue, List.append_nil]
  · rw [hcourier]
    exact id

theorem lock_other (h : s.mutex ≠ some p) :
    cls.Cooperates isFaultless p LoggerOp.lock.perform (fun _ s' => s'.mutex = some p) s := by
  refine perform_cooperates h (fun _ _ h hrely => hrely.waits h) fun s₁ r s₂ h₁ hinv _ ha => ?_
  obtain ⟨m, hlock, rfl⟩ := Option.map_eq_some_iff.mp ha
  obtain ⟨hnone, rfl⟩ := Mutex.lock_eq_some hlock
  exact ⟨grants_lock hinv hnone, rfl⟩

theorem push_other {event : Option ρ} (h : s.mutex = some p) :
    cls.Cooperates isFaultless p (LoggerOp.push event).perform (fun _ s' => s'.mutex = some p) s := by
  refine perform_cooperates h (fun _ _ h hrely => (hrely.holds h).1) fun s₁ r s₂ h₁ hinv hmay ha => ?_
  cases ha
  have hended : isFaultless = true → s₁.courier.ended = false := fun hfaultless => by
    simpa [faultless] using hmay hfaultless
  have hother : ∀ q, q ≠ p → s₁.mutex ≠ some q := fun q => Mutex.ne_of_holder h₁
  exact ⟨loggerContract_grants (hinv.push hended) (.inr fun q hq => ⟨hother q hq, hother q hq⟩)
    (fun _ => ⟨rfl, [event], rfl⟩) id, h₁⟩

theorem unlock_other (h : s.mutex = some p) :
    cls.Cooperates isFaultless p LoggerOp.unlock.perform (fun _ s' => s'.mutex ≠ some p) s := by
  refine perform_cooperates h (fun _ _ h hrely => (hrely.holds h).1) fun s₁ r s₂ h₁ hinv _ ha => ?_
  cases ha
  exact ⟨grants_unlock hinv h₁, Mutex.ne_of_unlock h₁ p⟩

theorem enqueData_cooperates {event : Option ρ} {signal : Bool} (hp : p ≠ .logger)
    (h : s.mutex ≠ some p) :
    cls.Cooperates isFaultless p (enqueData event signal) (fun _ s' => s'.mutex ≠ some p) s := by
  refine (log_other hp h fun _ _ h hrely => hrely.waits h).bind fun _ s₁ h₁ => ?_
  refine (lock_other h₁).bind fun _ s₂ h₂ => ?_
  refine (push_other h₂).bind fun _ s₃ h₃ => ?_
  refine (unlock_other h₃).bind fun _ s₄ h₄ => ?_
  refine (onlyIf_cooperates (perform_other h₄ (fun _ _ h hrely => hrely.waits h)
    fun s₅ r s₆ h₅ hinv ha => ?_) h₄).bind fun _ _ h₇ => h₇
  cases ha
  exact ⟨hinv, h₅, rfl, rfl, rfl⟩

theorem destroy_cooperates :
    cls.Cooperates isFaultless (.owner : Party ι) destroy (fun _ _ => True) s := by
  refine (log_other (p := .owner) (A := fun _ => True) nofun trivial fun _ _ _ _ => trivial).bind fun _ s₁ _ => ?_
  refine (perform_other (A := fun _ => True) trivial (fun _ _ _ _ => trivial)
    fun s r s' _ hinv ha => ?_).bind fun _ s₂ _ => ?_
  · cases ha
    exact ⟨hinv.congr rfl rfl rfl rfl, trivial, rfl, rfl, rfl⟩
  have hended : ∀ s s' : LoggerState ι ρ, s.courier.ended = true → LoggerRely .owner s s' →
      s'.courier.ended = true := fun _ _ h hrely => hrely.ended h
  refine Prog.Cooperates.bind (P := fun _ s' => s'.courier.ended = true) ?_ fun _ s₃ h₃ => ?_
  · refine perform_cooperates (A := fun _ => True) trivial (fun _ _ _ _ => trivial)
      fun s r s' _ hinv _ ha => ?_
    obtain ⟨hjoin, hs'⟩ := Option.ite_none_right_eq_some.mp ha
    cases hs'
    exact ⟨loggerContract_grants hinv (.inl ⟨rfl, rfl⟩) (fun _ => ⟨rfl, [], by simp⟩) id, hjoin⟩
  refine (perform_other h₃ hended fun s r s' h hinv ha => ?_).bind fun _ s₄ h₄ => ?_
  · cases ha
    exact ⟨hinv, h, rfl, rfl, rfl⟩
  refine (perform_other h₄ hended fun s r s' h hinv ha => ?_).bind fun _ s₅ h₅ => ?_
  · cases ha
    exact ⟨hinv, h, rfl, rfl, rfl⟩
  refine (perform_other h₅ hended fun s r s' h hinv ha => ?_).bind fun _ _ _ => trivial
  obtain ⟨rfl, hs'⟩ := Option.ite_none_right_eq_some.mp ha
  cases hs'
  have hasserted : isFaultless = true → s.queue.isEmpty = true := fun hfaultless => by
    have hsettled := (hinv.intact hfaultless).ended h
    rw [settled, Bool.and_eq_true, Bool.and_eq_true] at hsettled
    exact hsettled.1.1
  refine ⟨⟨hinv.handoff, hinv.bound, hinv.unbroken, fun hfaultless => ?_⟩, h, rfl, rfl, rfl⟩
  have hintact := hinv.intact hfaultless
  exact ⟨hintact.deleted, hintact.ended, by simp [hintact.asserted, hasserted hfaultless]⟩

/-! ### Runs -/

theorem code_cooperates {call : LoggerCall ρ} {prog : LoggerProg ρ Unit} (h : Rests p s)
    (hcode : cls.code p call = some prog) :
    cls.Cooperates isFaultless p prog (fun _ => Rests p) s := by
  cases p with
  | logger =>
    cases call with
    | round waits =>
      cases hcode
      obtain ⟨c, hc, hfree⟩ := h
      exact round_cooperates hc hfree
    | enqueData | destroy => cases hcode
  | producer i =>
    cases call with
    | enqueData event signal =>
      cases hcode
      exact (enqueData_cooperates (p := .producer i) nofun h).bind fun _ _ h' => h'
    | round | destroy => cases hcode
  | owner =>
    cases call with
    | destroy =>
      cases hcode
      exact destroy_cooperates
    | round | enqueData => cases hcode

theorem logger_cooperates {pool : LoggerPool ι ρ}
    (h : (cls.threads (answersOf isFaultless)).Reaches LoggerPool.created pool) :
    pool.Cooperates (cls.threads (answersOf isFaultless)) (loggerContract isFaultless)
      fun p _ => Rests p := by
  have hcreated : (LoggerPool.created : LoggerPool ι ρ).Cooperates
      (cls.threads (answersOf isFaultless)) (loggerContract isFaultless) fun p _ => Rests p := by
    refine ⟨⟨rfl, rfl, rfl, fun _ => ⟨nofun, nofun, rfl⟩⟩, fun p => ⟨_, .refl, ?_⟩⟩
    cases p with
    | logger => exact ⟨{}, ⟨rfl, rfl, rfl⟩, nofun, Nat.zero_le _, rfl⟩
    | producer i => exact nofun
    | owner => trivial
  refine hcreated.reaches (fun _ _ _ _ hrest hrely => hrest.rely hrely)
    (fun p _ call s prog s' hrest hinv hstart => ?_) h
  obtain ⟨prog', hcode, heq⟩ := Option.map_eq_some_iff.mp hstart
  cases heq
  exact ⟨loggerContract_grants hinv (.inl ⟨rfl, rfl⟩) (fun _ => ⟨rfl, [], by simp⟩) id,
    code_cooperates hrest hcode⟩

/-- Between the rounds the mutex is not the logger's, and within them the records that were passed to
`BindParams`, the one in hand and those in the queue are those that were enqueued. -/
theorem logger_handoff (cls : LoggerClass ρ) {pool : LoggerPool ι ρ}
    (h : (cls.threads fun _ _ _ _ => true).Reaches LoggerPool.created pool) :
    pool.state.courier.bound ++ pool.state.courier.inHand.toList ++ pool.state.queue.reduceOption =
        pool.state.enqueued.reduceOption ∧
      pool.state.courier.brokeOff = false ∧
      (pool.left .logger = .ret () → pool.state.mutex ≠ some .logger) := by
  have hcooperates : pool.Cooperates (cls.threads (answersOf false)) (loggerContract false)
      fun p _ => Rests p := logger_cooperates h
  refine ⟨hcooperates.1.handoff, hcooperates.1.unbroken, fun hleft => ?_⟩
  have hrests := hcooperates.rests (fun _ _ _ _ hrest hrely => Rests.rely hrest hrely) hleft
  obtain ⟨c, -, hfree⟩ := hrests
  exact hfree.1

def sampleTime (_ : ℤ) : List Byte := ascii "2013-04-24 10:00:00"

/-- The logger waits and wakes up with nothing in the queue, a record is enqueued, and a null pointer
while the record is on its way to the gateway. -/
def handoffScript : List (PoolTurn (Party Bool) (LoggerCall DBEventCommon) (LoggerOp DBEventCommon)
    LoggerRes) :=
  [.start .logger (.round 3), .answer .logger ⟨.lock, ()⟩, .answer .logger ⟨.clockGettime, 100⟩,
    .answer .logger ⟨.log, some ()⟩, .answer .logger ⟨.empty .waiting, true⟩,
    .answer .logger ⟨.wait 105, ()⟩, .answer .logger ⟨.wake, some 0⟩,
    .answer .logger ⟨.empty .waiting, true⟩, .answer .logger ⟨.wait 105, ()⟩,
    .start (.producer true) (.enqueData (some {}) true), .answer (.producer true) ⟨.log, some ()⟩,
    .answer (.producer true) ⟨.lock, ()⟩, .answer (.producer true) ⟨.push (some {}), ()⟩,
    .answer (.producer true) ⟨.unlock, ()⟩, .answer (.producer true) ⟨.signal, ()⟩,
    .answer .logger ⟨.wake, some 0⟩, .answer .logger ⟨.empty .waiting, false⟩,
    .answer .logger ⟨.size, 1⟩, .answer .logger ⟨.log, some ()⟩, .answer .logger ⟨.unlock, ()⟩,
    .answer .logger ⟨.socket, 5⟩, .answer .logger ⟨.log, some ()⟩, .answer .logger ⟨.log, some ()⟩,
    .answer .logger ⟨.connect 5, some 0⟩, .answer .logger ⟨.log, some ()⟩,
    .answer .logger ⟨.log, some ()⟩, .answer .logger ⟨.log, some ()⟩, .answer .logger ⟨.lock, ()⟩,
    .answer .logger ⟨.empty .sending, false⟩, .answer .logger ⟨.front, some {}⟩,
    .start (.producer false) (.enqueData none false), .answer (.producer false) ⟨.log, some ()⟩,
    .answer .logger ⟨.pop, ()⟩, .answer .logger ⟨.unlock, ()⟩,
    .answer (.producer false) ⟨.lock, ()⟩, .answer (.producer false) ⟨.push none, ()⟩,
    .answer (.producer false) ⟨.unlock, ()⟩, .answer .logger ⟨.log, some ()⟩,
    .answer .logger ⟨.bindParams {}, ()⟩]

theorem logger_handoff_pushed : ∃ pool : LoggerPool Bool DBEventCommon,
    ((eventLoggerThread sampleTime).threads fun _ _ _ _ => true).Reaches LoggerPool.created pool ∧
      pool.state.queue = [none] ∧
      pool.state.courier.bound ++ pool.state.courier.inHand.toList ++
        pool.state.queue.reduceOption = [{}] := by
  obtain ⟨pool, hreaches, htest⟩ := Threads.exists_reaches_of_replay
    ((eventLoggerThread sampleTime).threads fun _ _ _ _ => true) handoffScript LoggerPool.created
    (fun pool : LoggerPool Bool DBEventCommon =>
      decide (pool.state.queue = [none] ∧ pool.state.enqueued = [some {}, none])) (by decide +kernel)
  obtain ⟨hqueue, henqueued⟩ := of_decide_eq_true htest
  have hhandoff := (logger_handoff (eventLoggerThread sampleTime) hreaches).1
  rw [henqueued] at hhandoff
  exact ⟨pool, hreaches, hqueue, hhandoff⟩

end Ritex.Gateway
