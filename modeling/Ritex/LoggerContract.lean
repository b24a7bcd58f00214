import Ritex.LoggerThread

/-! What the threads of a logger keep and may rely on, with and without faults. -/
namespace Ritex.Gateway
open Interaction Streams

section
variable {ι ρ : Type}

def Delivery.complete (d : Delivery ρ) : Bool := d.received && d.acknowledged

/-- Nothing is left in the queue or on its way. -/
def LoggerState.settled (s : LoggerState ι ρ) : Bool :=
  s.queue.isEmpty && s.courier.inHand.isNone && s.courier.delivery.all Delivery.complete

variable [DecidableEq ι]

def mayStop (p : Party ι) (s : LoggerState ι ρ) : Bool := p ≠ .logger || s.settled

/-- The gateway takes every command as a whole and acknowledges it, the logger is cancelled with
nothing left, and nothing is enqueued after that. -/
def faultless (p : Party ι) : (o : LoggerOp ρ) → LoggerState ι ρ → LoggerRes o → Bool
  | .log, s, (r : Option Unit) => r.isSome || mayStop p s
  | .wake, s, (r : Option ℤ) => r.isSome || mayStop p s
  | .connect _, s, (r : Option ℤ) => r.isSome || mayStop p s
  | .close _, s, (r : Option ℤ) => r.isSome || mayStop p s
  | .write _ data, s, (r : Option ℤ) =>
    match r with
    | some written =>
      s.courier.delivery.isNone || s.courier.connected && decide (written = data.length)
    | none => mayStop p s
  | .read _, s, (r : Option (Option (List Byte))) =>
    match r with
    | some reply => s.courier.delivery.isNone || acknowledges reply
    | none => mayStop p s
  | .push _, s, _ => !s.courier.ended
  | _, _, _ => true

def answersOf (isFaultless : Bool) (p : Party ι) (o : LoggerOp ρ) (s : LoggerState ι ρ)
    (r : LoggerRes o) : Bool :=
  !isFaultless || faultless p o s r

end

section
variable {ι ρ : Type}

structure LoggerState.Intact (s : LoggerState ι ρ) : Prop where
  deleted : ∀ d ∈ s.courier.deleted, d.complete = true
  ended : s.courier.ended = true → s.settled = true
  asserted : s.assertFailed = false

/-- While the thread has not ended, nothing has to be settled. -/
theorem LoggerState.Intact.of_running {s s' : LoggerState ι ρ} (h : s.Intact)
    (hdeleted : s'.courier.deleted = s.courier.deleted) (hended : s'.courier.ended = false)
    (hasserted : s'.assertFailed = s.assertFailed) : s'.Intact where
  deleted := by
    rw [hdeleted]
    exact h.deleted
  ended hc := by
    rw [hended] at hc
    cases hc
  asserted := by
    rw [hasserted]
    exact h.asserted

structure LoggerInv (isFaultless : Bool) (s : LoggerState ι ρ) : Prop where
  handoff : s.courier.bound ++ s.courier.inHand.toList ++ s.queue.reduceOption =
    s.enqueued.reduceOption
  bound : s.courier.bound =
    s.courier.deleted.map Delivery.item ++ (s.courier.delivery.map Delivery.item).toList
  unbroken : s.courier.brokeOff = false
  intact : isFaultless = true → s.Intact

/-- What a thread relies on: nobody touches the queue while it holds the mutex, and the logger
is alone in taking from it. -/
structure LoggerRely (p : Party ι) (s s' : LoggerState ι ρ) : Prop where
  holds : s.mutex = some p → s'.mutex = some p ∧ s'.queue = s.queue
  waits : s.mutex ≠ some p → s'.mutex ≠ some p
  grows : p = .logger → ∃ more, s'.queue = s.queue ++ more
  courier : p = .logger → s'.courier = s.courier
  ended : s.courier.ended = true → s'.courier.ended = true

def loggerContract (isFaultless : Bool) : Contract (Party ι) (LoggerState ι ρ) where
  inv := LoggerInv isFaultless
  rely := LoggerRely

variable {isFaultless : Bool} {p : Party ι} {s s' : LoggerState ι ρ}

/-- A step that leaves the mutex and the queue alone, or is made by the thread with the mutex. -/
theorem loggerContract_grants (hinv : LoggerInv isFaultless s')
    (hmutex : s'.mutex = s.mutex ∧ s'.queue = s.queue ∨
      ∀ q, q ≠ p → s.mutex ≠ some q ∧ s'.mutex ≠ some q)
    (hqueue : p ≠ .logger → s'.courier = s.courier ∧ ∃ more, s'.queue = s.queue ++ more)
    (hended : s.courier.ended = true → s'.courier.ended = true) :
    (loggerContract isFaultless).Grants p s s' := by
  refine ⟨hinv, fun q hq => ⟨fun hholds => ?_, fun hwaits => ?_, fun hlogger => ?_,
    fun hlogger => ?_, hended⟩⟩
  · rcases hmutex with ⟨hsame, hqueue'⟩ | hother
    · exact ⟨hsame.trans hholds, hqueue'⟩
    · exact absurd hholds (hother q hq).1
  · rcases hmutex with ⟨hsame, -⟩ | hother
    · rwa [hsame]
    · exact (hother q hq).2
  · exact (hqueue fun hp => hq (hlogger.trans hp.symm)).2
  · exact (hqueue fun hp => hq (hlogger.trans hp.symm)).1

theorem grants_courier {c : Courier ρ} (hinv : LoggerInv isFaultless { s with courier := c })
    (hended : s.courier.ended = true → c.ended = true) :
    (loggerContract isFaultless).Grants .logger s { s with courier := c } :=
  loggerContract_grants hinv (.inl ⟨rfl, rfl⟩) (fun hp => absurd rfl hp) hended

namespace LoggerInv

theorem congr (h : LoggerInv isFaultless s) (hqueue : s'.queue = s.queue)
    (hcourier : s'.courier = s.courier) (henqueued : s'.enqueued = s.enqueued)
    (hassert : s'.assertFailed = s.assertFailed) : LoggerInv isFaultless s' where
  handoff := by rw [hqueue, hcourier, henqueued, h.handoff]
  bound := by rw [hcourier, h.bound]
  unbroken := by rw [hcourier, h.unbroken]
  intact hfaultless := by
    have hintact := h.intact hfaultless
    refine ⟨?_, ?_, ?_⟩
    · rw [hcourier]
      exact hintact.deleted
    · rw [LoggerState.settled, hqueue, hcourier]
      exact hintact.ended
    · rw [hassert]
      exact hintact.asserted

theorem courier {c : Courier ρ} (h : LoggerInv isFaultless s) (hinHand : c.inHand = s.courier.inHand)
    (hbound : c.bound = s.courier.bound) (hdeleted : c.deleted = s.courier.deleted)
    (hdelivery : c.delivery.map Delivery.item = s.courier.delivery.map Delivery.item)
    (hbroke : c.brokeOff = s.courier.brokeOff) (hended : c.ended = false) :
    LoggerInv isFaultless { s with courier := c } where
  handoff := by
    rw [hinHand, hbound]
    exact h.handoff
  bound := by
    rw [hbound, hdeleted, hdelivery]
    exact h.bound
  unbroken := hbroke.trans h.unbroken
  intact hfaultless := (h.intact hfaultless).of_running hdeleted hended rfl

theorem connected (h : LoggerInv isFaultless s) (hended : s.courier.ended = false) (connected : Bool) :
    LoggerInv isFaultless { s with courier := { s.courier with connected := connected } } :=
  h.courier rfl rfl rfl rfl rfl hended

theorem pop {pData : Option ρ} {rest : List (Option ρ)} (h : LoggerInv isFaultless s)
    (hqueue : s.queue = pData :: rest) (hinHand : s.courier.inHand = none)
    (hended : s.courier.ended = false) :
    LoggerInv isFaultless { s with queue := rest, courier := s.courier.take pData } where
  handoff := by
    have hhandoff := h.handoff
    rw [hqueue, hinHand] at hhandoff
    cases pData with
    | none => simpa [Courier.take] using hhandoff
    | some data => simpa [Courier.take] using hhandoff
  bound := h.bound
  unbroken := h.unbroken
  intact hfaultless := (h.intact hfaultless).of_running rfl hended rfl

theorem bind {data : ρ} (h : LoggerInv isFaultless s) (hinHand : s.courier.inHand = some data)
    (hdelivery : s.courier.delivery = none) (hended : s.courier.ended = false) :
    LoggerInv isFaultless { s with courier := s.courier.bind data } where
  handoff := by
    have hhandoff := h.handoff
    rw [hinHand] at hhandoff
    simpa [Courier.bind] using hhandoff
  bound := by
    have hbound := h.bound
    rw [hdelivery] at hbound
    simpa [Courier.bind] using hbound
  unbroken := h.unbroken
  intact hfaultless := (h.intact hfaultless).of_running rfl hended rfl

theorem delete (h : LoggerInv isFaultless s)
    (hcomplete : isFaultless = true → s.courier.delivery.all Delivery.complete = true)
    (hended : s.courier.ended = false) :
    LoggerInv isFaultless { s with courier := s.courier.delete } where
  handoff := h.handoff
  bound := by
    have hbound := h.bound
    cases hdelivery : s.courier.delivery with
    | none => simpa [Courier.delete, hdelivery] using hbound
    | some d => simpa [Courier.delete, hdelivery] using hbound
  unbroken := h.unbroken
  intact hfaultless := by
    have hintact := h.intact hfaultless
    refine ⟨fun d hd => ?_, fun hc => ?_, hintact.asserted⟩
    · rcases List.mem_append.mp hd with hd | hd
      · exact hintact.deleted d hd
      · have hdelivery := hcomplete hfaultless
        rw [Option.mem_toList.mp hd] at hdelivery
        exact hdelivery
    · rw [Courier.delete, hended] at hc
      cases hc

theorem stop (h : LoggerInv isFaultless s) (hsettled : isFaultless = true → s.settled = true) :
    LoggerInv isFaultless { s with courier := s.courier.stop } where
  handoff := h.handoff
  bound := h.bound
  unbroken := h.unbroken
  intact hfaultless :=
    ⟨(h.intact hfaultless).deleted, fun _ => hsettled hfaultless, (h.intact hfaultless).asserted⟩

theorem push {event : Option ρ} (h : LoggerInv isFaultless s)
    (hended : isFaultless = true → s.courier.ended = false) :
    LoggerInv isFaultless
      { s with queue := s.queue ++ [event], enqueued := s.enqueued ++ [event] } where
  handoff := by
    change s.courier.bound ++ s.courier.inHand.toList ++ (s.queue ++ [event]).reduceOption =
      (s.enqueued ++ [event]).reduceOption
    rw [List.reduceOption_append, List.reduceOption_append, ← h.handoff]
    simp only [List.append_assoc]
  bound := h.bound
  unbroken := h.unbroken
  intact hfaultless := (h.intact hfaultless).of_running rfl (hended hfaultless) rfl

end LoggerInv

end

theorem grants_stopped {ι ρ : Type} [DecidableEq ι] {isFaultless : Bool} {s s' : LoggerState ι ρ}
    (hinv : LoggerInv isFaultless s)
    (hmay : isFaultless = true → mayStop (.logger : Party ι) s = true)
    (h : s.stopped .logger = some s') : (loggerContract isFaultless).Grants .logger s s' := by
  have hsettled : isFaultless = true → s.settled = true := fun hfaultless => by
    simpa [mayStop] using hmay hfaultless
  rw [LoggerState.stopped, if_pos rfl] at h
  obtain ⟨-, hs'⟩ := Option.ite_none_right_eq_some.mp h
  cases hs'
  exact grants_courier (hinv.stop hsettled) fun _ => rfl

theorem stopped_courier {ι ρ α : Type} [DecidableEq ι] {isFaultless : Bool}
    {s s' : LoggerState ι ρ} {B : α → Courier ρ → Prop} (hinv : LoggerInv isFaultless s)
    (hmay : isFaultless = true → mayStop (.logger : Party ι) s = true)
    (h : s.stopped .logger = some s') : ∃ c', s' = { s with courier := c' } ∧
      LoggerInv isFaultless s' ∧ (s.courier.ended = true → c'.ended = true) ∧
      ∀ a, none = some a → B a c' := by
  have hgrants := grants_stopped hinv hmay h
  rw [LoggerState.stopped, if_pos rfl] at h
  obtain ⟨-, hs'⟩ := Option.ite_none_right_eq_some.mp h
  cases hs'
  exact ⟨s.courier.stop, rfl, hgrants.1, fun _ => rfl, by simp⟩

theorem grants_lock {ι ρ : Type} [DecidableEq ι] {isFaultless : Bool} {p : Party ι}
    {s : LoggerState ι ρ} (hinv : LoggerInv isFaultless s) (hmutex : s.mutex = none) :
    (loggerContract isFaultless).Grants p s { s with mutex := some p } := by
  have hinv' : LoggerInv isFaultless { s with mutex := some p } := hinv.congr rfl rfl rfl rfl
  refine loggerContract_grants hinv' (.inr fun q hq => ⟨?_, ?_⟩) (fun _ => ⟨rfl, [], by simp⟩) id
  · simp [hmutex]
  · exact Mutex.ne_of_holder rfl hq

theorem grants_unlock {ι ρ : Type} [DecidableEq ι] {isFaultless : Bool} {p : Party ι}
    {s : LoggerState ι ρ} (hinv : LoggerInv isFaultless s) (hmutex : s.mutex = some p) :
    (loggerContract isFaultless).Grants p s { s with mutex := s.mutex.unlock p } := by
  have hinv' : LoggerInv isFaultless { s with mutex := s.mutex.unlock p } :=
    hinv.congr rfl rfl rfl rfl
  refine loggerContract_grants hinv' (.inr fun q hq => ⟨?_, ?_⟩) (fun _ => ⟨rfl, [], by simp⟩) id
  · exact Mutex.ne_of_holder hmutex hq
  · exact Mutex.ne_of_unlock hmutex q

/-! ### What the logger's thread knows -/

section
variable {ι ρ : Type} {n : ℕ} {q : List (Option ρ)} {c : Courier ρ} {s s' : LoggerState ι ρ}

def LoggerState.Locked (q : List (Option ρ)) (c : Courier ρ) (s : LoggerState ι ρ) : Prop :=
  s.mutex = some .logger ∧ s.queue = q ∧ s.courier = c

/-- The logger does not hold the mutex, and there are as many pointers as it counts on. -/
def LoggerState.Free (n : ℕ) (c : Courier ρ) (s : LoggerState ι ρ) : Prop :=
  s.mutex ≠ some .logger ∧ n ≤ s.queue.length ∧ s.courier = c

def Courier.Ready (c : Courier ρ) : Prop :=
  c.inHand = none ∧ c.delivery = none ∧ c.ended = false

theorem LoggerState.Locked.rely (h : s.Locked q c) (hrely : LoggerRely .logger s s') :
    s'.Locked q c := by
  obtain ⟨hmutex, hqueue⟩ := hrely.holds h.1
  exact ⟨hmutex, hqueue.trans h.2.1, (hrely.courier rfl).trans h.2.2⟩

theorem LoggerState.Free.rely (h : s.Free n c) (hrely : LoggerRely .logger s s') : s'.Free n c := by
  obtain ⟨more, hqueue⟩ := hrely.grows rfl
  refine ⟨hrely.waits h.1, ?_, (hrely.courier rfl).trans h.2.2⟩
  rw [hqueue, List.length_append]
  exact h.2.1.trans (Nat.le_add_right _ _)

end

end Ritex.Gateway
