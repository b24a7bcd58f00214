import Ritex.LoggerContract

/-! The operations of the logger's thread, each with what the thread knows before and after it. -/
namespace Ritex.Gateway
open Interaction Streams

section
variable {ι ρ α : Type} [DecidableEq ι] [DecidableEq ρ]

abbrev LoggerClass.Cooperates (cls : LoggerClass ρ) (isFaultless : Bool) (p : Party ι)
    (prog : LoggerProg ρ α) (Q : α → LoggerState ι ρ → Prop) (s : LoggerState ι ρ) : Prop :=
  prog.Cooperates (cls.threads (answersOf isFaultless)) (loggerContract isFaultless) p Q s

variable {cls : LoggerClass ρ} {isFaultless : Bool} {p : Party ι} {s : LoggerState ι ρ} {n : ℕ}
  {q : List (Option ρ)} {c : Courier ρ}

open LoggerState

theorem perform_cooperates {o : LoggerOp ρ} {A : LoggerState ι ρ → Prop}
    {B : LoggerRes o → LoggerState ι ρ → Prop} (hA : A s)
    (hrely : ∀ s s', A s → LoggerRely p s s' → A s')
    (hnext : ∀ s₁ r s₂, A s₁ → LoggerInv isFaultless s₁ →
      (isFaultless = true → faultless p o s₁ r = true) → loggerNext p o s₁ r = some s₂ →
      (loggerContract isFaultless).Grants p s₁ s₂ ∧ B r s₂) :
    cls.Cooperates isFaultless p o.perform B s := by
  refine Prog.cooperates_op hA hrely fun s₁ h₁ hinv r s₂ ha => ?_
  obtain ⟨hanswers, ha⟩ := Option.ite_none_right_eq_some.mp ha
  refine hnext s₁ r s₂ h₁ hinv (fun hfaultless => ?_) ha
  rw [answersOf, hfaultless] at hanswers
  exact hanswers

theorem orStop_cooperates {prog : LoggerProg ρ (Option α)} {Q : α → LoggerState ι ρ → Prop}
    (h : cls.Cooperates isFaultless p prog (fun r s' => ∀ a, r = some a → Q a s') s) :
    cls.Cooperates isFaultless p (orStop prog) Q s := by
  refine h.bind fun r s' hr => ?_
  cases r with
  | none => trivial
  | some a => exact hr a rfl

theorem onlyIf_cooperates {b : Bool} {prog : LoggerProg ρ Unit} {A : LoggerState ι ρ → Prop}
    (h : cls.Cooperates isFaultless p prog (fun _ => A) s) (hA : A s) :
    cls.Cooperates isFaultless p (onlyIf b prog) (fun _ => A) s :=
  Prog.Cooperates.ite (fun _ => h) fun _ => hA

theorem log_cooperates {A : LoggerState ι ρ → Prop} (hA : A s)
    (hrely : ∀ s s', A s → LoggerRely .logger s s' → A s') :
    cls.Cooperates isFaultless (.logger : Party ι) log (fun _ => A) s := by
  refine orStop_cooperates (perform_cooperates hA hrely fun s₁ r s₂ h₁ hinv hmay ha => ?_)
  cases r with
  | none => exact ⟨grants_stopped hinv hmay ha, by simp⟩
  | some u =>
    cases ha
    exact ⟨loggerContract_grants hinv (.inl ⟨rfl, rfl⟩) (fun hp => absurd rfl hp) id, fun _ _ => h₁⟩

theorem lock_logger (h : s.Free n c) :
    cls.Cooperates isFaultless (.logger : Party ι) LoggerOp.lock.perform
      (fun _ s' => ∃ q, n ≤ q.length ∧ s'.Locked q c) s := by
  refine perform_cooperates h (fun _ _ => Free.rely) fun s₁ r s₂ h₁ hinv _ ha => ?_
  obtain ⟨m, hlock, rfl⟩ := Option.map_eq_some_iff.mp ha
  obtain ⟨hnone, rfl⟩ := Mutex.lock_eq_some hlock
  exact ⟨grants_lock hinv hnone, s₁.queue, h₁.2.1, rfl, rfl, h₁.2.2⟩

theorem unlock_logger (hn : n ≤ q.length) (h : s.Locked q c) :
    cls.Cooperates isFaultless (.logger : Party ι) LoggerOp.unlock.perform
      (fun _ s' => s'.Free n c) s := by
  refine perform_cooperates h (fun _ _ => Locked.rely) fun s₁ r s₂ h₁ hinv _ ha => ?_
  cases ha
  exact ⟨grants_unlock hinv h₁.1, Mutex.ne_of_unlock h₁.1 _, h₁.2.1 ▸ hn, h₁.2.2⟩

theorem wait_logger {tm : ℤ} (h : s.Locked q c) :
    cls.Cooperates isFaultless (.logger : Party ι) (LoggerOp.wait tm).perform
      (fun _ s' => s'.Free 0 c) s := by
  refine perform_cooperates h (fun _ _ => Locked.rely) fun s₁ r s₂ h₁ hinv _ ha => ?_
  cases ha
  exact ⟨grants_unlock hinv h₁.1, Mutex.ne_of_unlock h₁.1 _, Nat.zero_le _, h₁.2.2⟩

theorem wake_logger (h : s.Free n c) :
    cls.Cooperates isFaultless (.logger : Party ι) (orStop LoggerOp.wake.perform)
      (fun _ s' => ∃ q, s'.Locked q c) s := by
  refine orStop_cooperates (perform_cooperates h (fun _ _ => Free.rely) fun s₁ r s₂ h₁ hinv hmay ha => ?_)
  obtain ⟨m, hlock, ha⟩ := Option.bind_eq_some_iff.mp ha
  obtain ⟨hnone, rfl⟩ := Mutex.lock_eq_some hlock
  cases r with
  | none =>
    have hstopped : stopped .logger { s₁ with mutex := some .logger } = some s₂ := ha
    have hmay' : isFaultless = true →
        mayStop (.logger : Party ι) { s₁ with mutex := some .logger } = true := hmay
    have hinv' : LoggerInv isFaultless { s₁ with mutex := some .logger } :=
      (grants_lock hinv hnone).1
    have hinv₂ := (grants_stopped hinv' hmay' hstopped).1
    rw [stopped, if_pos rfl] at hstopped
    obtain ⟨-, hs₂⟩ := Option.ite_none_right_eq_some.mp hstopped
    cases hs₂
    have hother : ∀ q : Party ι, q ≠ .logger → s₁.mutex ≠ some q ∧ some .logger ≠ some q :=
      fun q hq => ⟨by simp [hnone], Mutex.ne_of_holder rfl hq⟩
    exact ⟨loggerContract_grants hinv₂ (.inr hother) (fun hp => absurd rfl hp) fun _ => rfl, by simp⟩
  | some rc =>
    cases ha
    exact ⟨grants_lock hinv hnone, fun _ _ => ⟨s₁.queue, rfl, rfl, h₁.2.2⟩⟩

theorem perform_locked {o : LoggerOp ρ} {R : LoggerRes o → Prop} (h : s.Locked q c)
    (hnext : ∀ (s₁ : LoggerState ι ρ) r s₂, s₁.Locked q c → LoggerInv isFaultless s₁ →
      loggerNext .logger o s₁ r = some s₂ → s₂ = s₁ ∧ R r) :
    cls.Cooperates isFaultless (.logger : Party ι) o.perform (fun r s' => R r ∧ s'.Locked q c) s := by
  refine perform_cooperates h (fun _ _ => Locked.rely) fun s₁ r s₂ h₁ hinv _ ha => ?_
  obtain ⟨rfl, hr⟩ := hnext s₁ r s₂ h₁ hinv ha
  exact ⟨loggerContract_grants hinv (.inl ⟨rfl, rfl⟩) (fun hp => absurd rfl hp) id, hr, h₁⟩

theorem clockGettime_logger (h : s.Locked q c) :
    cls.Cooperates isFaultless (.logger : Party ι) LoggerOp.clockGettime.perform
      (fun _ s' => s'.Locked q c) s := by
  refine (perform_locked (R := fun _ => True) h fun s₁ r s₂ _ _ ha => ?_).mono fun _ _ h => h.2
  cases ha
  exact ⟨rfl, trivial⟩

theorem size_logger (h : s.Locked q c) :
    cls.Cooperates isFaultless (.logger : Party ι) LoggerOp.size.perform
      (fun size s' => size = q.length ∧ s'.Locked q c) s := by
  refine perform_locked h fun s₁ r s₂ h₁ _ ha => ?_
  obtain ⟨hr, hs₂⟩ := Option.ite_none_right_eq_some.mp ha
  cases hs₂
  exact ⟨rfl, h₁.2.1 ▸ hr⟩

/-- The test for the empty queue, which in the loop over the queue must not succeed. -/
theorem empty_logger {test : EmptyTest} (h : s.Locked q c) (hq : test = .sending → q ≠ []) :
    cls.Cooperates isFaultless (.logger : Party ι) (LoggerOp.empty test).perform
      (fun isEmpty s' => isEmpty = q.isEmpty ∧ s'.Locked q c) s := by
  refine perform_locked h fun s₁ r s₂ h₁ hinv ha => ?_
  obtain ⟨hr, hs₂⟩ := Option.ite_none_right_eq_some.mp ha
  rw [h₁.2.1] at hr
  have hbroke : (s₁.courier.brokeOff || r && test == .sending) = s₁.courier.brokeOff := by
    cases test with
    | waiting => simp
    | sending => simp [hr, hq rfl]
  rw [hbroke] at hs₂
  cases hs₂
  exact ⟨rfl, hr⟩

theorem front_logger {pData : Option ρ} {rest : List (Option ρ)} (h : s.Locked (pData :: rest) c) :
    cls.Cooperates isFaultless (.logger : Party ι) LoggerOp.front.perform
      (fun r s' => r = pData ∧ s'.Locked (pData :: rest) c) s := by
  refine perform_locked h fun s₁ r s₂ h₁ _ ha => ?_
  obtain ⟨hr, hs₂⟩ := Option.ite_none_right_eq_some.mp ha
  cases hs₂
  rw [h₁.2.1] at hr
  exact ⟨rfl, (of_decide_eq_true hr).symm⟩

theorem pop_logger {pData : Option ρ} {rest : List (Option ρ)} (hc : c.Ready)
    (h : s.Locked (pData :: rest) c) :
    cls.Cooperates isFaultless (.logger : Party ι) LoggerOp.pop.perform
      (fun _ s' => s'.Locked rest (c.take pData)) s := by
  refine perform_cooperates h (fun _ _ => Locked.rely) fun s₁ r s₂ h₁ hinv _ ha => ?_
  obtain ⟨hmutex, hqueue, rfl⟩ := h₁
  cases ha
  have hinv' := hinv.pop hqueue hc.1 hc.2.2
  have hother : ∀ q : Party ι, q ≠ .logger → s₁.mutex ≠ some q := fun q =>
    Mutex.ne_of_holder hmutex
  rw [hqueue]
  exact ⟨loggerContract_grants hinv' (.inr fun q hq => ⟨hother q hq, hother q hq⟩)
    (fun hp => absurd rfl hp) id, hmutex, rfl, rfl⟩

/-- An operation that changes what the logger alone changes, with the queue open to others. -/
theorem perform_free {o : LoggerOp ρ} {B : LoggerRes o → Courier ρ → Prop} (h : s.Free n c)
    (hnext : ∀ (s₁ : LoggerState ι ρ) r s₂, s₁.courier = c → LoggerInv isFaultless s₁ →
      (isFaultless = true → faultless (.logger : Party ι) o s₁ r = true) →
      loggerNext .logger o s₁ r = some s₂ → ∃ c', s₂ = { s₁ with courier := c' } ∧
        LoggerInv isFaultless s₂ ∧ (c.ended = true → c'.ended = true) ∧ B r c') :
    cls.Cooperates isFaultless (.logger : Party ι) o.perform
      (fun r s' => ∃ c', B r c' ∧ s'.Free n c') s := by
  refine perform_cooperates h (fun _ _ => Free.rely) fun s₁ r s₂ h₁ hinv hmay ha => ?_
  obtain ⟨hmutex, hlength, rfl⟩ := h₁
  obtain ⟨c', rfl, hinv', hended, hB⟩ := hnext s₁ r s₂ rfl hinv hmay ha
  exact ⟨grants_courier hinv' hended, c', hB, hmutex, hlength, rfl⟩

theorem orStop_free {prog : LoggerProg ρ (Option α)} {B : α → Courier ρ → Prop}
    (h : cls.Cooperates isFaultless p prog
      (fun r s' => ∃ c', (∀ a, r = some a → B a c') ∧ s'.Free n c') s) :
    cls.Cooperates isFaultless p (orStop prog) (fun a s' => ∃ c', B a c' ∧ s'.Free n c') s := by
  refine orStop_cooperates (h.mono fun r s' hr a ha => ?_)
  obtain ⟨c', hB, hfree⟩ := hr
  exact ⟨c', hB a ha, hfree⟩

theorem socket_logger (hc : c.Ready) (h : s.Free n c) :
    cls.Cooperates isFaultless (.logger : Party ι) LoggerOp.socket.perform
      (fun _ s' => ∃ c', c'.Ready ∧ s'.Free n c') s := by
  refine perform_free h fun s₁ r s₂ h₁ hinv _ ha => ?_
  subst h₁
  cases ha
  exact ⟨_, rfl, hinv.connected hc.2.2 _, id, hc⟩

theorem connect_logger {sock : ℤ} (hc : c.Ready) (h : s.Free n c) :
    cls.Cooperates isFaultless (.logger : Party ι) (orStop (LoggerOp.connect sock).perform)
      (fun _ s' => ∃ c', c'.Ready ∧ s'.Free n c') s := by
  refine orStop_free (perform_free h fun s₁ r s₂ h₁ hinv hmay ha => ?_)
  subst h₁
  cases r with
  | none => exact stopped_courier hinv hmay ha
  | some rc =>
    cases ha
    exact ⟨_, rfl, hinv.connected hc.2.2 _, id, fun _ _ => hc⟩

theorem close_logger {sock : ℤ} (hc : c.Ready) (h : s.Free n c) :
    cls.Cooperates isFaultless (.logger : Party ι) (orStop (LoggerOp.close sock).perform)
      (fun _ s' => ∃ c', c'.Ready ∧ s'.Free n c') s := by
  refine orStop_free (perform_free h fun s₁ r s₂ h₁ hinv hmay ha => ?_)
  subst h₁
  cases r with
  | none => exact stopped_courier hinv hmay ha
  | some rc =>
    cases ha
    exact ⟨_, rfl, hinv.connected hc.2.2 _, id, fun _ _ => hc⟩

/-- Without faults a command is written as a whole. -/
theorem write_logger {sock : ℤ} {data : List Byte} (hc : c.ended = false) (h : s.Free n c) :
    cls.Cooperates isFaultless (.logger : Party ι) (orStop (LoggerOp.write sock data).perform)
      (fun _ s' => ∃ c', (∃ written, c' = c.sent data written ∧ (isFaultless = true →
        c.delivery.isNone = true ∨ c.connected = true ∧ written = data.length)) ∧ s'.Free n c') s := by
  refine orStop_free (perform_free h fun s₁ r s₂ h₁ hinv hmay ha => ?_)
  subst h₁
  cases r with
  | none => exact stopped_courier hinv hmay ha
  | some written =>
    cases ha
    have hinv' := hinv.courier (c := s₁.courier.sent data written) rfl rfl rfl (by simp) rfl hc
    refine ⟨_, rfl, hinv', id, fun _ _ => ⟨written, rfl, fun hfaultless => ?_⟩⟩
    have hanswer := hmay hfaultless
    simpa [faultless] using hanswer

/-- Without faults a command is acknowledged. -/
theorem read_logger {sock : ℤ} (hc : c.ended = false) (h : s.Free n c) :
    cls.Cooperates isFaultless (.logger : Party ι) (orStop (LoggerOp.read sock).perform)
      (fun _ s' => ∃ c', (∃ reply, c' = c.answered reply ∧ (isFaultless = true →
        c.delivery.isNone = true ∨ acknowledges reply = true)) ∧ s'.Free n c') s := by
  refine orStop_free (perform_free h fun s₁ r s₂ h₁ hinv hmay ha => ?_)
  subst h₁
  cases r with
  | none => exact stopped_courier hinv hmay ha
  | some reply =>
    cases ha
    have hinv' := hinv.courier (c := s₁.courier.answered reply) rfl rfl rfl (by simp) rfl hc
    refine ⟨_, rfl, hinv', id, fun _ _ => ⟨reply, rfl, fun hfaultless => ?_⟩⟩
    have hanswer := hmay hfaultless
    simpa [faultless] using hanswer

theorem bindParams_logger {data : ρ} (hinHand : c.inHand = some data) (hdelivery : c.delivery = none)
    (hended : c.ended = false) (h : s.Free n c) :
    cls.Cooperates isFaultless (.logger : Party ι) (LoggerOp.bindParams data).perform
      (fun _ s' => ∃ c', c' = c.bind data ∧ s'.Free n c') s := by
  refine perform_free h fun s₁ r s₂ h₁ hinv _ ha => ?_
  subst h₁
  cases ha
  exact ⟨_, rfl, hinv.bind hinHand hdelivery hended, id, rfl⟩

theorem delete_logger {data : ρ} (hinHand : c.inHand = none) (hended : c.ended = false)
    (hcomplete : isFaultless = true → c.delivery.all Delivery.complete = true) (h : s.Free n c) :
    cls.Cooperates isFaultless (.logger : Party ι) (LoggerOp.delete data).perform
      (fun _ s' => ∃ c', c'.Ready ∧ s'.Free n c') s := by
  refine perform_free h fun s₁ r s₂ h₁ hinv _ ha => ?_
  subst h₁
  cases ha
  exact ⟨_, rfl, hinv.delete hcomplete hended, id, hinHand, rfl, hended⟩

end

end Ritex.Gateway
