import Ritex.RequestStages

/-! Requests and responses are paired in every run of the request loop, whichever thread runs the
notification of a command. -/
namespace Ritex.RequestLoop
open Transition

/-! ### The notification inside `Execute` -/

theorem Inv.inside {s : State} (h : Inv s) {c : Command} {next : Callback}
    (hs : s.server = .notify c next) : s.server.command = some c ∧ Shows c (.inside next) s := by
  have hc : s.server.command = some c := by rw [hs]; rfl
  obtain ⟨stage, ha, hw⟩ := h.shows hc
  rw [hs] at ha
  cases ha
  exact ⟨hc, hw⟩

theorem Inv.serverCallback {s s' : State} (h : Inv s) {c : Command} {next next' : Callback}
    (hs : s.server = .notify c next) (hstep : CallbackStep .server c next s next' s') :
    Inv { s' with server := .notify c next' } := by
  obtain ⟨hc, hw⟩ := h.inside hs
  have hmutex := hw.serverMutex
  rw [hs] at hmutex
  cases hstep with
  | send =>
    refine h.respond (some c) (by rw [← hw.request]; rfl) (hw.unsent id) ?_ rfl rfl
      (fun d hm => ?_) ⟨.inside .lock, rfl, ?_⟩
    · rintro d hd
      cases hd
      exact hw.sock
    · have hd := h.executed d hm
      rw [hc] at hd
      exact hd.imp_right .inr
    · exact { hw with
        unsent := fun hsent => absurd trivial hsent
        sent := fun _ => ⟨_, List.mem_cons_self, rfl⟩
        flag := fun _ => hw.flag (by simp)
        unfinished := fun _ => hw.unfinished (by simp)
        serverMutex := hmutex }
  | lock hm =>
    refine h.command_step (.inside .set) hc rfl rfl rfl (fun d hd => .inr hd) rfl rfl ?_
    exact { hw with
      unsent := fun hsent => absurd trivial hsent
      flag := fun _ => hw.flag (by simp)
      unfinished := fun _ => hw.unfinished (by simp)
      serverMutex := by simp [Server.Locked, Callback.Locked]
      finisherMutex := by simp [Stage.finisherLocked] }
  | set =>
    refine h.command_step (.inside .signal) hc rfl rfl rfl (fun d hd => .inr hd) rfl rfl ?_
    exact { hw with
      unsent := fun hsent => absurd trivial hsent
      flag := fun _ => rfl
      unfinished := fun _ => hw.unfinished (by simp)
      serverMutex := hmutex }
  | signal =>
    have heq : s.signal = s := by
      unfold State.signal
      rw [hs]
    rw [heq]
    refine h.command_step (.inside .unlock) hc rfl rfl rfl (fun d hd => .inr hd) rfl rfl ?_
    exact { hw with
      unsent := fun hsent => absurd trivial hsent
      flag := fun _ => hw.flag (by simp)
      unfinished := fun _ => hw.unfinished (by simp)
      serverMutex := hmutex }

theorem Inv.finish_step {s s' : State} (h : Inv s) {c : Command} (hc : s.server.command = some c)
    (hc' : s'.server.command = some c) (hr : s'.responses = s.responses)
    (hf : s'.finished = c :: s.finished) (hx : ∀ d ∈ s'.executed, d = c ∨ d ∈ s.executed)
    (hn : s'.requests = s.requests) (ha : s'.server.Allows .finished)
    (hs : Shows c .finished s') : Inv s' where
  nodup := by
    rw [hr]
    exact h.nodup
  bounded := by
    rw [hr, hn]
    exact h.bounded
  addressed := by
    rw [hr]
    exact h.addressed
  finishedBounded d hm := by
    rw [hf] at hm
    rcases List.mem_cons.mp hm with rfl | hm
    · exact hs.request.le
    · exact (h.finishedBounded d hm).trans hn.ge
  executed d hm := by
    rw [hr]
    rcases hx d hm with rfl | hm
    · exact .inl hc'
    · have hd := h.executed d hm
      rwa [hc, ← hc'] at hd
  phase := phase_of_shows hc' ha hs

theorem Inv.serverReturn {s : State} (h : Inv s) {c : Command} (hs : s.server = .notify c .unlock) :
    Inv { s with
      server := .lockWait c, mutex := none, executed := c :: s.executed,
      finished := c :: s.finished } := by
  obtain ⟨hc, hw⟩ := h.inside hs
  refine h.finish_step hc rfl rfl rfl (fun d hd => List.mem_cons.mp hd) rfl ⟨by simp, by simp⟩ ?_
  exact { hw with
    unsent := fun hsent => absurd trivial hsent
    flag := fun _ => hw.flag (by simp)
    unfinished := fun hne => absurd rfl hne
    serverMutex := by simp [Server.Locked]
    finisherMutex := by simp [Stage.finisherLocked] }

/-! ### The finishing thread -/

theorem Inv.accepted_current {s : State} (h : Inv s) {c : Command} {before after : List Command}
    (ha : s.accepted = before ++ c :: after) :
    before ++ after = [] ∧ s.server.command = some c ∧ s.server.Allows .accepted ∧
      Shows c .accepted s := by
  cases hc : s.server.command with
  | none =>
    have hempty := (h.idle hc).accepted
    rw [ha] at hempty
    simp at hempty
  | some d =>
    obtain ⟨stage, hallows, hw⟩ := h.shows hc
    have hlist := hw.accepted
    rw [ha] at hlist
    cases stage with
    | accepted =>
      obtain ⟨rfl, hcd, rfl⟩ : before = [] ∧ c = d ∧ after = [] := by
        cases before with
        | nil => simpa [Stage.acceptedList] using hlist
        | cons b before => simp [Stage.acceptedList] at hlist
      subst hcd
      exact ⟨rfl, rfl, hallows, hw⟩
    | created | armed | inside | finishing | finished => simp [Stage.acceptedList] at hlist

theorem Inv.finisher_current {s : State} (h : Inv s) {c : Command} {next : Callback}
    (hf : s.finisher = some (c, next)) :
    s.server.command = some c ∧ s.server.Allows (.finishing next) ∧ Shows c (.finishing next) s := by
  cases hc : s.server.command with
  | none =>
    have hnone := (h.idle hc).finisher
    rw [hf] at hnone
    cases hnone
  | some d =>
    obtain ⟨stage, hallows, hw⟩ := h.shows hc
    have hfin := hw.finisher
    rw [hf] at hfin
    cases stage with
    | finishing next' =>
      cases hfin
      exact ⟨rfl, hallows, hw⟩
    | created | armed | accepted | inside | finished => cases hfin

theorem Server.Allows.finishing {server : Server} {stage : Stage} {next : Callback}
    (h : server.Allows stage) (hs : stage = .accepted ∨ ∃ next, stage = .finishing next)
    (hl : server.Locked → ¬next.Locked) (hw : ∀ c, server = .wait c → next ≠ .unlock) :
    server.Allows (.finishing next) := by
  cases server with
  | execute c accepted =>
    cases accepted with
    | false =>
      cases h
      rcases hs with hs | ⟨_, hs⟩ <;> cases hs
    | true => exact .inr (.inl ⟨next, rfl⟩)
  | notify c next' =>
    cases h
    rcases hs with hs | ⟨_, hs⟩ <;> cases hs
  | lockWait c => exact ⟨by simp, by simp⟩
  | test c => exact ⟨by simp, by simp, hl trivial⟩
  | wait c =>
    refine ⟨by simp, by simp, ?_, by simp⟩
    rintro heq
    cases heq
    exact hw c rfl rfl
  | woken c => exact ⟨by simp, by simp⟩
  | lockClear c | clear c | unlockClear c | unlockWait c | refuse c =>
    cases h
    rcases hs with hs | ⟨_, hs⟩ <;> cases hs
  | accept | recv | received | reject | close | stopped => exact h.elim

theorem Server.Allows.finished {server : Server} (h : server.Allows (.finishing .unlock))
    (hl : ¬server.Locked) : server.Allows .finished := by
  cases server with
  | execute c accepted =>
    cases accepted with
    | false => cases h
    | true => exact .inr (.inr rfl)
  | notify c next => cases h
  | lockWait c => exact ⟨by simp, by simp⟩
  | test c => exact absurd trivial hl
  | wait c => exact absurd rfl h.2.2.1
  | woken c => exact ⟨by simp, by simp⟩
  | lockClear c | clear c | unlockClear c | unlockWait c | refuse c => cases h
  | accept | recv | received | reject | close | stopped => exact h.elim

theorem Inv.finishing {s : State} (h : Inv s) {c : Command} {before after : List Command}
    (ha : s.accepted = before ++ c :: after) :
    Inv { s with accepted := before ++ after, finisher := some (c, .send) } := by
  obtain ⟨hnil, hc, hallows, hw⟩ := h.accepted_current ha
  refine h.command_step (.finishing .send) hc hc rfl rfl (fun d hd => .inr hd) rfl
    (hallows.finishing (.inl rfl) (fun _ => id) (by simp)) ?_
  exact { hw with
    accepted := hnil
    finisher := rfl
    flag := fun _ => hw.flag (by simp)
    unsent := fun _ => hw.unsent id
    sent := fun hsent => hsent.elim
    unfinished := fun _ => hw.unfinished (by simp) }

theorem Inv.signalled {s : State} (h : Inv s) {c : Command}
    (hf : s.finisher = some (c, .signal)) :
    Inv { s.signal with finisher := some (c, .unlock) } := by
  obtain ⟨hc, hallows, hw⟩ := h.finisher_current hf
  have hshows : Shows c (.finishing .unlock) { s with finisher := some (c, .unlock) } := { hw with
    finisher := rfl
    unsent := fun hsent => absurd trivial hsent
    flag := fun _ => hw.flag (by simp)
    unfinished := fun _ => hw.unfinished (by simp) }
  have hexclusive : ¬s.server.Locked := fun hs => by
    have hfinisher := hw.finisherMutex.mpr trivial
    rw [hw.serverMutex.mpr hs] at hfinisher
    cases hfinisher
  unfold State.signal
  split
  next d hs =>
    rw [hs] at hc hallows
    have hmutex := hw.serverMutex
    rw [hs] at hmutex
    refine h.command_step (.finishing .unlock) (by rw [hs]; exact hc) hc rfl rfl
      (fun d hd => .inr hd) rfl ⟨by simp, by simp⟩ ?_
    exact { hshows with serverMutex := hmutex }
  next hs =>
    exact h.command_step (.finishing .unlock) hc hc rfl rfl (fun d hd => .inr hd) rfl
      (hallows.finishing (.inr ⟨_, rfl⟩) (fun hl => absurd hl hexclusive) (fun d hd => absurd hd (hs d)))
      hshows

theorem Inv.finisherCallback {s s' : State} (h : Inv s) {c : Command} {next next' : Callback}
    (hf : s.finisher = some (c, next)) (hstep : CallbackStep .finisher c next s next' s') :
    Inv { s' with finisher := some (c, next') } := by
  obtain ⟨hc, hallows, hw⟩ := h.finisher_current hf
  -- Once the finishing thread has the mutex the server does not.
  have hexclusive : next.Locked → ¬s.server.Locked := fun hl hs => by
    have hfinisher := hw.finisherMutex.mpr hl
    rw [hw.serverMutex.mpr hs] at hfinisher
    cases hfinisher
  cases hstep with
  | send =>
    refine h.respond (some c) (by rw [← hw.request]; rfl) (hw.unsent id) ?_ rfl rfl
      (fun d hm => ?_) ?_
    · rintro d hd
      cases hd
      exact hw.sock
    · exact (h.executed d hm).imp_right .inr
    · refine phase_of_shows hc
        (hallows.finishing (.inr ⟨_, rfl⟩) (fun _ => id) (by simp) :
          s.server.Allows (.finishing .lock)) ?_
      exact { hw with
        finisher := rfl
        unsent := fun hsent => absurd trivial hsent
        sent := fun _ => ⟨_, List.mem_cons_self, rfl⟩
        flag := fun _ => hw.flag (by simp)
        unfinished := fun _ => hw.unfinished (by simp) }
  | lock hm =>
    have hfree : ¬s.server.Locked := fun hs => by
      rw [hw.serverMutex.mpr hs] at hm
      cases hm
    refine h.command_step (.finishing .set) hc hc rfl rfl (fun d hd => .inr hd) rfl
      (hallows.finishing (.inr ⟨_, rfl⟩) (fun hs => absurd hs hfree) (by simp)) ?_
    exact { hw with
      finisher := rfl
      unsent := fun hsent => absurd trivial hsent
      flag := fun _ => hw.flag (by simp)
      unfinished := fun _ => hw.unfinished (by simp)
      serverMutex := by simp [hfree]
      finisherMutex := by simp [Stage.finisherLocked, Callback.Locked] }
  | set =>
    refine h.command_step (.finishing .signal) hc hc rfl rfl (fun d hd => .inr hd) rfl
      (hallows.finishing (.inr ⟨_, rfl⟩) (fun hs => absurd hs (hexclusive trivial)) (by simp)) ?_
    exact { hw with
      finisher := rfl
      unsent := fun hsent => absurd trivial hsent
      flag := fun _ => rfl
      unfinished := fun _ => hw.unfinished (by simp) }
  | signal =>
    exact h.signalled hf

theorem Inv.finisherReturn {s : State} (h : Inv s) {c : Command}
    (hf : s.finisher = some (c, .unlock)) :
    Inv { s with finisher := none, mutex := none, finished := c :: s.finished } := by
  obtain ⟨hc, hallows, hw⟩ := h.finisher_current hf
  have hfree : ¬s.server.Locked := fun hs => by
    have hfinisher := hw.finisherMutex.mpr trivial
    rw [hw.serverMutex.mpr hs] at hfinisher
    cases hfinisher
  refine h.finish_step hc hc rfl rfl (fun d hd => .inr hd) rfl (hallows.finished hfree) ?_
  exact { hw with
    finisher := rfl
    unsent := fun hsent => absurd trivial hsent
    flag := fun _ => hw.flag (by simp)
    unfinished := fun hne => absurd rfl hne
    serverMutex := by simp [hfree]
    finisherMutex := by simp [Stage.finisherLocked] }

/-! ### Runs -/

theorem step_inv {s s' : State} (h : Inv s) (hstep : Step s s') : Inv s' := by
  cases hstep with
  | accept hs =>
    have hc : s.server.command = none := by rw [hs]; rfl
    exact h.idle_step hc rfl rfl rfl le_rfl ((h.idle hc).move rfl rfl rfl (by simp) (by simp))
  | acceptError hs =>
    have hc : s.server.command = none := by rw [hs]; rfl
    exact h.idle_step hc rfl rfl rfl le_rfl ((h.idle hc).move rfl rfl rfl (by simp) (by simp))
  | recv hs hsock => exact h.received hs hsock
  | recvError hs => exact h.rejecting hs none
  | recvShort hs => exact h.rejecting hs s.clientSock
  | skip hs =>
    have hc : s.server.command = none := by rw [hs]; rfl
    exact h.idle_step hc rfl rfl rfl le_rfl ((h.idle hc).move rfl rfl rfl (by simp) (by simp))
  | create hs => exact h.creating hs
  | lockClear hs hm => exact h.clearing hs
  | clear hs => exact h.cleared hs
  | unlockClear hs => exact h.armed hs
  | submit hs => exact h.submitted hs
  | notifyInside hs => exact h.notifying hs
  | executeFalse hs => exact h.refusing hs
  | executeTrue hs => exact h.executedTrue hs
  | serverCallback hs hcallback => exact h.serverCallback hs hcallback
  | serverReturn hs => exact h.serverReturn hs
  | lockWait hs hm => exact h.waitLocked (.inl hs) hm
  | testTrue hs hf => exact h.waitOver hs hf
  | testFalse hs hf => exact h.blocked hs hf
  | spurious hs => exact h.wokenUp hs
  | wake hs hm => exact h.waitLocked (.inr hs) hm
  | unlockWait hs => exact h.waitLeft hs
  | refuse hs => exact h.refused hs
  | reject hs => exact h.rejected hs
  | close hs =>
    have hc : s.server.command = none := by rw [hs]; rfl
    exact h.idle_step hc rfl rfl rfl le_rfl ((h.idle hc).move rfl rfl rfl (by simp) (by simp))
  | finish hf ha => exact h.finishing ha
  | finisherCallback hf hcallback => exact h.finisherCallback hf hcallback
  | finisherReturn hf => exact h.finisherReturn hf

theorem inv_invariant : system.Invariant Inv where
  init s hs := by
    cases hs
    exact initial_inv
  step _ _ := step_inv

theorem Inv.waiting_unfinished {s : State} (h : Inv s) {c : Command} (hs : s.server = .wait c) :
    c ∉ s.finished := by
  intro hm
  have hc : s.server.command = some c := by rw [hs]; rfl
  obtain ⟨stage, ha, hw⟩ := h.shows hc
  rw [hs] at ha
  exact absurd hw.request (hw.unfinished ha.2.2.2 c hm).ne

/-- In every run: a request has at most one response; a response about a command goes to the
connection whose request created the command; when the server reads the next request, every
command whose `Execute` returned true has its response; and the server is not left waiting for a
command whose notification has returned. -/
theorem requests_paired {s : State} (h : system.Reachable s) :
    (s.responses.map Response.request).Nodup ∧
    (∀ r ∈ s.responses, ∀ c, r.command = some c → r.connection = some c.connection) ∧
    (s.server = .recv → ∀ c ∈ s.executed, ∃ r ∈ s.responses, r.command = some c) ∧
    (∀ c, s.server = .wait c → c ∉ s.finished) := by
  have hinv : Inv s := inv_invariant.reachable h
  refine ⟨hinv.nodup, hinv.addressed, fun hs => ?_, fun c => hinv.waiting_unfinished⟩
  exact hinv.executed_sent (by rw [hs]; rfl)

/-- The next request comes to a command that is accepted, and the server waits for it. -/
theorem reachable_wait {s : State} (h : system.Reachable s) {connection : ℕ} (hs : s.server = .recv)
    (hsock : s.clientSock = some connection) (hm : s.mutex = none) :
    system.Reachable { s with
      server := .wait ⟨s.requests + 1, connection⟩
      canProcessCommands := false
      mutex := none
      requests := s.requests + 1
      accepted := s.accepted ++ [⟨s.requests + 1, connection⟩]
      executed := ⟨s.requests + 1, connection⟩ :: s.executed } := by
  have h := h.step (.recv hs hsock)
  have h := h.step (.create rfl)
  have h := h.step (.lockClear rfl hm)
  have h := h.step (.clear rfl)
  have h := h.step (.unlockClear rfl)
  have h := h.step (.submit rfl)
  have h := h.step (.executeTrue rfl)
  have h := h.step (.lockWait rfl rfl)
  exact h.step (.testFalse rfl rfl)

/-- The first request is answered, and the server reads the next. -/
def answeredState : State :=
  { initial with
    server := .recv
    clientSock := some 0
    connections := 1
    requests := 1
    responses := [⟨1, some ⟨1, 0⟩, some 0⟩]
    executed := [⟨1, 0⟩]
    finished := [⟨1, 0⟩] }

theorem answeredState_reachable : system.Reachable answeredState := by
  have h := System.Reachable.init (S := system) rfl
  have h := h.step (.accept rfl)
  have h := reachable_wait h rfl rfl rfl
  have h := h.step (.finish rfl (show _ = [] ++ ⟨1, 0⟩ :: [] from rfl))
  have h := h.step (.finisherCallback rfl (.send _))
  have h := h.step (.finisherCallback rfl (.lock rfl))
  have h := h.step (.finisherCallback rfl (.set _))
  have h := h.step (.finisherCallback rfl (.signal _))
  have h := h.step (.finisherReturn rfl)
  have h := h.step (.wake rfl rfl)
  have h := h.step (.testTrue rfl rfl)
  exact h.step (.unlockWait rfl)

/-- The server waits for the command of the second request. -/
def waitingState : State :=
  { answeredState with
    server := .wait ⟨2, 0⟩
    canProcessCommands := false
    requests := 2
    accepted := [⟨2, 0⟩]
    executed := [⟨2, 0⟩, ⟨1, 0⟩] }

theorem waitingState_reachable : system.Reachable waitingState :=
  reachable_wait answeredState_reachable rfl rfl rfl

theorem requests_paired_waiting :
    ((answeredState.responses.map Response.request).Nodup ∧
      (∀ r ∈ answeredState.responses, ∀ c, r.command = some c → r.connection = some c.connection) ∧
      (answeredState.server = .recv →
        ∀ c ∈ answeredState.executed, ∃ r ∈ answeredState.responses, r.command = some c) ∧
      (∀ c, answeredState.server = .wait c → c ∉ answeredState.finished)) ∧
    (waitingState.responses.map Response.request).Nodup ∧
      (∀ r ∈ waitingState.responses, ∀ c, r.command = some c → r.connection = some c.connection) ∧
      (waitingState.server = .recv →
        ∀ c ∈ waitingState.executed, ∃ r ∈ waitingState.responses, r.command = some c) ∧
      (∀ c, waitingState.server = .wait c → c ∉ waitingState.finished) :=
  ⟨requests_paired answeredState_reachable, requests_paired waitingState_reachable⟩

end Ritex.RequestLoop
