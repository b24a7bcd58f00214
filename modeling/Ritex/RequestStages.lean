import Ritex.RequestLoop

/-! The invariant of the request loop: while a command is at work, the rest of the state is known
from the stage its notification has reached. The steps that the server takes by itself keep it. -/
namespace Ritex.RequestLoop
open Transition

/-- How far the notification of the current command has come. -/
inductive Stage
  | created
  | armed
  | accepted
  | inside (next : Callback)
  | finishing (next : Callback)
  | finished
  deriving DecidableEq

namespace Callback

def Sent : Callback → Prop
  | send => False
  | _ => True

def Locked : Callback → Prop
  | send => False
  | lock => False
  | _ => True

def flag : Callback → Bool
  | signal => true
  | unlock => true
  | _ => false

end Callback

namespace Stage

def Sent : Stage → Prop
  | inside next => next.Sent
  | finishing next => next.Sent
  | finished => True
  | _ => False

def flag : Stage → Bool
  | inside next => next.flag
  | finishing next => next.flag
  | finished => true
  | _ => false

def finisherLocked : Stage → Prop
  | finishing next => next.Locked
  | _ => False

def acceptedList (c : Command) : Stage → List Command
  | accepted => [c]
  | _ => []

def finisherOf (c : Command) : Stage → Option (Command × Callback)
  | finishing next => some (c, next)
  | _ => none

end Stage

namespace Server

def command : Server → Option Command
  | lockClear c => some c
  | clear c => some c
  | unlockClear c => some c
  | execute c _ => some c
  | notify c _ => some c
  | lockWait c => some c
  | test c => some c
  | wait c => some c
  | woken c => some c
  | unlockWait c => some c
  | refuse c => some c
  | _ => none

def Locked : Server → Prop
  | clear _ => True
  | unlockClear _ => True
  | notify _ next => next.Locked
  | test _ => True
  | unlockWait _ => True
  | _ => False

/-- The stages of the current command at which the server can stand here. -/
def Allows : Server → Stage → Prop
  | lockClear _, stage => stage = .created
  | clear _, stage => stage = .created
  | unlockClear _, stage => stage = .armed
  | execute _ false, stage => stage = .armed
  | execute _ true, stage =>
    stage = .accepted ∨ (∃ next, stage = .finishing next) ∨ stage = .finished
  | notify _ next, stage => stage = .inside next
  | lockWait _, stage => stage ≠ .created ∧ ∀ next, stage ≠ .inside next
  | test _, stage => stage ≠ .created ∧ (∀ next, stage ≠ .inside next) ∧ ¬stage.finisherLocked
  | wait _, stage => stage ≠ .created ∧ (∀ next, stage ≠ .inside next) ∧
      stage ≠ .finishing .unlock ∧ stage ≠ .finished
  | woken _, stage => stage ≠ .created ∧ ∀ next, stage ≠ .inside next
  | unlockWait _, stage => stage = .finished
  | refuse _, stage => stage = .armed
  | _, _ => False

end Server

/-- What the stage of command `c` says about the state. -/
structure Shows (c : Command) (stage : Stage) (s : State) : Prop where
  request : c.request = s.requests
  sock : s.clientSock = some c.connection
  accepted : s.accepted = stage.acceptedList c
  finisher : s.finisher = stage.finisherOf c
  flag : stage ≠ .created → s.canProcessCommands = stage.flag
  unsent : ¬stage.Sent → ∀ r ∈ s.responses, r.request < s.requests
  sent : stage.Sent → ∃ r ∈ s.responses, r.command = some c
  unfinished : stage ≠ .finished → ∀ d ∈ s.finished, d.request < s.requests
  serverMutex : s.mutex = some .server ↔ s.server.Locked
  finisherMutex : s.mutex = some .finisher ↔ stage.finisherLocked

/-- Between two commands nothing is outstanding. -/
structure Idle (s : State) : Prop where
  accepted : s.accepted = []
  finisher : s.finisher = none
  mutex : s.mutex = none
  fresh : (∃ n, s.server = .received n) ∨ s.server = .reject →
    (∀ r ∈ s.responses, r.request < s.requests) ∧ ∀ d ∈ s.finished, d.request < s.requests
  sock : ∀ n, s.server = .received n → s.clientSock = some n

def Phase (s : State) : Prop :=
  match s.server.command with
  | none => Idle s
  | some c => ∃ stage, s.server.Allows stage ∧ Shows c stage s

structure Inv (s : State) : Prop where
  nodup : (s.responses.map Response.request).Nodup
  bounded : ∀ r ∈ s.responses, r.request ≤ s.requests
  addressed : ∀ r ∈ s.responses, ∀ c, r.command = some c → r.connection = some c.connection
  finishedBounded : ∀ d ∈ s.finished, d.request ≤ s.requests
  executed : ∀ c ∈ s.executed,
    s.server.command = some c ∨ ∃ r ∈ s.responses, r.command = some c
  phase : Phase s

theorem Inv.idle {s : State} (h : Inv s) (hc : s.server.command = none) : Idle s := by
  have hp := h.phase
  unfold Phase at hp
  rw [hc] at hp
  exact hp

theorem Inv.shows {s : State} (h : Inv s) {c : Command} (hc : s.server.command = some c) :
    ∃ stage, s.server.Allows stage ∧ Shows c stage s := by
  have hp := h.phase
  unfold Phase at hp
  rw [hc] at hp
  exact hp

theorem Inv.shows_at {s : State} (h : Inv s) {server : Server} (hs : s.server = server) {c : Command}
    (hc : server.command = some c) :
    s.server.command = some c ∧ ∃ stage, server.Allows stage ∧ Shows c stage s := by
  have hcommand : s.server.command = some c := by rw [hs, hc]
  obtain ⟨stage, ha, hw⟩ := h.shows hcommand
  rw [hs] at ha
  exact ⟨hcommand, stage, ha, hw⟩

theorem phase_of_shows {s : State} {c : Command} {stage : Stage}
    (hc : s.server.command = some c) (ha : s.server.Allows stage) (hs : Shows c stage s) :
    Phase s := by
  unfold Phase
  rw [hc]
  exact ⟨stage, ha, hs⟩

theorem initial_inv : Inv initial where
  nodup := List.nodup_nil
  bounded := by simp [initial]
  addressed := by simp [initial]
  finishedBounded := by simp [initial]
  executed := by simp [initial]
  phase := by
    refine ⟨rfl, rfl, rfl, ?_, ?_⟩
    · rintro (⟨n, h⟩ | h) <;> cases h
    · rintro n h
      cases h

/-! ### Steps that leave the log of responses alone -/

theorem Inv.of_quiet {s s' : State} (h : Inv s) (hr : s'.responses = s.responses)
    (hf : s'.finished = s.finished) (hn : s.requests ≤ s'.requests)
    (hx : ∀ c ∈ s'.executed, s'.server.command = some c ∨ ∃ r ∈ s.responses, r.command = some c)
    (hp : Phase s') : Inv s' where
  nodup := by
    rw [hr]
    exact h.nodup
  bounded r hm := (h.bounded r (hr ▸ hm)).trans hn
  addressed r hm := h.addressed r (hr ▸ hm)
  finishedBounded d hm := (h.finishedBounded d (hf ▸ hm)).trans hn
  executed := by
    rw [hr]
    exact hx
  phase := hp

theorem Inv.respond {s s' : State} (h : Inv s) (command : Option Command)
    (hr : s'.responses = ⟨s.requests, command, s.clientSock⟩ :: s.responses)
    (hunsent : ∀ r ∈ s.responses, r.request < s.requests)
    (ha : ∀ c, command = some c → s.clientSock = some c.connection)
    (hf : s'.finished = s.finished) (hn : s'.requests = s.requests)
    (hx : ∀ c ∈ s'.executed, s'.server.command = some c ∨ command = some c ∨
      ∃ r ∈ s.responses, r.command = some c)
    (hp : Phase s') : Inv s' where
  nodup := by
    rw [hr]
    refine List.nodup_cons.mpr ⟨fun hm => ?_, h.nodup⟩
    obtain ⟨r, hmem, heq⟩ := List.mem_map.mp hm
    exact absurd heq (hunsent r hmem).ne
  bounded r hm := by
    rw [hr] at hm
    rw [hn]
    rcases List.mem_cons.mp hm with rfl | hm
    · exact le_rfl
    · exact h.bounded r hm
  addressed r hm c hcom := by
    rw [hr] at hm
    rcases List.mem_cons.mp hm with rfl | hm
    · exact ha c hcom
    · exact h.addressed r hm c hcom
  finishedBounded d hm := (h.finishedBounded d (hf ▸ hm)).trans hn.ge
  executed c hm := by
    rw [hr]
    rcases hx c hm with hc | hc | ⟨r, hmem, hc⟩
    · exact .inl hc
    · exact .inr ⟨_, List.mem_cons_self, hc⟩
    · exact .inr ⟨r, List.mem_cons_of_mem _ hmem, hc⟩
  phase := hp

theorem Inv.executed_sent {s : State} (h : Inv s) (hc : s.server.command = none) :
    ∀ c ∈ s.executed, ∃ r ∈ s.responses, r.command = some c := by
  intro c hm
  refine (h.executed c hm).resolve_left ?_
  simp [hc]

theorem Inv.idle_step {s s' : State} (h : Inv s) (hc : s.server.command = none)
    (hr : s'.responses = s.responses) (hf : s'.finished = s.finished)
    (hx : s'.executed = s.executed) (hn : s.requests ≤ s'.requests) (hp : Phase s') : Inv s' := by
  refine h.of_quiet hr hf hn (fun c hm => ?_) hp
  exact .inr (h.executed_sent hc c (hx ▸ hm))

theorem Inv.command_step {s s' : State} (h : Inv s) {c : Command} (stage : Stage)
    (hc : s.server.command = some c)
    (hc' : s'.server.command = some c) (hr : s'.responses = s.responses)
    (hf : s'.finished = s.finished) (hx : ∀ d ∈ s'.executed, d = c ∨ d ∈ s.executed)
    (hn : s'.requests = s.requests) (ha : s'.server.Allows stage) (hs : Shows c stage s') :
    Inv s' := by
  refine h.of_quiet hr hf hn.ge (fun d hm => ?_) (phase_of_shows hc' ha hs)
  rcases hx d hm with rfl | hm
  · exact .inl hc'
  · have hd := h.executed d hm
    rwa [hc, ← hc'] at hd

/-! ### The server between two commands -/

theorem Idle.move {s s' : State} (h : Idle s) (ha : s'.accepted = s.accepted)
    (hf : s'.finisher = s.finisher) (hm : s'.mutex = s.mutex)
    (hr : ∀ n, s'.server ≠ .received n) (hj : s'.server ≠ .reject) : Idle s' where
  accepted := ha.trans h.accepted
  finisher := hf.trans h.finisher
  mutex := hm.trans h.mutex
  fresh := by
    rintro (⟨n, hn⟩ | hn)
    · exact absurd hn (hr n)
    · exact absurd hn hj
  sock n hn := absurd hn (hr n)

theorem Idle.of_recv {s : State} (hs : s.server = .recv) (ha : s.accepted = [])
    (hf : s.finisher = none) (hm : s.mutex = none) : Idle s where
  accepted := ha
  finisher := hf
  mutex := hm
  fresh := by
    rw [hs]
    rintro (⟨n, hn⟩ | hn) <;> cases hn
  sock := by
    simp [hs]

theorem Inv.fresh_next {s : State} (h : Inv s) :
    (∀ r ∈ s.responses, r.request < s.requests + 1) ∧ ∀ d ∈ s.finished, d.request < s.requests + 1 :=
  ⟨fun r hm => Nat.lt_succ_of_le (h.bounded r hm),
    fun d hm => Nat.lt_succ_of_le (h.finishedBounded d hm)⟩

theorem Inv.received {s : State} (h : Inv s) {n : ℕ} (hs : s.server = .recv)
    (hc : s.clientSock = some n) :
    Inv { s with server := .received n, requests := s.requests + 1 } := by
  have hi : Idle s := h.idle (by rw [hs]; rfl)
  have hp : Idle { s with server := .received n, requests := s.requests + 1 } := {
    accepted := hi.accepted
    finisher := hi.finisher
    mutex := hi.mutex
    fresh := fun _ => h.fresh_next
    sock := by
      intro m hm
      rw [Server.received.inj hm] at hc
      exact hc }
  exact h.idle_step (by rw [hs]; rfl) rfl rfl rfl (Nat.le_succ _) hp

theorem Inv.rejecting {s : State} (h : Inv s) (hs : s.server = .recv) (sock : Option ℕ) :
    Inv { s with server := .reject, clientSock := sock, requests := s.requests + 1 } := by
  have hi : Idle s := h.idle (by rw [hs]; rfl)
  have hp : Idle { s with server := .reject, clientSock := sock, requests := s.requests + 1 } := {
    accepted := hi.accepted
    finisher := hi.finisher
    mutex := hi.mutex
    fresh := fun _ => h.fresh_next
    sock := by
      intro m hm
      cases hm }
  exact h.idle_step (by rw [hs]; rfl) rfl rfl rfl (Nat.le_succ _) hp

theorem Inv.creating {s : State} (h : Inv s) {n : ℕ} (hs : s.server = .received n) :
    Inv { s with server := .lockClear ⟨s.requests, n⟩ } := by
  have hc : s.server.command = none := by rw [hs]; rfl
  have hi : Idle s := h.idle hc
  obtain ⟨hunsent, hunfinished⟩ := hi.fresh (.inl ⟨n, hs⟩)
  have hshows : Shows ⟨s.requests, n⟩ .created { s with server := .lockClear ⟨s.requests, n⟩ } := {
    request := rfl
    sock := hi.sock n hs
    accepted := hi.accepted
    finisher := hi.finisher
    flag := fun hne => absurd rfl hne
    unsent := fun _ => hunsent
    sent := fun hsent => hsent.elim
    unfinished := fun _ => hunfinished
    serverMutex := by simp [hi.mutex, Server.Locked]
    finisherMutex := by simp [hi.mutex, Stage.finisherLocked] }
  refine h.of_quiet rfl rfl le_rfl (fun c hm => .inr (h.executed_sent hc c hm)) ?_
  exact ⟨.created, rfl, hshows⟩

theorem Inv.rejected {s : State} (h : Inv s) (hs : s.server = .reject) :
    Inv { s.sendResponseToClient s.requests none with server := .close } := by
  have hc : s.server.command = none := by rw [hs]; rfl
  have hi : Idle s := h.idle hc
  obtain ⟨hunsent, -⟩ := hi.fresh (.inr hs)
  refine h.respond none rfl hunsent (by simp) rfl rfl (fun c hm => ?_) ?_
  · exact .inr (.inr (h.executed_sent hc c hm))
  · exact hi.move rfl rfl rfl (by simp) (by simp)

/-! ### The server within a command -/

theorem Inv.clearing {s : State} (h : Inv s) {c : Command} (hs : s.server = .lockClear c) :
    Inv { s with server := .clear c, mutex := some .server } := by
  obtain ⟨hc, stage, ha, hw⟩ := h.shows_at hs rfl
  cases ha
  refine h.command_step .created hc rfl rfl rfl (fun d hd => .inr hd) rfl rfl ?_
  exact { hw with
    serverMutex := by simp [Server.Locked]
    finisherMutex := by simp [Stage.finisherLocked] }

theorem Inv.cleared {s : State} (h : Inv s) {c : Command} (hs : s.server = .clear c) :
    Inv { s with server := .unlockClear c, canProcessCommands := false } := by
  obtain ⟨hc, stage, ha, hw⟩ := h.shows_at hs rfl
  cases ha
  refine h.command_step .armed hc rfl rfl rfl (fun d hd => .inr hd) rfl rfl ?_
  exact { hw with
    flag := fun _ => rfl
    unsent := fun _ => hw.unsent id
    sent := fun hsent => hsent.elim
    unfinished := fun _ => hw.unfinished (by simp)
    serverMutex := by
      have hmutex := hw.serverMutex
      rw [hs] at hmutex
      exact hmutex
    finisherMutex := hw.finisherMutex }

theorem Inv.armed {s : State} (h : Inv s) {c : Command} (hs : s.server = .unlockClear c) :
    Inv { s with server := .execute c false, mutex := none } := by
  obtain ⟨hc, stage, ha, hw⟩ := h.shows_at hs rfl
  cases ha
  refine h.command_step .armed hc rfl rfl rfl (fun d hd => .inr hd) rfl rfl ?_
  exact { hw with
    serverMutex := by simp [Server.Locked]
    finisherMutex := by simp [Stage.finisherLocked] }

theorem Shows.free {s : State} {c : Command} {stage : Stage} (h : Shows c stage s)
    (hs : ¬s.server.Locked) (hf : ¬stage.finisherLocked) : s.mutex = none := by
  cases hm : s.mutex with
  | none => rfl
  | some thread =>
    cases thread with
    | server => exact absurd (h.serverMutex.mp hm) hs
    | finisher => exact absurd (h.finisherMutex.mp hm) hf

theorem Inv.submitted {s : State} (h : Inv s) {c : Command} (hs : s.server = .execute c false) :
    Inv { s with server := .execute c true, accepted := s.accepted ++ [c] } := by
  obtain ⟨hc, stage, ha, hw⟩ := h.shows_at hs rfl
  cases ha
  have hfree : s.mutex = none := hw.free (by rw [hs]; exact id) id
  refine h.command_step .accepted hc rfl rfl rfl (fun d hd => .inr hd) rfl (.inl rfl) ?_
  exact { hw with
    accepted := by
      show s.accepted ++ [c] = [c]
      rw [hw.accepted]
      rfl
    flag := fun _ => hw.flag (by simp)
    unsent := fun _ => hw.unsent id
    sent := fun hsent => hsent.elim
    unfinished := fun _ => hw.unfinished (by simp)
    serverMutex := by simp [hfree, Server.Locked]
    finisherMutex := by simp [hfree, Stage.finisherLocked] }

theorem Inv.notifying {s : State} (h : Inv s) {c : Command} (hs : s.server = .execute c false) :
    Inv { s with server := .notify c .send } := by
  obtain ⟨hc, stage, ha, hw⟩ := h.shows_at hs rfl
  cases ha
  have hfree : s.mutex = none := hw.free (by rw [hs]; exact id) id
  refine h.command_step (.inside .send) hc rfl rfl rfl (fun d hd => .inr hd) rfl rfl ?_
  exact { hw with
    flag := fun _ => hw.flag (by simp)
    unsent := fun _ => hw.unsent id
    sent := fun hsent => hsent.elim
    unfinished := fun _ => hw.unfinished (by simp)
    serverMutex := by simp [hfree, Server.Locked, Callback.Locked]
    finisherMutex := by simp [hfree, Stage.finisherLocked] }

theorem Inv.refusing {s : State} (h : Inv s) {c : Command} (hs : s.server = .execute c false) :
    Inv { s with server := .refuse c } := by
  obtain ⟨hc, stage, ha, hw⟩ := h.shows_at hs rfl
  cases ha
  have hfree : s.mutex = none := hw.free (by rw [hs]; exact id) id
  refine h.command_step .armed hc rfl rfl rfl (fun d hd => .inr hd) rfl rfl ?_
  exact { hw with
    serverMutex := by simp [hfree, Server.Locked]
    finisherMutex := by simp [hfree, Stage.finisherLocked] }

theorem Inv.refused {s : State} (h : Inv s) {c : Command} (hs : s.server = .refuse c) :
    Inv { s.sendResponseToClient s.requests (some c) with server := .recv } := by
  obtain ⟨hc, stage, ha, hw⟩ := h.shows_at hs rfl
  cases ha
  have hfree : s.mutex = none := hw.free (by rw [hs]; exact id) id
  refine h.respond (some c) rfl (hw.unsent id) ?_ rfl rfl (fun d hm => ?_) ?_
  · rintro d hd
    cases hd
    exact hw.sock
  · rcases h.executed d hm with hd | hd
    · rw [hc] at hd
      exact .inr (.inl hd)
    · exact .inr (.inr hd)
  · exact Idle.of_recv rfl hw.accepted hw.finisher hfree

theorem Inv.executedTrue {s : State} (h : Inv s) {c : Command} {accepted : Bool}
    (hs : s.server = .execute c accepted) :
    Inv { s with server := .lockWait c, executed := c :: s.executed } := by
  obtain ⟨hc, stage, ha, hw⟩ := h.shows_at hs rfl
  have hallows : (Server.lockWait c).Allows stage := by
    cases accepted with
    | false =>
      cases ha
      exact ⟨by simp, by simp⟩
    | true => rcases ha with rfl | ⟨next, rfl⟩ | rfl <;> exact ⟨by simp, by simp⟩
  refine h.command_step stage hc rfl rfl rfl (fun d hd => List.mem_cons.mp hd) rfl hallows ?_
  have hmutex := hw.serverMutex
  rw [hs] at hmutex
  exact { hw with serverMutex := hmutex }

theorem Inv.waitLocked {s : State} (h : Inv s) {c : Command}
    (hs : s.server = .lockWait c ∨ s.server = .woken c) (hm : s.mutex = none) :
    Inv { s with server := .test c, mutex := some .server } := by
  have hc : s.server.command = some c := by rcases hs with hs | hs <;> rw [hs] <;> rfl
  obtain ⟨stage, ha, hw⟩ := h.shows hc
  have hopen : ¬stage.finisherLocked := fun hl => by
    have hmutex := hw.finisherMutex.mpr hl
    rw [hm] at hmutex
    cases hmutex
  have hallows : (Server.test c).Allows stage := by
    rcases hs with hs | hs <;> rw [hs] at ha <;> exact ⟨ha.1, ha.2, hopen⟩
  refine h.command_step stage hc rfl rfl rfl (fun d hd => .inr hd) rfl hallows ?_
  exact { hw with
    serverMutex := by simp [Server.Locked]
    finisherMutex := by simp [hopen] }

/-- The flag that the server finds under the mutex tells whether the notification is over. -/
theorem Shows.flag_iff {s : State} {c : Command} {stage : Stage} (h : Shows c stage s)
    (ha : (Server.test c).Allows stage) : s.canProcessCommands = true ↔ stage = .finished := by
  obtain ⟨hcreated, hinside, hopen⟩ := ha
  rw [h.flag hcreated]
  cases stage with
  | created => exact absurd rfl hcreated
  | armed => simp [Stage.flag]
  | accepted => simp [Stage.flag]
  | inside next => exact absurd rfl (hinside next)
  | finishing next =>
    cases next with
    | send => simp [Stage.flag, Callback.flag]
    | lock => simp [Stage.flag, Callback.flag]
    | set => exact absurd trivial hopen
    | signal => exact absurd trivial hopen
    | unlock => exact absurd trivial hopen
  | finished => exact iff_of_true rfl rfl

theorem Inv.waitOver {s : State} (h : Inv s) {c : Command} (hs : s.server = .test c)
    (hf : s.canProcessCommands = true) : Inv { s with server := .unlockWait c } := by
  obtain ⟨hc, stage, ha, hw⟩ := h.shows_at hs rfl
  have hstage : stage = .finished := (hw.flag_iff ha).mp hf
  refine h.command_step stage hc rfl rfl rfl (fun d hd => .inr hd) rfl hstage ?_
  have hmutex := hw.serverMutex
  rw [hs] at hmutex
  exact { hw with serverMutex := hmutex }

theorem Inv.blocked {s : State} (h : Inv s) {c : Command} (hs : s.server = .test c)
    (hf : s.canProcessCommands = false) : Inv { s with server := .wait c, mutex := none } := by
  obtain ⟨hc, stage, ha, hw⟩ := h.shows_at hs rfl
  have hopen : stage ≠ .finished := fun hstage => by
    rw [(hw.flag_iff ha).mpr hstage] at hf
    cases hf
  have hunlock : stage ≠ .finishing .unlock := by
    rintro rfl
    exact ha.2.2 trivial
  refine h.command_step stage hc rfl rfl rfl (fun d hd => .inr hd) rfl
    ⟨ha.1, ha.2.1, hunlock, hopen⟩ ?_
  exact { hw with
    serverMutex := by simp [Server.Locked]
    finisherMutex := by simp [ha.2.2] }

theorem Inv.wokenUp {s : State} (h : Inv s) {c : Command} (hs : s.server = .wait c) :
    Inv { s with server := .woken c } := by
  obtain ⟨hc, stage, ha, hw⟩ := h.shows_at hs rfl
  refine h.command_step stage hc rfl rfl rfl (fun d hd => .inr hd) rfl ⟨ha.1, ha.2.1⟩ ?_
  have hmutex := hw.serverMutex
  rw [hs] at hmutex
  exact { hw with serverMutex := hmutex }

theorem Inv.waitLeft {s : State} (h : Inv s) {c : Command} (hs : s.server = .unlockWait c) :
    Inv { s with server := .recv, mutex := none } := by
  obtain ⟨hc, stage, ha, hw⟩ := h.shows_at hs rfl
  cases ha
  refine h.of_quiet rfl rfl le_rfl (fun d hm => .inr ?_) ?_
  · rcases h.executed d hm with hd | hd
    · rw [hc] at hd
      cases hd
      exact hw.sent trivial
    · exact hd
  · exact Idle.of_recv rfl hw.accepted hw.finisher rfl

end Ritex.RequestLoop
