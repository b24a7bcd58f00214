import Ritex.CommandReplies
import Ritex.History

/-! The queue of pending commands: other threads add to it at any time (`SendCustomCmd`), the
processor takes from it, and every command it takes is handed to `ProcessCommand`, replied to and
notified once. -/
namespace Ritex
open Interaction

/-- The queue and what has happened to commands. -/
structure CommandWorld where
  pushed : List CustomCommand
  queue : List CustomCommand
  /-- The processor holds `m_cmdMutex`. -/
  locked : Bool
  log : List CommandEvent
  deriving DecidableEq

def CommandWorld.takeFront (front : Option CustomCommand) (s : CommandWorld) :
    Option CommandWorld :=
  if front = s.queue.head? then some { s with queue := s.queue.tail } else none

/-- The station, the clock and the memory answer as they like. -/
def CommandWorld.next : (o : Op) → CommandWorld → Res o → Option CommandWorld
  | .lockCmd, s, _ => if s.locked then none else some { s with locked := true }
  | .unlockCmd, s, _ => some { s with locked := false }
  | .popFront, s, front => s.takeFront front
  | .deleteFront, s, front => s.takeFront front
  | .command event, s, _ => some { s with log := s.log ++ [event] }
  | _, s, _ => some s

/-- `SendCustomCmd` of any thread. -/
def CommandWorld.push (c : CustomCommand) (s : CommandWorld) : Option CommandWorld :=
  if s.locked then none else some { s with pushed := s.pushed ++ [c], queue := s.queue ++ [c] }

def commandEnv : Env Op Res CommandWorld := Env.ofSteps CommandWorld.next CommandWorld.push

def CommandWorld.initial : CommandWorld := ⟨[], [], false, []⟩

/-! ### Calls of `ProcessCommand` -/

/-- A call of `ProcessCommand`: the reply it gives to its command and the text that the listeners
get. Success comes with a packet only. -/
structure Call where
  command : CustomCommand
  packet : Option DataPacket
  status : ErrorCode
  rawResult : String
  replied : Processor.Replied (packet, status)

def notification (c : CustomCommand) (rawResult : String) : List CommandEvent :=
  c.parentCommand.listeners.map (fun listener => .onResultReady c listener rawResult) ++ [.deleted c]

def Call.events (call : Call) : List CommandEvent :=
  .handedOver call.command :: .setReply call.command call.packet call.status ::
    (notification call.command call.rawResult ++ [.returned call.command])

/-- The events of a call until it returns. -/
def Call.untilReturn (call : Call) : List CommandEvent :=
  .handedOver call.command :: .setReply call.command call.packet call.status ::
    notification call.command call.rawResult

theorem Call.events_eq (call : Call) :
    call.events = call.untilReturn ++ [.returned call.command] := rfl

/-- The events of a call until its listeners are told. -/
def Call.untilReply (call : Call) : List CommandEvent :=
  [.handedOver call.command, .setReply call.command call.packet call.status]

def handed (log : List CommandEvent) : List CustomCommand :=
  log.filterMap fun
    | .handedOver c => some c
    | _ => none

/-- The log consists of whole calls and of what has happened so far in one more. -/
def OneReplyEach (log : List CommandEvent) : Prop :=
  ∃ (calls : List Call) (current : List CommandEvent),
    log = calls.flatMap Call.events ++ current ∧
      (current = [] ∨ ∃ call : Call, current <+: call.events)

/-- A call that has returned leaves all its events behind, from the hand-over on. -/
def ReturnsReplied (log : List CommandEvent) : Prop :=
  ∀ (before after : List CommandEvent) (c : CustomCommand), log = before ++ .returned c :: after →
    ∃ call : Call, call.command = c ∧ call.untilReturn <:+ before

theorem handed_append (xs ys : List CommandEvent) : handed (xs ++ ys) = handed xs ++ handed ys :=
  List.filterMap_append

theorem handed_notification (c : CustomCommand) (rawResult : String) :
    handed (notification c rawResult) = [] := by
  unfold handed notification
  simp

theorem handed_events (call : Call) : handed call.events = [call.command] := by
  have hnotification := handed_notification call.command call.rawResult
  unfold handed at hnotification ⊢
  simp [Call.events, hnotification]

theorem handed_calls (calls : List Call) :
    handed (calls.flatMap Call.events) = calls.map Call.command := by
  induction calls with
  | nil => rfl
  | cons call calls ih =>
    rw [List.flatMap_cons, handed_append, handed_events, ih]
    rfl

theorem handed_part {call : Call} {current : List CommandEvent} (h : current <+: call.events) :
    handed current <+: [call.command] := by
  rw [← handed_events call]
  exact h.filterMap _

theorem Call.returned_not_mem (call : Call) (c : CustomCommand) :
    .returned c ∉ call.untilReturn := by
  simp [Call.untilReturn, notification]

theorem Call.split_returned {call : Call} {before after rest : List CommandEvent}
    {c : CustomCommand} (h : call.events ++ rest = before ++ .returned c :: after) :
    (call.command = c ∧ before = call.untilReturn) ∨
      ∃ between, before = call.events ++ between ∧ rest = between ++ .returned c :: after := by
  rw [call.events_eq, List.append_assoc, List.singleton_append] at h
  rcases List.append_eq_append_iff.mp h with ⟨between, rfl, hrest⟩ | ⟨front, hfront, hrest⟩
  · cases between with
    | nil =>
      cases hrest
      exact .inl ⟨rfl, List.append_nil _⟩
    | cons event between =>
      cases hrest
      exact .inr ⟨between, by rw [call.events_eq, List.append_assoc]; rfl, rfl⟩
  · cases front with
    | nil =>
      cases hrest
      exact .inl ⟨rfl, (hfront.trans (List.append_nil _)).symm⟩
    | cons event front =>
      cases hrest
      refine absurd ?_ (call.returned_not_mem c)
      rw [hfront]
      exact List.mem_append_right _ List.mem_cons_self

theorem OneReplyEach.returnsReplied {log : List CommandEvent} (h : OneReplyEach log) :
    ReturnsReplied log := by
  obtain ⟨calls, current, rfl, hcurrent⟩ := h
  intro before after c hlog
  induction calls generalizing before with
  | nil =>
    rw [List.flatMap_nil, List.nil_append] at hlog
    rcases hcurrent with rfl | ⟨call, rest, hrest⟩
    · exact absurd hlog (by simp)
    · rw [hlog, List.append_assoc] at hrest
      have hevents : call.events ++ [] = before ++ .returned c :: (after ++ rest) :=
        (List.append_nil _).trans hrest.symm
      rcases Call.split_returned hevents with ⟨hc, rfl⟩ | ⟨between, -, hnil⟩
      · exact ⟨call, hc, List.suffix_rfl⟩
      · exact absurd hnil (by simp)
  | cons call calls ih =>
    rw [List.flatMap_cons, List.append_assoc] at hlog
    rcases Call.split_returned hlog with ⟨hc, rfl⟩ | ⟨between, rfl, hrest⟩
    · exact ⟨call, hc, List.suffix_rfl⟩
    · obtain ⟨replied, hc, hsuffix⟩ := ih _ hrest
      exact ⟨replied, hc, hsuffix.trans (List.suffix_append _ _)⟩

/-! ### Invariants -/

/-- Between two calls the rest of the commands is in the queue. -/
def Between (s : CommandWorld) : Prop :=
  ∃ calls : List Call, s.log = calls.flatMap Call.events ∧
    s.pushed = calls.map Call.command ++ s.queue

/-- The command `c` is in the processor's hands and `current` has happened to it. -/
def Within (c : CustomCommand) (current : List CommandEvent) (s : CommandWorld) : Prop :=
  ∃ calls : List Call, s.log = calls.flatMap Call.events ++ current ∧
    s.pushed = calls.map Call.command ++ c :: s.queue

def Clearing (s : CommandWorld) : Prop :=
  ∃ calls : List Call, s.log = calls.flatMap Call.events ∧ calls.map Call.command <+: s.pushed

def CommandInv (s : CommandWorld) : Prop := handed s.log <+: s.pushed ∧ OneReplyEach s.log

theorem exists_call (c : CustomCommand) : ∃ call : Call, call.command = c :=
  ⟨⟨c, none, .timeout, "", fun h => by cases h⟩, rfl⟩

theorem Clearing.inv {s : CommandWorld} (h : Clearing s) : CommandInv s := by
  obtain ⟨calls, hlog, hpushed⟩ := h
  refine ⟨?_, calls, [], ?_, .inl rfl⟩
  · rwa [hlog, handed_calls]
  · rw [hlog, List.append_nil]

theorem Between.clearing {s : CommandWorld} (h : Between s) : Clearing s := by
  obtain ⟨calls, hlog, hpushed⟩ := h
  exact ⟨calls, hlog, hpushed ▸ List.prefix_append _ _⟩

theorem Within.inv {s : CommandWorld} {call : Call} {current : List CommandEvent}
    (h : Within call.command current s) (hcurrent : current <+: call.events) : CommandInv s := by
  obtain ⟨calls, hlog, hpushed⟩ := h
  refine ⟨?_, calls, current, hlog, .inr ⟨call, hcurrent⟩⟩
  rw [hlog, hpushed, handed_append, handed_calls]
  refine (List.prefix_append_right_inj _).mpr ((handed_part hcurrent).trans ?_)
  exact ⟨s.queue, rfl⟩

theorem Within.done {s : CommandWorld} (call : Call)
    (h : Within call.command call.events s) : Between s := by
  obtain ⟨calls, hlog, hpushed⟩ := h
  refine ⟨calls ++ [call], ?_, ?_⟩
  · rw [hlog, List.flatMap_append, List.flatMap_singleton]
  · rw [hpushed, List.map_append, List.append_assoc]
    rfl

/-! ### Pushes and operations -/

theorem commandEnv_drift {s s' : CommandWorld} (hd : commandEnv.drift s s') :
    ∃ c, s' = { s with pushed := s.pushed ++ [c], queue := s.queue ++ [c] } := by
  obtain ⟨c, hpush⟩ := hd
  unfold CommandWorld.push at hpush
  split at hpush
  · cases hpush
  · exact ⟨c, (Option.some.inj hpush).symm⟩

theorem CommandWorld.takeFront_eq_some {s s' : CommandWorld} {front : Option CustomCommand}
    (h : s.takeFront front = some s') :
    front = s.queue.head? ∧ s' = { s with queue := s.queue.tail } := by
  unfold takeFront at h
  split at h
  next hfront => exact ⟨hfront, (Option.some.inj h).symm⟩
  next => cases h

theorem CommandWorld.next_empty {o : Op} {s : CommandWorld} {r : Res o} {s' : CommandWorld}
    (h : CommandWorld.next o s r = some s') (hs : s.queue = []) : s'.queue = [] := by
  cases o with
  | popFront | deleteFront =>
    obtain ⟨-, rfl⟩ := takeFront_eq_some h
    exact congrArg List.tail hs
  | lockCmd =>
    obtain ⟨-, hs'⟩ := Option.ite_none_left_eq_some.mp h
    cases hs'
    exact hs
  | _ =>
    cases h
    exact hs

theorem Between.push {s s' : CommandWorld} (h : Between s) (hd : commandEnv.drift s s') :
    Between s' := by
  obtain ⟨calls, hlog, hpushed⟩ := h
  obtain ⟨c, rfl⟩ := commandEnv_drift hd
  refine ⟨calls, hlog, ?_⟩
  show s.pushed ++ [c] = _ ++ (s.queue ++ [c])
  rw [hpushed, List.append_assoc]

theorem Within.push {c : CustomCommand} {current : List CommandEvent} {s s' : CommandWorld}
    (h : Within c current s) (hd : commandEnv.drift s s') : Within c current s' := by
  obtain ⟨calls, hlog, hpushed⟩ := h
  obtain ⟨d, rfl⟩ := commandEnv_drift hd
  refine ⟨calls, hlog, ?_⟩
  show s.pushed ++ [d] = _ ++ c :: (s.queue ++ [d])
  rw [hpushed, List.append_assoc]
  rfl

theorem Clearing.push {s s' : CommandWorld} (h : Clearing s) (hd : commandEnv.drift s s') :
    Clearing s' := by
  obtain ⟨calls, hlog, hpushed⟩ := h
  obtain ⟨d, rfl⟩ := commandEnv_drift hd
  exact ⟨calls, hlog, hpushed.trans (List.prefix_append _ _)⟩

def KeepsCommands (o : Op) : Prop :=
  ∀ s r s', CommandWorld.next o s r = some s' →
    s'.log = s.log ∧ s'.queue = s.queue ∧ s'.pushed = s.pushed

theorem keepsCommands_of {o : Op} (hpop : o ≠ .popFront) (hdelete : o ≠ .deleteFront)
    (hcommand : ∀ event, o ≠ .command event) : KeepsCommands o := by
  intro s r s' ha
  cases o with
  | popFront => exact absurd rfl hpop
  | deleteFront => exact absurd rfl hdelete
  | command event => exact absurd rfl (hcommand event)
  | lockCmd =>
    rw [CommandWorld.next] at ha
    split at ha
    · cases ha
    · cases ha
      exact ⟨rfl, rfl, rfl⟩
  | _ =>
    cases ha
    exact ⟨rfl, rfl, rfl⟩

theorem keepsCommands_local (o : Op) (ho : o.Local) : KeepsCommands o := by
  cases o with
  | popFront | deleteFront | command event => exact ho.elim
  | _ => exact keepsCommands_of (by simp) (by simp) (by simp)

theorem keepsCommands_ordinary (o : Op) (ho : o.Ordinary) : KeepsCommands o :=
  keepsCommands_local o ho.1

theorem Between.keep {o : Op} (ho : KeepsCommands o) (s : CommandWorld) (r : Res o)
    (s' : CommandWorld) (h : Between s) (ha : CommandWorld.next o s r = some s') : Between s' := by
  obtain ⟨hlog, hqueue, hpushed⟩ := ho s r s' ha
  unfold Between
  rw [hlog, hqueue, hpushed]
  exact h

theorem Within.keep {c : CustomCommand} {current : List CommandEvent} {o : Op}
    (ho : KeepsCommands o) (s : CommandWorld) (r : Res o) (s' : CommandWorld)
    (h : Within c current s) (ha : CommandWorld.next o s r = some s') : Within c current s' := by
  obtain ⟨hlog, hqueue, hpushed⟩ := ho s r s' ha
  unfold Within
  rw [hlog, hqueue, hpushed]
  exact h

theorem Clearing.keep {o : Op} (ho : KeepsCommands o) (s : CommandWorld) (r : Res o)
    (s' : CommandWorld) (h : Clearing s) (ha : CommandWorld.next o s r = some s') :
    Clearing s' := by
  obtain ⟨hlog, -, hpushed⟩ := ho s r s' ha
  unfold Clearing
  rw [hlog, hpushed]
  exact h

abbrev Handles {α : Type} (x : ProcessorM α) (Q : α → CommandWorld → Prop) (s : CommandWorld) :
    Prop :=
  x.Safe commandEnv CommandInv Q s

theorem Between.only_ensures {α : Type} {x : ProcessorM α} (hx : x.Only KeepsCommands)
    {Q : α → Prop} (hq : x.Ensures Q) {s : CommandWorld} (h : Between s) :
    Handles x (fun a s' => Q a ∧ Between s') s :=
  hx.safe_ensures hq (fun _ h => h.clearing.inv) (fun _ _ h hp => h.push hp)
    (fun _ ho s r s' h ha => h.keep ho s r s' ha) h

theorem Between.only {α : Type} {x : ProcessorM α} (hx : x.Only KeepsCommands) {s : CommandWorld}
    (h : Between s) : Handles x (fun _ => Between) s :=
  (h.only_ensures hx x.ensures_trivial).mono fun _ _ h => h.2

theorem Within.only {current : List CommandEvent} {s : CommandWorld} (call : Call)
    (h : Within call.command current s) (hcurrent : current <+: call.events) {α : Type}
    {x : ProcessorM α} (hx : x.Only KeepsCommands) {Q : α → Prop} (hq : x.Ensures Q) :
    Handles x (fun a s' => Q a ∧ Within call.command current s') s :=
  hx.safe_ensures hq (fun _ h => h.inv hcurrent) (fun _ _ h hp => h.push hp)
    (fun _ ho s r s' h ha => h.keep ho s r s' ha) h

theorem Within.crash {current : List CommandEvent} {s : CommandWorld} (call : Call)
    (h : Within call.command current s) (hcurrent : current <+: call.events) {α : Type}
    {Q : α → CommandWorld → Prop} : Handles (Processor.crash : ProcessorM α) Q s := by
  intro s₁ hd r s₂ ha
  have h₁ : Within call.command current s₁ :=
    Prog.drift_invariant (fun _ _ h hp => h.push hp) hd h
  exact ⟨(Within.keep (keepsCommands_local .crash trivial) s₁ r s₂ h₁ ha).inv hcurrent, trivial⟩

theorem Within.command {current : List CommandEvent} {s : CommandWorld} (call : Call)
    (h : Within call.command current s) {event : CommandEvent}
    (hcurrent : current ++ [event] <+: call.events) :
    Handles (Processor.command event) (fun _ => Within call.command (current ++ [event])) s := by
  intro s₁ hd r s₂ ha
  obtain ⟨calls, hlog, hpushed⟩ : Within call.command current s₁ :=
    Prog.drift_invariant (fun _ _ h hp => h.push hp) hd h
  cases ha
  have hwithin : Within call.command (current ++ [event])
      { s₁ with log := s₁.log ++ [event] } := by
    refine ⟨calls, ?_, hpushed⟩
    show s₁.log ++ [event] = _
    rw [hlog, List.append_assoc]
  exact ⟨hwithin.inv hcurrent, hwithin⟩

namespace Processor

/-- The listeners are told the result. -/
def tellings (c : CustomCommand) (rawResult : String) (listeners : List ℕ) : List CommandEvent :=
  listeners.map fun listener => .onResultReady c listener rawResult

theorem notifyListeners_handles (call : Call) (rawResult : String) (listeners : List ℕ)
    {current rest : List CommandEvent}
    (hcurrent : call.events = current ++ (tellings call.command rawResult listeners ++ rest))
    {s : CommandWorld} (h : Within call.command current s) :
    Handles (notifyListeners call.command rawResult listeners)
      (fun _ => Within call.command (current ++ tellings call.command rawResult listeners)) s := by
  induction listeners generalizing current s with
  | nil => simpa [notifyListeners, Prog.Safe, tellings] using h
  | cons listener listeners ih =>
    have hnext : call.events = current ++ [CommandEvent.onResultReady call.command listener rawResult] ++
        (tellings call.command rawResult listeners ++ rest) := by
      rw [hcurrent]
      simp [tellings]
    refine (h.command call ⟨_, hnext.symm⟩).bind fun _ s₁ h₁ => ?_
    refine (ih hnext h₁).mono fun _ s₂ h₂ => ?_
    simpa [tellings] using h₂

theorem notifyResultReady_handles (call : Call) {s : CommandWorld}
    (h : Within call.command call.untilReply s) :
    Handles (notifyResultReady call.command call.rawResult)
      (fun _ => Within call.command
        (call.untilReply ++ notification call.command call.rawResult)) s := by
  unfold notifyResultReady
  have hevents : call.events = call.untilReply ++
      (tellings call.command call.rawResult call.command.parentCommand.listeners ++
        [CommandEvent.deleted call.command, CommandEvent.returned call.command]) := by
    simp [Call.events, Call.untilReply, notification, tellings]
  have hnotify := notifyListeners_handles call _ _ hevents h
  refine hnotify.bind fun _ s₁ h₁ => ?_
  refine (h₁.command call ⟨[.returned call.command], ?_⟩).mono fun _ s₂ h₂ => ?_
  · rw [hevents]
    simp
  · rwa [List.append_assoc] at h₂

end Processor

end Ritex
