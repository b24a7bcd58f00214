import Ritex.Daemonization

/-! The pipes between the parent, the child and the grandchild. In every order of their steps the parent
learns what the others wrote, and it never waits for ever. -/
namespace Ritex.Gateway
open Interaction

inductive DaemonRole
  | parent
  | child
  | grandchild
  deriving DecidableEq

namespace DaemonRole

def fork : DaemonRole → DaemonRole
  | .parent => .child
  | _ => .grandchild

def writes : DaemonRole → Option PipeName
  | .parent => none
  | .child => some .child
  | .grandchild => some .grandchild

end DaemonRole

/-- What a process has done since it was forked, and the ends of the pipes that it has open. -/
structure DaemonView where
  role : DaemonRole
  forks : ℕ
  holds : PipeName → PipeEnd → Bool
  wrote : PipeName → List Text
  got : PipeName → Option Text
  done : List DaemonCall
  hasFailed : Bool
  isLawful : Bool

namespace DaemonView

def initial : DaemonView := ⟨.parent, 0, fun _ _ => false, fun _ => [], fun _ => none, [], false, true⟩

/-- Pipes are made before the fork and read once behind it, and each process writes on its own. -/
def allowed (v : DaemonView) : Interaction.Event DaemonOp DaemonRes → Bool
  | ⟨.pipe _, _⟩ => v.role = .parent && v.forks = 0
  | ⟨.fork, _⟩ => v.role ≠ .grandchild && v.forks = 0
  | ⟨.read p, _⟩ => v.role = .parent && v.forks = 1 && v.holds p .reader && !v.holds p .writer &&
      (v.got p).isNone
  | ⟨.write p _, none⟩ => v.role.writes = some p
  | _ => true

def failed (v : DaemonView) : DaemonView := { v with hasFailed := true }

def without (holds : PipeName → PipeEnd → Bool) (p : PipeName) (e : PipeEnd) : PipeName → PipeEnd → Bool :=
  Function.update holds p (Function.update (holds p) e false)

/-- An end that is closed, with an error or without. -/
def closed (v : DaemonView) (p : PipeName) (e : PipeEnd) : DaemonView :=
  { v with holds := without v.holds p e }

def effect (v : DaemonView) : Interaction.Event DaemonOp DaemonRes → DaemonView
  | ⟨.pipe p, none⟩ => { v with holds := Function.update v.holds p fun _ => true }
  | ⟨.fork, .parent⟩ => { v with forks := v.forks + 1 }
  | ⟨.fork, .child⟩ => { v with role := v.role.fork, forks := 0, done := [] }
  | ⟨.close p e, none⟩ => v.closed p e
  | ⟨.close p e, some _⟩ => (v.closed p e).failed
  | ⟨.read p, .ok reply⟩ => { v with got := Function.update v.got p (some reply) }
  | ⟨.write p text, none⟩ => { v with wrote := Function.update v.wrote p (v.wrote p ++ [text]) }
  | ⟨.call c, none⟩ => { v with done := v.done ++ [c] }
  | ⟨.body, none⟩ => v
  | ⟨.fork, .failed _⟩ => v.failed
  | ⟨.pipe _, some _⟩ => v.failed
  | ⟨.read _, .error _⟩ => v.failed
  | ⟨.write _ _, some _⟩ => v.failed
  | ⟨.call _, some _⟩ => v.failed
  | ⟨.body, some _⟩ => v.failed

def next (v : DaemonView) (e : Interaction.Event DaemonOp DaemonRes) : DaemonView :=
  { v.effect e with isLawful := v.isLawful && v.allowed e }

/-- Nothing can be written on an end that is closed. -/
def Answered (v : DaemonView) : Interaction.Event DaemonOp DaemonRes → Prop
  | ⟨.write p _, none⟩ => v.holds p .writer = true
  | _ => True

/-- What the process with this pipe writes: `ok` when it is `ready`, or the text of an exception. -/
structure Reports (v : DaemonView) (p : PipeName) (ready : List DaemonCall) : Prop where
  wrote : v.wrote p = [] ∨ (v.wrote p = [Daemon.ok] ∧ v.done = ready) ∨
    ∃ e, v.wrote p = [Daemon.message e] ∧ v.hasFailed = true
  closes : v.hasFailed = false → v.holds p .writer = false → v.wrote p = [Daemon.ok]

def childReady : List DaemonCall := Daemon.sessionCalls ++ [.waitpid]

structure Sound (v : DaemonView) : Prop where
  lawful : v.isLawful = true
  silent : ∀ p, v.role.writes ≠ some p → v.wrote p = []
  asks : ∀ p, v.got p ≠ none → v.role = .parent ∧ v.forks = 1
  child : v.role = .child → v.Reports .child childReady
  forks : v.role = .child → v.hasFailed = false → v.holds .grandchild .writer = false → v.forks = 1
  grandchild : v.role = .grandchild → v.Reports .grandchild Daemon.initCalls

end DaemonView

def handshake : RelyGuarantee DaemonOp DaemonRes DaemonView :=
  ⟨DaemonView.next, DaemonView.Answered, DaemonView.Sound⟩

abbrev Keeps {α : Type} (x : DaemonM α) (Q : Except Thrown α → DaemonView → Prop) (v : DaemonView) :
    Prop :=
  x.run.Meets handshake Q v

namespace Keeps

variable {α β : Type} {x : DaemonM α} {v : DaemonView}

theorem bind {f : α → DaemonM β} {P : Except Thrown α → DaemonView → Prop}
    {Q : Except Thrown β → DaemonView → Prop} (hx : Keeps x P v)
    (hok : ∀ a v, P (.ok a) v → Keeps (f a) Q v) (herror : ∀ e v, P (.error e) v → Q (.error e) v) :
    Keeps (x >>= f) Q v := by
  refine Prog.Meets.bind hx fun r v hr => ?_
  cases r with
  | ok a => exact hok a v hr
  | error e => exact herror e v hr

theorem tryCatch {h : Thrown → DaemonM α} {P Q : Except Thrown α → DaemonView → Prop}
    (hx : Keeps x P v) (hok : ∀ a v, P (.ok a) v → Q (.ok a) v)
    (herror : ∀ e v, P (.error e) v → Keeps (h e) Q v) :
    Keeps (MonadExcept.tryCatch x h) Q v := by
  refine Prog.Meets.bind hx fun r v hr => ?_
  cases r with
  | ok a => exact hok a v hr
  | error e => exact herror e v hr

end Keeps

/-! ### What the processes keep -/

namespace DaemonView

def fresh (role : DaemonRole) (forks : ℕ) (holds : PipeName → PipeEnd → Bool) (done : List DaemonCall) :
    DaemonView :=
  ⟨role, forks, holds, fun _ => [], fun _ => none, done, false, true⟩

variable {v : DaemonView} {role : DaemonRole} {forks : ℕ} {holds : PipeName → PipeEnd → Bool}
  {done : List DaemonCall}

theorem fresh_reports {p : PipeName} (hp : holds p .writer = true) (ready : List DaemonCall) :
    (fresh role forks holds done).Reports p ready :=
  ⟨.inl rfl, fun _ hclosed => absurd (hp.symm.trans hclosed) (by decide)⟩

theorem fresh_sound (hown : ∀ p, role.writes = some p → holds p .writer = true)
    (hfork : role = .child → holds .grandchild .writer = false → forks = 1) :
    (fresh role forks holds done).Sound where
  lawful := rfl
  silent _ _ := rfl
  asks _ hgot := absurd rfl hgot
  child hrole := fresh_reports (hown .child (by rw [show role = .child from hrole]; rfl)) _
  forks hrole _ := hfork hrole
  grandchild hrole := fresh_reports (hown .grandchild (by rw [show role = .grandchild from hrole]; rfl)) _

/-- A call has failed before the process has written anything. -/
structure Failed (role : DaemonRole) (v : DaemonView) : Prop where
  plays : v.role = role
  wrote : ∀ p, v.wrote p = []
  got : ∀ p, v.got p = none
  hasFailed : v.hasFailed = true
  lawful : v.isLawful = true

theorem Failed.reports (h : v.Failed role) (p : PipeName) (ready : List DaemonCall) :
    v.Reports p ready :=
  ⟨.inl (h.wrote p), fun hfailed => absurd (h.hasFailed.symm.trans hfailed) (by decide)⟩

theorem Failed.sound (h : v.Failed role) : v.Sound where
  lawful := h.lawful
  silent p _ := h.wrote p
  asks p hgot := absurd (h.got p) hgot
  child _ := h.reports _ _
  forks _ hfailed := absurd (h.hasFailed.symm.trans hfailed) (by decide)
  grandchild _ := h.reports _ _

/-- The process has said what it had to. -/
structure Over (role : DaemonRole) (v : DaemonView) : Prop where
  sound : v.Sound
  plays : v.role = role
  wrote : v.hasFailed = false → ∀ p, role.writes = some p → v.wrote p = [Daemon.ok]
  forks : v.hasFailed = false → role = .child → v.forks = 1
  shut : role = .grandchild → v.holds .child .writer = false

theorem Failed.over (h : v.Failed role) (hshut : role = .grandchild → v.holds .child .writer = false) :
    v.Over role where
  sound := h.sound
  plays := h.plays
  wrote hfailed := absurd (h.hasFailed.symm.trans hfailed) (by decide)
  forks hfailed := absurd (h.hasFailed.symm.trans hfailed) (by decide)
  shut := hshut

@[simp] theorem next_close_none (p : PipeName) (e : PipeEnd) :
    v.next ⟨.close p e, none⟩ = v.closed p e := by
  simp [next, effect, allowed, DaemonView.closed]

@[simp] theorem next_close_some (p : PipeName) (e : PipeEnd) (t : Thrown) :
    v.next ⟨.close p e, some t⟩ = (v.closed p e).failed := by
  simp [next, effect, allowed, DaemonView.closed, DaemonView.failed]

@[simp] theorem closed_holds_self (p : PipeName) (e : PipeEnd) : (v.closed p e).holds p e = false := by
  simp [DaemonView.closed, without]

theorem Over.closed (h : v.Over role) (p : PipeName) (e : PipeEnd) : (v.closed p e).Over role := by
  refine ⟨⟨h.sound.lawful, h.sound.silent, h.sound.asks, fun hrole => ?_, fun hrole hfailed _ => ?_,
    fun hrole => ?_⟩, h.plays, h.wrote, h.forks, fun hrole => ?_⟩
  · have hwrote (hfailed : v.hasFailed = false) : v.wrote .child = [Daemon.ok] :=
      h.wrote hfailed .child (by rw [← h.plays, show v.role = .child from hrole]; rfl)
    exact ⟨(h.sound.child hrole).wrote, fun hfailed _ => hwrote hfailed⟩
  · exact h.forks hfailed (h.plays.symm.trans hrole)
  · have hwrote (hfailed : v.hasFailed = false) : v.wrote .grandchild = [Daemon.ok] :=
      h.wrote hfailed .grandchild (by rw [← h.plays, show v.role = .grandchild from hrole]; rfl)
    exact ⟨(h.sound.grandchild hrole).wrote, fun hfailed _ => hwrote hfailed⟩
  · have hshut := h.shut hrole
    show without v.holds p e .child .writer = false
    cases p <;> cases e <;> simp [without, Function.update, hshut]

@[simp] theorem next_write_some (p : PipeName) (text : Text) (e : Thrown) :
    v.next ⟨.write p text, some e⟩ = v.failed := by
  simp [next, effect, allowed, DaemonView.failed]

@[simp] theorem next_body_none : v.next ⟨.body, none⟩ = v := by
  simp [next, effect, allowed]

@[simp] theorem next_body_some (e : Thrown) : v.next ⟨.body, some e⟩ = v.failed := by
  simp [next, effect, allowed, DaemonView.failed]

theorem Reports.failed {p : PipeName} {ready : List DaemonCall} (h : v.Reports p ready) :
    v.failed.Reports p ready := by
  refine ⟨?_, nofun⟩
  rcases h.wrote with hnone | hready | ⟨e, hwrote, -⟩
  · exact .inl hnone
  · exact .inr (.inl hready)
  · exact .inr (.inr ⟨e, hwrote, rfl⟩)

theorem Over.failed (h : v.Over role) : v.failed.Over role where
  sound := ⟨h.sound.lawful, h.sound.silent, h.sound.asks, fun hrole => (h.sound.child hrole).failed,
    fun _ => nofun, fun hrole => (h.sound.grandchild hrole).failed⟩
  plays := h.plays
  wrote := nofun
  forks := nofun
  shut := h.shut

theorem Over.close (h : v.Over role) (p : PipeName) (e : PipeEnd) (r : Option Thrown) :
    (v.next ⟨.close p e, r⟩).Over role := by
  cases r with
  | none =>
    rw [next_close_none]
    exact h.closed p e
  | some t =>
    rw [next_close_some]
    exact (h.closed p e).failed

/-- The exception is written. -/
theorem Failed.report (h : v.Failed role) {p : PipeName} (hp : role.writes = some p)
    (hshut : role = .grandchild → v.holds .child .writer = false) (e : Thrown) :
    (v.next ⟨.write p (Daemon.message e), none⟩).Over role := by
  have hwrites : v.role.writes = some p := by rw [h.plays, hp]
  have hnext : v.next ⟨.write p (Daemon.message e), none⟩ =
      { v with wrote := Function.update v.wrote p [Daemon.message e] } := by
    simp [next, effect, allowed, hwrites, h.wrote]
  have hreports (ready : List DaemonCall) :
      ({ v with wrote := Function.update v.wrote p [Daemon.message e] } : DaemonView).Reports p ready :=
    ⟨.inr (.inr ⟨e, Function.update_self .., h.hasFailed⟩), fun hfailed =>
      absurd (h.hasFailed.symm.trans hfailed) (by decide)⟩
  rw [hnext]
  refine ⟨⟨h.lawful, fun q hq => ?_, h.sound.asks, fun hrole => ?_, fun _ hfailed => ?_, fun hrole => ?_⟩,
    h.plays, fun hfailed => ?_, fun hfailed => ?_, hshut⟩
  · rw [← h.wrote q]
    refine Function.update_of_ne (fun hqp => hq ?_) _ _
    rw [hqp]
    exact hwrites
  · obtain rfl : .child = p := Option.some.inj ((congrArg DaemonRole.writes hrole).symm.trans hwrites)
    exact hreports _
  · exact absurd (h.hasFailed.symm.trans hfailed) (by decide)
  · obtain rfl : .grandchild = p := Option.some.inj ((congrArg DaemonRole.writes hrole).symm.trans hwrites)
    exact hreports _
  · exact absurd (h.hasFailed.symm.trans hfailed) (by decide)
  · exact absurd (h.hasFailed.symm.trans hfailed) (by decide)

end DaemonView

/-! ### The operations -/

section Operations

variable {v : DaemonView}

variable {α : Type}

theorem keeps_ret {a : α} {Q : Except Thrown α → DaemonView → Prop} (h : Q (.ok a) v) :
    Keeps (pure a) Q v :=
  h

theorem read_keeps {Q : Except Thrown Text → DaemonView → Prop} {p : PipeName}
    (hok : ∀ reply, (v.next ⟨.read p, .ok reply⟩).Sound ∧ Q (.ok reply) (v.next ⟨.read p, .ok reply⟩))
    (herror : ∀ e, (v.next ⟨.read p, .error e⟩).Sound ∧ Q (.error e) (v.next ⟨.read p, .error e⟩)) :
    Keeps (Daemon.read p) Q v := by
  intro r _
  cases r with
  | ok reply => exact hok reply
  | error e => exact herror e

variable {Q : Except Thrown Unit → DaemonView → Prop}

theorem pipe_keeps {p : PipeName}
    (hok : (v.next ⟨.pipe p, none⟩).Sound ∧ Q (.ok ()) (v.next ⟨.pipe p, none⟩))
    (herror : ∀ e, (v.next ⟨.pipe p, some e⟩).Sound ∧ Q (.error e) (v.next ⟨.pipe p, some e⟩)) :
    Keeps (Daemon.pipe p) Q v := by
  intro r _
  cases r with
  | none => exact hok
  | some e => exact herror e

theorem close_keeps {p : PipeName} {e : PipeEnd}
    (hok : (v.next ⟨.close p e, none⟩).Sound ∧ Q (.ok ()) (v.next ⟨.close p e, none⟩))
    (herror : ∀ t, (v.next ⟨.close p e, some t⟩).Sound ∧ Q (.error t) (v.next ⟨.close p e, some t⟩)) :
    Keeps (Daemon.close p e) Q v := by
  intro r _
  cases r with
  | none => exact hok
  | some t => exact herror t

theorem destroy_keeps {p : PipeName} {e : PipeEnd}
    (h : ∀ r, (v.next ⟨.close p e, r⟩).Sound ∧ Q (.ok ()) (v.next ⟨.close p e, r⟩)) :
    Keeps (Daemon.destroy p e) Q v :=
  fun r _ => h r

theorem write_keeps {p : PipeName} {text : Text}
    (hok : v.holds p .writer = true → (v.next ⟨.write p text, none⟩).Sound ∧
      Q (.ok ()) (v.next ⟨.write p text, none⟩))
    (herror : ∀ e, (v.next ⟨.write p text, some e⟩).Sound ∧
      Q (.error e) (v.next ⟨.write p text, some e⟩)) : Keeps (Daemon.write p text) Q v := by
  intro r hr
  cases r with
  | none => exact hok hr
  | some e => exact herror e

theorem call_keeps {c : DaemonCall}
    (hok : (v.next ⟨.call c, none⟩).Sound ∧ Q (.ok ()) (v.next ⟨.call c, none⟩))
    (herror : ∀ e, (v.next ⟨.call c, some e⟩).Sound ∧ Q (.error e) (v.next ⟨.call c, some e⟩)) :
    Keeps (Daemon.call c) Q v := by
  intro r _
  cases r with
  | none => exact hok
  | some e => exact herror e

theorem body_keeps (hok : (v.next ⟨.body, none⟩).Sound ∧ Q (.ok ()) (v.next ⟨.body, none⟩))
    (herror : ∀ e, (v.next ⟨.body, some e⟩).Sound ∧ Q (.error e) (v.next ⟨.body, some e⟩)) :
    Keeps Daemon.body Q v := by
  intro r _
  cases r with
  | none => exact hok
  | some e => exact herror e

theorem fork_keeps {Q : Except Thrown Bool → DaemonView → Prop}
    (hparent : (v.next ⟨.fork, .parent⟩).Sound ∧ Q (.ok false) (v.next ⟨.fork, .parent⟩))
    (hchild : (v.next ⟨.fork, .child⟩).Sound ∧ Q (.ok true) (v.next ⟨.fork, .child⟩))
    (herror : ∀ e, (v.next ⟨.fork, .failed e⟩).Sound ∧ Q (.error e) (v.next ⟨.fork, .failed e⟩)) :
    Keeps Daemon.fork Q v := by
  intro r _
  cases r with
  | parent => exact hparent
  | child => exact hchild
  | failed e => exact herror e

end Operations

/-! ### The programs -/

namespace DaemonView

variable {v : DaemonView} {role : DaemonRole} {forks : ℕ} {holds : PipeName → PipeEnd → Bool}
  {done : List DaemonCall}

theorem fresh_failed {role : DaemonRole} :
    ({ (fresh role forks holds done).failed with isLawful := true }).Failed role :=
  ⟨rfl, fun _ => rfl, fun _ => rfl, rfl, rfl⟩

end DaemonView

open DaemonView

section Programs

variable {v : DaemonView} {role : DaemonRole} {forks : ℕ} {holds : PipeName → PipeEnd → Bool}
  {done : List DaemonCall}

/-- Done, or failed, before anything is written. -/
def Begun (role : DaemonRole) (forks : ℕ) (holds : PipeName → PipeEnd → Bool) (done : List DaemonCall) :
    Except Thrown Unit → DaemonView → Prop
  | .ok _, v => v = fresh role forks holds done
  | .error _, v => v.Failed role ∧ v.holds = holds

theorem begun_then {α : Type} {x : DaemonM Unit} {f : Unit → DaemonM α}
    {Q : Except Thrown α → DaemonView → Prop} (hx : Keeps x (Begun role forks holds done) v)
    (hok : Keeps (f ()) Q (fresh role forks holds done))
    (herror : ∀ e v, v.Failed role → v.holds = holds → Q (.error e) v) : Keeps (x >>= f) Q v := by
  refine hx.bind ?_ fun e v h => herror e v h.1 h.2
  rintro _ _ rfl
  exact hok

theorem close_begun {p : PipeName} {e : PipeEnd} (hsound : (fresh role forks (without holds p e) done).Sound) :
    Keeps (Daemon.close p e) (Begun role forks (without holds p e) done) (fresh role forks holds done) :=
  close_keeps ⟨hsound, rfl⟩ fun _ => ⟨fresh_failed.sound, fresh_failed, rfl⟩

theorem call_begun {c : DaemonCall} (hsound : (fresh role forks holds (done ++ [c])).Sound) :
    Keeps (Daemon.call c) (Begun role forks holds (done ++ [c])) (fresh role forks holds done) :=
  call_keeps ⟨hsound, rfl⟩ fun _ => ⟨fresh_failed.sound, fresh_failed, rfl⟩

theorem calls_begun (hsound : ∀ done, (fresh role forks holds done).Sound) (cs : List DaemonCall) :
    Keeps (Daemon.calls cs) (Begun role forks holds (done ++ cs)) (fresh role forks holds done) := by
  induction cs generalizing done with
  | nil => exact congrArg _ (List.append_nil done).symm
  | cons c cs ih =>
    unfold Daemon.calls
    refine begun_then (call_begun (hsound _)) ?_ fun _ _ hfailed hholds => ⟨hfailed, hholds⟩
    rw [List.append_cons]
    exact ih

/-- The grandchild could not close its end when it had reported. -/
structure Shut (v : DaemonView) : Prop where
  reported : v.Over .grandchild
  closed : v.holds .grandchild .writer = false

theorem grandchildBlock_keeps (hg : holds .grandchild .writer = true) :
    Keeps Daemon.grandchildBlock (fun r v => match r with
      | .ok _ => v.Over .grandchild
      | .error _ => (v.Failed .grandchild ∧ v.holds .child .writer = false) ∨ Shut v)
      (fresh .grandchild 0 holds []) := by
  unfold Daemon.grandchildBlock
  have hsound (done : List DaemonCall) :
      (fresh .grandchild 0 (without holds .child .writer) done).Sound :=
    fresh_sound (by rintro _ ⟨⟩; exact hg) nofun
  have hunwritten (v : DaemonView) (h : v.Failed .grandchild)
      (hholds : v.holds = without holds .child .writer) :
      (v.Failed .grandchild ∧ v.holds .child .writer = false) ∨ Shut v :=
    .inl ⟨h, by rw [hholds]; rfl⟩
  refine begun_then (close_begun (hsound [])) ?_ fun _ => hunwritten
  refine begun_then (calls_begun hsound Daemon.initCalls) ?_ fun _ => hunwritten
  have hwritten : (fresh .grandchild 0 (without holds .child .writer) Daemon.initCalls).next
      ⟨.write .grandchild Daemon.ok, none⟩ = {
        fresh .grandchild 0 (without holds .child .writer) Daemon.initCalls with
        wrote := Function.update (fun _ => []) .grandchild [Daemon.ok] } := rfl
  have hover : ((fresh .grandchild 0 (without holds .child .writer) Daemon.initCalls).next
      ⟨.write .grandchild Daemon.ok, none⟩).Over .grandchild := by
    rw [hwritten]
    refine ⟨⟨rfl, fun p hp => ?_, fun _ hgot => absurd rfl hgot, nofun, nofun, fun _ => ?_⟩, rfl,
      fun _ p hp => ?_, nofun, fun _ => rfl⟩
    · cases p with
      | child => rfl
      | grandchild => exact absurd rfl hp
    · exact ⟨.inr (.inl ⟨rfl, rfl⟩), fun _ _ => rfl⟩
    · obtain rfl : .grandchild = p := Option.some.inj hp
      rfl
  refine Keeps.bind (P := fun r v => match r with
    | .ok _ => v.Over .grandchild
    | .error _ => v.Failed .grandchild ∧ v.holds .child .writer = false)
    (write_keeps (fun _ => ⟨hover.sound, hover⟩) fun e => ?_) (fun _ v hv => ?_) fun _ _ h => .inl h
  · have hfailed : ((fresh .grandchild 0 (without holds .child .writer) Daemon.initCalls).next
        ⟨.write .grandchild Daemon.ok, some e⟩).Failed .grandchild :=
      ⟨rfl, fun _ => rfl, fun _ => rfl, rfl, rfl⟩
    exact ⟨hfailed.sound, hfailed, rfl⟩
  · have hclosed (r : Option Thrown) := DaemonView.Over.close hv .grandchild .writer r
    refine close_keeps ⟨(hclosed none).sound, hclosed none⟩ fun t => ⟨(hclosed (some t)).sound, .inr ?_⟩
    refine ⟨hclosed (some t), ?_⟩
    rw [next_close_some]
    exact closed_holds_self (v := v) .grandchild .writer

theorem grandchild_keeps (hg : holds .grandchild .writer = true) :
    Keeps Daemon.grandchild (fun _ v => v.Over .grandchild) (fresh .grandchild 0 holds []) := by
  unfold Daemon.grandchild
  refine Keeps.bind (P := fun _ v => v.Over .grandchild)
    ((grandchildBlock_keeps hg).tryCatch (fun _ _ h => h) ?_) (fun _ v hv => ?_) fun _ _ h => h
  · intro e v h
    have hover : v.failed.Over .grandchild := by
      rcases h with ⟨hfailed, hshut⟩ | hshut
      · exact (hfailed.over fun _ => hshut).failed
      · exact hshut.reported.failed
    refine Keeps.bind (P := fun _ v => v.Over .grandchild)
      (write_keeps (fun hholds => ?_) fun e' => ?_) (fun _ _ h => h) fun _ _ h => h
    · rcases h with ⟨hfailed, hshut⟩ | hshut
      · have hwritten := hfailed.report (p := .grandchild) rfl (fun _ => hshut) e
        exact ⟨hwritten.sound, hwritten⟩
      · exact absurd (hholds.symm.trans hshut.closed) (by decide)
    · rw [next_write_some]
      exact ⟨hover.sound, hover⟩
  · have hv : v.Over .grandchild := hv
    refine body_keeps ?_ fun e => ?_
    · rw [next_body_none]
      exact ⟨hv.sound, hv⟩
    · rw [next_body_some]
      exact ⟨hv.failed.sound, hv.failed⟩

/-- The ends that the child has open behind its first steps. -/
def sessionHolds (holds : PipeName → PipeEnd → Bool) : PipeName → PipeEnd → Bool :=
  without (without holds .child .reader) .grandchild .reader

theorem childRest_keeps (hc : holds .child .writer = true) :
    Keeps Daemon.childRest (fun r v => match r with
      | .ok _ => v.Over .child
      | .error _ => v.Failed .child) (fresh .child 1 holds Daemon.sessionCalls) := by
  unfold Daemon.childRest
  have hsound (done : List DaemonCall) :
      (fresh .child 1 (without holds .grandchild .writer) done).Sound :=
    fresh_sound (by rintro _ ⟨⟩; exact hc) fun _ _ => rfl
  refine begun_then (close_begun (hsound _)) ?_ fun _ _ hfailed _ => hfailed
  refine begun_then (call_begun (hsound _)) ?_ fun _ _ hfailed _ => hfailed
  have hwritten : (fresh .child 1 (without holds .grandchild .writer) childReady).next
      ⟨.write .child Daemon.ok, none⟩ = {
        fresh .child 1 (without holds .grandchild .writer) childReady with
        wrote := Function.update (fun _ => []) .child [Daemon.ok] } := rfl
  have hover : ((fresh .child 1 (without holds .grandchild .writer) childReady).next
      ⟨.write .child Daemon.ok, none⟩).Over .child := by
    rw [hwritten]
    refine ⟨⟨rfl, fun p hp => ?_, fun _ hgot => absurd rfl hgot, fun _ => ?_, fun _ _ _ => rfl, nofun⟩,
      rfl, fun _ p hp => ?_, fun _ _ => rfl, nofun⟩
    · cases p with
      | child => exact absurd rfl hp
      | grandchild => rfl
    · exact ⟨.inr (.inl ⟨rfl, rfl⟩), fun _ _ => rfl⟩
    · obtain rfl : .child = p := Option.some.inj hp
      rfl
  refine write_keeps (fun _ => ⟨hover.sound, hover⟩) fun e => ?_
  exact ⟨fresh_failed.sound, fresh_failed⟩

/-- The grandchild leaves the block as well. -/
theorem childBlock_keeps (hc : holds .child .writer = true) (hg : holds .grandchild .writer = true) :
    Keeps Daemon.childBlock (fun r v => v.Over .grandchild ∨ match r with
      | .ok isReturned => isReturned = false ∧ v.Over .child
      | .error _ => v.Failed .child) (fresh .child 0 holds []) := by
  unfold Daemon.childBlock
  have hown : ∀ p, DaemonRole.child.writes = some p → holds p .writer = true := by
    rintro _ ⟨⟩
    exact hc
  have hfork (forks : ℕ) (h : holds .grandchild .writer = false) : forks = 1 :=
    absurd (hg.symm.trans h) (by decide)
  have hsound (forks : ℕ) (done : List DaemonCall) : (fresh .child forks (sessionHolds holds) done).Sound :=
    fresh_sound (by rintro _ ⟨⟩; exact hc) fun _ h => hfork forks h
  refine begun_then (close_begun (fresh_sound (by rintro _ ⟨⟩; exact hc) fun _ h => hfork 0 h)) ?_
    fun _ _ hfailed _ => .inr hfailed
  refine begun_then (close_begun (hsound 0 [])) ?_ fun _ _ hfailed _ => .inr hfailed
  refine begun_then (calls_begun (hsound 0) Daemon.sessionCalls) ?_ fun _ _ hfailed _ => .inr hfailed
  refine Keeps.bind (P := fun r v => match r with
    | .ok isChild => v = if isChild = true then fresh .grandchild 0 (sessionHolds holds) []
        else fresh .child 1 (sessionHolds holds) Daemon.sessionCalls
    | .error _ => v.Failed .child) (fork_keeps ⟨hsound _ _, rfl⟩ ⟨fresh_sound ?_ nofun, rfl⟩
      fun e => ⟨fresh_failed.sound, fresh_failed⟩) ?_ fun _ _ h => .inr h
  · rintro _ ⟨⟩
    exact hg
  · rintro isChild v hv
    cases isChild with
    | true =>
      obtain rfl : v = fresh .grandchild 0 (sessionHolds holds) [] := hv
      show Keeps (Daemon.grandchild >>= fun _ => pure true) _ _
      have hopen : sessionHolds holds .grandchild .writer = true := hg
      exact (grandchild_keeps hopen).bind (fun _ _ h => keeps_ret (.inl h)) fun _ _ h => .inl h
    | false =>
      obtain rfl : v = fresh .child 1 (sessionHolds holds) Daemon.sessionCalls := hv
      show Keeps (Daemon.childRest >>= fun _ => pure false) _ _
      have hopen : sessionHolds holds .child .writer = true := hc
      exact (childRest_keeps hopen).bind (fun _ _ h => keeps_ret (.inr ⟨rfl, h⟩)) fun _ _ h => .inr h

theorem child_keeps (hc : holds .child .writer = true) (hg : holds .grandchild .writer = true) :
    Keeps Daemon.child (fun _ v => ∃ role, role ≠ .parent ∧ v.Over role) (fresh .child 0 holds []) := by
  unfold Daemon.child
  refine Keeps.bind (P := fun _ v => ∃ role, role ≠ .parent ∧ v.Over role)
    ((childBlock_keeps hc hg).tryCatch ?_ ?_) ?_ fun _ _ h => h
  · rintro isReturned v (hover | ⟨-, hover⟩)
    · exact ⟨.grandchild, nofun, hover⟩
    · exact ⟨.child, nofun, hover⟩
  · rintro e v h
    refine Keeps.bind (P := fun _ v => ∃ role, role ≠ .parent ∧ v.Over role)
      (write_keeps (fun hholds => ?_) fun e' => ?_) (fun _ _ h => keeps_ret h) fun _ _ h => h
    · rcases h with hover | hfailed
      · exact absurd (hholds.symm.trans (hover.shut rfl)) (by decide)
      · have hwritten := hfailed.report (p := .child) rfl nofun e
        exact ⟨hwritten.sound, .child, nofun, hwritten⟩
    · rw [next_write_some]
      rcases h with hover | hfailed
      · exact ⟨hover.failed.sound, .grandchild, nofun, hover.failed⟩
      · have hover := (hfailed.over nofun).failed
        exact ⟨hover.sound, .child, nofun, hover⟩
  · rintro isReturned v ⟨role, hrole, hover⟩
    cases isReturned with
    | true => exact ⟨role, hrole, hover⟩
    | false =>
      have hclosed (r : Option Thrown) := hover.close .child .writer r
      exact close_keeps ⟨(hclosed none).sound, role, hrole, hclosed none⟩ fun t =>
        ⟨(hclosed (some t)).sound, role, hrole, hclosed (some t)⟩

/-- The parent when it reads. -/
def asking (holds : PipeName → PipeEnd → Bool) (got : PipeName → Option Text) : DaemonView :=
  ⟨.parent, 1, holds, fun _ => [], got, [.waitpid], false, true⟩

theorem asking_sound (holds : PipeName → PipeEnd → Bool) (got : PipeName → Option Text) :
    (asking holds got).Sound :=
  ⟨rfl, fun _ _ => rfl, fun _ _ => ⟨rfl, rfl⟩, nofun, nofun, nofun⟩

/-- What the parent knows when it returns or throws. -/
def DaemonView.Told (location : Text) (v : DaemonView) : Except Thrown Unit → Prop
  | .ok _ => ∀ p, v.got p = some Daemon.ok
  | .error e => v.hasFailed = true ∨ ∃ cReply gReply errors, v.got .child = some cReply ∧
      v.got .grandchild = some gReply ∧ Daemon.initializationError cReply gReply = some errors ∧
      e = .exception (Daemon.what location errors)

/-- The parent is about to return or to throw. -/
structure Telling (location : Text) (outcome : Except Thrown Unit) (v : DaemonView) : Prop where
  sound : v.Sound
  plays : v.role = .parent
  told : v.Told location outcome

variable {location : Text}

/-- A call of the parent has failed while it reads or when it has read. -/
theorem asking_telling (e : Thrown) (got : PipeName → Option Text) :
    Telling location (.error e) (asking holds got).failed :=
  ⟨⟨rfl, fun _ _ => rfl, fun _ _ => ⟨rfl, rfl⟩, nofun, nofun, nofun⟩, rfl, .inl rfl⟩

theorem asking_keeps {f : Text → DaemonM Unit} {p : PipeName} {got : PipeName → Option Text}
    (hreader : holds p .reader = true) (hwriter : holds p .writer = false) (hgot : got p = none)
    (hf : ∀ reply, Keeps (f reply) (Telling location)
      (asking holds (Function.update got p (some reply)))) :
    Keeps (Daemon.read p >>= f) (Telling location) (asking holds got) := by
  have hok (reply : Text) : (asking holds got).next ⟨.read p, .ok reply⟩ =
      asking holds (Function.update got p (some reply)) := by
    simp [next, effect, allowed, asking, hreader, hwriter, hgot]
  have herror (e : Thrown) : (asking holds got).next ⟨.read p, .error e⟩ = (asking holds got).failed := by
    simp [next, effect, allowed, asking, DaemonView.failed, hreader, hwriter, hgot]
  refine Keeps.bind (P := fun r v => match r with
    | .ok reply => v = asking holds (Function.update got p (some reply))
    | .error e => Telling location (.error e) v)
    (read_keeps (fun reply => ?_) fun e => ?_) ?_ fun _ _ h => h
  · rw [hok]
    exact ⟨asking_sound _ _, rfl⟩
  · have htelling : Telling location (.error e) (asking holds got).failed := asking_telling e got
    rw [herror]
    exact ⟨htelling.sound, htelling⟩
  · rintro reply _ rfl
    exact hf reply

/-- The parent closes an end when it has read. -/
theorem asking_close (location : Text) (p : PipeName) (e : PipeEnd)
    (got : PipeName → Option Text) :
    Keeps (Daemon.close p e) (fun r v => match r with
      | .ok _ => v = asking (without holds p e) got
      | .error t => Telling location (.error t) v) (asking holds got) := by
  refine close_keeps ⟨asking_sound _ _, rfl⟩ fun t => ?_
  have htelling : Telling location (.error t) (asking (without holds p e) got).failed :=
    asking_telling t got
  exact ⟨htelling.sound, htelling⟩

theorem replies_of_none {cReply gReply : Text} (h : Daemon.initializationError cReply gReply = none) :
    cReply = Daemon.ok ∧ gReply = Daemon.ok := by
  unfold Daemon.initializationError at h
  split at h
  next hok => exact hok
  next => cases h

theorem parent_keeps (hholds : ∀ p e, holds p e = true) :
    Keeps (Daemon.parent location) (Telling location) (fresh .parent 1 holds []) := by
  unfold Daemon.parent
  have hsound (holds : PipeName → PipeEnd → Bool) (done : List DaemonCall) :
      (fresh .parent 1 holds done).Sound := fresh_sound nofun nofun
  have hfailing (e : Thrown) (v : DaemonView) (h : v.Failed .parent)
      (_ : v.holds = without (without holds .child .writer) .grandchild .writer) :
      Telling location (.error e) v :=
    ⟨h.sound, h.plays, .inl h.hasFailed⟩
  refine begun_then (close_begun (hsound _ _)) ?_ fun e v h _ => ⟨h.sound, h.plays, .inl h.hasFailed⟩
  refine begun_then (close_begun (hsound _ _)) ?_ hfailing
  refine begun_then (call_begun (hsound _ _)) ?_ hfailing
  have hends (p : PipeName) : without (without holds .child .writer) .grandchild .writer p .reader = true ∧
      without (without holds .child .writer) .grandchild .writer p .writer = false := by
    cases p <;> simp [without, Function.update, hholds]
  refine asking_keeps (hends .child).1 (hends .child).2 rfl fun cReply => ?_
  refine asking_keeps (hends .grandchild).1 (hends .grandchild).2 rfl fun gReply => ?_
  cases hreplies : Daemon.initializationError cReply gReply with
  | some errors =>
    exact ⟨asking_sound _ _, rfl, .inr ⟨cReply, gReply, errors, rfl, rfl, hreplies, rfl⟩⟩
  | none =>
    obtain ⟨rfl, rfl⟩ := replies_of_none hreplies
    refine (asking_close location .child .reader _).bind ?_ fun _ _ h => h
    rintro _ _ rfl
    refine (asking_close location .grandchild .reader _).mono fun r v h => ?_
    cases r with
    | ok a =>
      obtain rfl := h
      refine ⟨asking_sound _ _, rfl, fun p => ?_⟩
      cases p <;> rfl
    | error e => exact h

/-- Where `daemonize` comes to, before the pipes are destroyed and behind. -/
def Ending (location : Text) (outcome : Except Thrown Unit) (v : DaemonView) : Prop :=
  Telling location outcome v ∨ ∃ role, role ≠ .parent ∧ v.Over role

theorem Telling.of_closed {outcome : Except Thrown Unit} (h : Telling location outcome v) {p : PipeName}
    {e : PipeEnd} {hasFailed : Bool} (hfailed : v.hasFailed = true → hasFailed = true) :
    Telling location outcome { v.closed p e with hasFailed := hasFailed } := by
  have hother {role : DaemonRole} (hrole : v.role = role) (hne : role ≠ .parent) : False :=
    hne (hrole.symm.trans h.plays)
  refine ⟨⟨h.sound.lawful, h.sound.silent, h.sound.asks, fun hrole => ?_, fun hrole => ?_,
    fun hrole => ?_⟩, h.plays, ?_⟩
  · exact (hother hrole (by decide)).elim
  · exact (hother hrole (by decide)).elim
  · exact (hother hrole (by decide)).elim
  · have htold := h.told
    cases outcome with
    | ok a => exact htold
    | error e => exact htold.imp_left hfailed

theorem Ending.close {outcome : Except Thrown Unit} (h : Ending location outcome v) (p : PipeName)
    (e : PipeEnd) (r : Option Thrown) : Ending location outcome (v.next ⟨.close p e, r⟩) := by
  rcases h with htelling | ⟨role, hrole, hover⟩
  · left
    cases r with
    | none =>
      rw [next_close_none]
      exact htelling.of_closed id
    | some t =>
      rw [next_close_some]
      exact htelling.of_closed fun _ => rfl
  · exact .inr ⟨role, hrole, hover.close p e r⟩

theorem Ending.sound {outcome : Except Thrown Unit} (h : Ending location outcome v) : v.Sound := by
  rcases h with htelling | ⟨role, hrole, hover⟩
  · exact htelling.sound
  · exact hover.sound

/-- All ends are closed. -/
structure Ended (location : Text) (outcome : Except Thrown Unit) (v : DaemonView) : Prop where
  ending : Ending location outcome v
  closed : ∀ p e, v.holds p e = false

theorem next_close_holds (p : PipeName) (e : PipeEnd) (r : Option Thrown) :
    (v.next ⟨.close p e, r⟩).holds = without v.holds p e := by
  cases r with
  | none => exact congrArg DaemonView.holds (next_close_none p e)
  | some t => exact congrArg DaemonView.holds (next_close_some p e t)

theorem destroy_then {outcome : Except Thrown Unit} {f : Unit → DaemonM Unit}
    {Q : Except Thrown Unit → DaemonView → Prop} {p : PipeName} {e : PipeEnd}
    (h : Ending location outcome v)
    (hf : ∀ v', Ending location outcome v' → v'.holds = without v.holds p e → Keeps (f ()) Q v') :
    Keeps (Daemon.destroy p e >>= f) Q v := by
  refine Keeps.bind (P := fun r v' => r = .ok () ∧ Ending location outcome v' ∧
    v'.holds = without v.holds p e) (destroy_keeps fun r => ?_) ?_ ?_
  · have hclosed := h.close p e r
    exact ⟨hclosed.sound, rfl, hclosed, next_close_holds p e r⟩
  · rintro _ v' ⟨-, hending, hholds⟩
    exact hf v' hending hholds
  · rintro e v' ⟨hthrown, -⟩
    cases hthrown

theorem closePipes_keeps {outcome : Except Thrown Unit} (h : Ending location outcome v) :
    Keeps Daemon.closePipes (fun _ v => Ended location outcome v) v := by
  unfold Daemon.closePipes
  refine destroy_then h fun v₁ h₁ hholds₁ => destroy_then h₁ fun v₂ h₂ hholds₂ =>
    destroy_then h₂ fun v₃ h₃ hholds₃ => destroy_keeps fun r => ?_
  have h₄ := h₃.close .child .reader r
  refine ⟨h₄.sound, h₄, fun p e => ?_⟩
  rw [next_close_holds, hholds₃, hholds₂, hholds₁]
  cases p <;> cases e <;> simp [without, Function.update]

theorem DaemonView.Failed.ending {e : Thrown} (h : v.Failed .parent) : Ending location (.error e) v :=
  .inl ⟨h.sound, h.plays, .inl h.hasFailed⟩

def bothOpen : PipeName → PipeEnd → Bool :=
  Function.update (Function.update (fun _ _ => false) .child fun _ => true) .grandchild fun _ => true

theorem parentBlock_keeps : Keeps (Daemon.parentBlock location) (Ending location) .initial := by
  unfold Daemon.parentBlock
  have hsound (holds : PipeName → PipeEnd → Bool) : (fresh .parent 0 holds []).Sound :=
    fresh_sound nofun nofun
  refine Keeps.bind (P := fun r v => match r with
    | .ok _ => v = fresh .parent 0 (Function.update (fun _ _ => false) .child fun _ => true) []
    | .error _ => v.Failed .parent)
    (pipe_keeps ⟨hsound _, rfl⟩ fun e => ⟨fresh_failed.sound, fresh_failed⟩) ?_ fun _ _ h => h.ending
  rintro _ _ rfl
  refine Keeps.bind (P := fun r v => match r with
    | .ok _ => v = fresh .parent 0 bothOpen []
    | .error _ => v.Failed .parent)
    (pipe_keeps ⟨hsound _, rfl⟩ fun e => ⟨fresh_failed.sound, fresh_failed⟩) ?_ fun _ _ h => h.ending
  rintro _ _ rfl
  refine Keeps.bind (P := fun r v => match r with
    | .ok isChild => v = if isChild = true then fresh .child 0 bothOpen [] else fresh .parent 1 bothOpen []
    | .error _ => v.Failed .parent)
    (fork_keeps ⟨fresh_sound nofun nofun, rfl⟩ ⟨fresh_sound ?_ nofun, rfl⟩
      fun e => ⟨fresh_failed.sound, fresh_failed⟩) ?_ fun _ _ h => h.ending
  · rintro _ ⟨⟩
    rfl
  · rintro isChild v hv
    cases isChild with
    | true =>
      obtain rfl : v = fresh .child 0 bothOpen [] := hv
      exact (child_keeps rfl rfl).mono fun _ _ h => .inr h
    | false =>
      obtain rfl : v = fresh .parent 1 bothOpen [] := hv
      exact (parent_keeps fun p e => by cases p <;> rfl).mono fun _ _ h => .inl h

theorem daemonize_keeps : Keeps (Daemon.daemonize location) (Ended location) .initial := by
  refine Prog.Meets.bind parentBlock_keeps fun outcome v h => ?_
  exact Prog.Meets.bind (closePipes_keeps h) fun _ _ hended => hended

end Programs

end Ritex.Gateway
