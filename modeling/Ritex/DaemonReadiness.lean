import Ritex.DaemonHandshake

/-! The three processes side by side, with what is in the pipes. -/
namespace Ritex.Gateway
open Interaction

abbrev DaemonProcess := Process DaemonOp DaemonRes (Except Thrown Unit)

/-- The processes share the texts in the pipes. -/
abbrev DaemonWorld := ProcessWorld DaemonOp DaemonRes (Except Thrown Unit) (PipeName → Text)

def seen (p : DaemonProcess) : DaemonView := p.view DaemonView.next .initial

/-- Some process has the end open. -/
def isOpen (procs : List DaemonProcess) (q : PipeName) (e : PipeEnd) : Bool :=
  procs.any fun p => p.isAlive && (seen p).holds q e

theorem isOpen_eq_false {procs : List DaemonProcess} {q : PipeName} {e : PipeEnd} :
    isOpen procs q e = false ↔ ∀ p ∈ procs, p.isAlive = true → (seen p).holds q e = false := by
  simp [isOpen]

/-- A process can read to the end of a pipe once no process can write on it, and it can write on a pipe
as long as some process can read it. Only what is open is closed by a call, which may fail. What a read
has taken when it fails stays in the pipe here, where nobody reads it again. -/
def daemonKernel : Kernel DaemonOp DaemonRes (Except Thrown Unit) (PipeName → Text) where
  next w p o r :=
    match o, r with
    | .pipe q, none => some (Function.update w.shared q [])
    | .fork, .child => none
    | .close q e, some _ => if (seen p).holds q e = true then some w.shared else none
    | .read q, .ok reply =>
      if (seen p).holds q .reader = true ∧ isOpen w.procs q .writer = false ∧ reply = w.shared q then
        some (Function.update w.shared q [])
      else none
    | .write q text, none =>
      if (seen p).holds q .writer = true ∧ isOpen w.procs q .reader = true then
        some (Function.update w.shared q (w.shared q ++ text))
      else none
    | _, _ => some w.shared
  forks o r :=
    match o, r with
    | .fork, .parent => some .child
    | _, _ => none

def failsToRead : (o : DaemonOp) → DaemonRes o → Bool
  | .read _, .error _ => true
  | _, _ => false

/-- No read fails. -/
def readingKernel : Kernel DaemonOp DaemonRes (Except Thrown Unit) (PipeName → Text) where
  next w p o r := if failsToRead o r then none else daemonKernel.next w p o r
  forks := daemonKernel.forks

/-! ### What is in the pipes -/

def lineage (p : DaemonProcess) : DaemonRole × ℕ := ((seen p).role, (seen p).forks)

/-- Who is there, with the number of its forks. -/
def lineages : List (List (DaemonRole × ℕ)) :=
  [[(.parent, 0)], [(.parent, 1), (.child, 0)], [(.parent, 1), (.child, 1), (.grandchild, 0)]]

/-- All that was written on a pipe. -/
def wrote (procs : List DaemonProcess) (q : PipeName) : List Text := procs.flatMap fun p => (seen p).wrote q

/-- What was read on a pipe. -/
def replies (procs : List DaemonProcess) (q : PipeName) : List Text := procs.filterMap fun p => (seen p).got q

/-- What was not read is in the pipe. What was read to the end is all that is ever written. -/
structure Piped (procs : List DaemonProcess) (s : PipeName → Text) : Prop where
  unread : ∀ q, replies procs q = [] → s q = (wrote procs q).flatten
  read : ∀ q, ∀ reply ∈ replies procs q,
    reply = (wrote procs q).flatten ∧ isOpen procs q .writer = false

section Piped

variable {before after : List DaemonProcess} {p p' : DaemonProcess} {s s' : PipeName → Text}

theorem roles_nodup {procs : List DaemonProcess} (h : procs.map lineage ∈ lineages) :
    (procs.map fun p => (seen p).role).Nodup := by
  have hroles : procs.map (fun p => (seen p).role) = (procs.map lineage).map Prod.fst := by
    simp [lineage]
  rw [hroles]
  generalize procs.map lineage = keys at h
  fin_cases h <;> decide

theorem role_ne (h : (before ++ p :: after).map lineage ∈ lineages) :
    ∀ q ∈ before ++ after, (seen q).role ≠ (seen p).role := by
  have hnodup := roles_nodup h
  simp only [List.map_append, List.map_cons, List.nodup_middle] at hnodup
  intro q hq heq
  refine (List.nodup_cons.mp hnodup).1 ?_
  rw [← List.map_append]
  exact List.mem_map.mpr ⟨q, hq, heq⟩

theorem writes_inj {role role' : DaemonRole} {q : PipeName} (h : role.writes = some q)
    (h' : role'.writes = some q) : role = role' := by
  cases role <;> cases role' <;> cases h <;> first | rfl | cases h'

/-- A pipe is written by one process only. -/
theorem wrote_eq (hsound : ∀ r ∈ before ++ p :: after, (seen r).Sound)
    (h : (before ++ p :: after).map lineage ∈ lineages) {q : PipeName}
    (hq : (seen p).role.writes = some q) : wrote (before ++ p :: after) q = (seen p).wrote q := by
  have hsilent : ∀ p' ∈ before ++ after, (seen p').wrote q = [] := fun p' hp' => by
    refine (hsound p' ?_).silent q fun hwrites => role_ne h p' hp' (writes_inj hwrites hq)
    simp only [List.mem_append, List.mem_cons] at hp' ⊢
    tauto
  have hbefore : before.flatMap (fun p => (seen p).wrote q) = [] :=
    List.flatMap_eq_nil_iff.mpr fun p' hp' => hsilent p' (List.mem_append_left _ hp')
  have hafter : after.flatMap (fun p => (seen p).wrote q) = [] :=
    List.flatMap_eq_nil_iff.mpr fun p' hp' => hsilent p' (List.mem_append_right _ hp')
  rw [wrote, List.flatMap_append, List.flatMap_cons, hbefore, hafter, List.append_nil, List.nil_append]

theorem replies_congr (hgot : (seen p').got = (seen p).got) (q : PipeName) :
    replies (before ++ p' :: after) q = replies (before ++ p :: after) q := by
  simp [replies, hgot, List.filterMap_cons]

theorem wrote_congr {q : PipeName} (hwrote : (seen p').wrote q = (seen p).wrote q) :
    wrote (before ++ p' :: after) q = wrote (before ++ p :: after) q := by
  simp [wrote, hwrote]

theorem isOpen_congr (halive : p'.isAlive = p.isAlive) (hholds : (seen p').holds = (seen p).holds)
    (q : PipeName) (e : PipeEnd) :
    isOpen (before ++ p' :: after) q e = isOpen (before ++ p :: after) q e := by
  simp [isOpen, halive, hholds]

/-- A process that neither writes nor reads nor opens an end. -/
theorem Piped.quiet (h : Piped (before ++ p :: after) s) (hwrote : (seen p').wrote = (seen p).wrote)
    (hgot : (seen p').got = (seen p).got)
    (hholds : ∀ q, p'.isAlive = true → (seen p').holds q .writer = true →
      p.isAlive = true ∧ (seen p).holds q .writer = true) : Piped (before ++ p' :: after) s := by
  constructor
  · intro q hnone
    rw [replies_congr hgot] at hnone
    rw [wrote_congr (congrFun hwrote q)]
    exact h.unread q hnone
  · intro q reply hreply
    rw [replies_congr hgot] at hreply
    obtain ⟨hreply, hclosed⟩ := h.read q reply hreply
    refine ⟨by rwa [wrote_congr (congrFun hwrote q)], ?_⟩
    rw [isOpen_eq_false, List.forall_mem_append, List.forall_mem_cons] at hclosed ⊢
    refine ⟨hclosed.1, fun halive => ?_, hclosed.2.2⟩
    by_contra hopen
    obtain ⟨halive, hholds⟩ := hholds q halive (Bool.eq_true_of_not_eq_false hopen)
    exact absurd (hholds.symm.trans (hclosed.2.1 halive)) (by decide)

/-- A new process that has not written anything. -/
theorem Piped.snoc {procs : List DaemonProcess} (h : Piped procs s) (hwrote : ∀ q, (seen p').wrote q = [])
    (hgot : ∀ q, (seen p').got q = none)
    (hholds : ∀ q, (seen p').holds q .writer = true → isOpen procs q .writer = true) :
    Piped (procs ++ [p']) s := by
  have hall (q : PipeName) : wrote (procs ++ [p']) q = wrote procs q := by
    simp [wrote, hwrote]
  have hreplies (q : PipeName) : replies (procs ++ [p']) q = replies procs q := by
    simp [replies, hgot]
  constructor
  · intro q hnone
    rw [hreplies] at hnone
    rw [hall]
    exact h.unread q hnone
  · intro q reply hreply
    rw [hreplies] at hreply
    obtain ⟨hreply, hclosed⟩ := h.read q reply hreply
    refine ⟨by rwa [hall], ?_⟩
    have hnot : (seen p').holds q .writer = false := by
      by_contra hopen
      exact absurd (hclosed.symm.trans (hholds q (Bool.eq_true_of_not_eq_false hopen))) (by decide)
    rw [isOpen_eq_false] at hclosed ⊢
    rw [List.forall_mem_append]
    exact ⟨hclosed, by simpa using fun _ => hnot⟩

/-- A new pipe. -/
theorem Piped.made (h : Piped [p] s) (q : PipeName) (hwrote : ∀ r, (seen p).wrote r = [])
    (hwrote' : (seen p').wrote = (seen p).wrote) (hgot : ∀ r, (seen p).got r = none)
    (hgot' : (seen p').got = (seen p).got) : Piped [p'] (Function.update s q []) := by
  have hnothing (r : PipeName) : wrote [p] r = [] ∧ wrote [p'] r = [] := by
    simp [wrote, hwrote', hwrote]
  have hreplies (r : PipeName) : replies [p] r = [] ∧ replies [p'] r = [] := by
    simp [replies, hgot', hgot]
  constructor
  · intro r _
    rw [(hnothing r).2]
    by_cases hr : r = q
    · rw [hr, Function.update_self]
      rfl
    · rw [Function.update_of_ne hr, h.unread r (hreplies r).1, (hnothing r).1]
  · intro r reply hreply
    rw [(hreplies r).2] at hreply
    cases hreply

/-- A pipe is read to the end. -/
theorem Piped.answer (h : Piped (before ++ p :: after) s) {q : PipeName}
    (hnone : replies (before ++ p :: after) q = [])
    (hclosed : isOpen (before ++ p :: after) q .writer = false) (halive : p'.isAlive = p.isAlive)
    (hholds : (seen p').holds = (seen p).holds) (hwrote : (seen p').wrote = (seen p).wrote)
    (hgot : (seen p').got = Function.update (seen p).got q (some (s q))) :
    Piped (before ++ p' :: after) (Function.update s q []) := by
  have hall (r : PipeName) : wrote (before ++ p' :: after) r = wrote (before ++ p :: after) r :=
    wrote_congr (congrFun hwrote r)
  have hopen (r : PipeName) (e : PipeEnd) :
      isOpen (before ++ p' :: after) r e = isOpen (before ++ p :: after) r e :=
    isOpen_congr halive hholds r e
  have hread : replies (before ++ p' :: after) q = [s q] := by
    simp only [replies, List.filterMap_append, List.filterMap_cons, List.append_eq_nil_iff] at hnone ⊢
    rw [hgot, Function.update_self, hnone.1]
    cases hasked : (seen p).got q with
    | none => simpa [hasked] using hnone.2
    | some reply => simp [hasked] at hnone
  have hother (r : PipeName) (hr : r ≠ q) :
      replies (before ++ p' :: after) r = replies (before ++ p :: after) r := by
    simp [replies, hgot, Function.update_of_ne hr, List.filterMap_cons]
  constructor
  · intro r hnone
    have hr : r ≠ q := fun hr => by
      rw [hr, hread] at hnone
      cases hnone
    rw [hother r hr] at hnone
    rw [hall, Function.update_of_ne hr, h.unread r hnone]
  · intro r reply hreply
    rw [hall, hopen]
    by_cases hr : r = q
    · subst hr
      rw [hread, List.mem_singleton] at hreply
      exact ⟨hreply.trans (h.unread r hnone), hclosed⟩
    · rw [hother r hr] at hreply
      exact h.read r reply hreply

/-- A text is written on a pipe that nobody has read to the end. -/
theorem Piped.written (h : Piped (before ++ p :: after) s) {q : PipeName} {text : Text}
    (hwritable : isOpen (before ++ p :: after) q .writer = true)
    (hwrote : wrote (before ++ p' :: after) q = wrote (before ++ p :: after) q ++ [text])
    (halive : p'.isAlive = p.isAlive) (hholds : (seen p').holds = (seen p).holds)
    (hgot : (seen p').got = (seen p).got)
    (hother : ∀ r, r ≠ q → (seen p').wrote r = (seen p).wrote r) :
    Piped (before ++ p' :: after) (Function.update s q (s q ++ text)) := by
  have hopen (r : PipeName) (e : PipeEnd) :
      isOpen (before ++ p' :: after) r e = isOpen (before ++ p :: after) r e :=
    isOpen_congr halive hholds r e
  have hreplies (r : PipeName) : replies (before ++ p' :: after) r = replies (before ++ p :: after) r :=
    replies_congr hgot r
  constructor
  · intro r hnone
    rw [hreplies] at hnone
    have hs := h.unread r hnone
    by_cases hr : r = q
    · subst hr
      rw [Function.update_self, hwrote, hs]
      simp
    · rw [Function.update_of_ne hr, wrote_congr (hother r hr), hs]
  · intro r reply hreply
    rw [hreplies] at hreply
    obtain ⟨hreply, hclosed⟩ := h.read r reply hreply
    have hr : r ≠ q := fun hr => by
      rw [hr, hwritable] at hclosed
      cases hclosed
    rw [wrote_congr (hother r hr), hopen]
    exact ⟨hreply, hclosed⟩

/-- The view of a process that is answered. -/
theorem seen_answered {o : DaemonOp} (k : DaemonRes o → Prog DaemonOp DaemonRes (Except Thrown Unit))
    (r : DaemonRes o) : seen (p.answered k r) = (seen p).next ⟨o, r⟩ :=
  Process.answered_view _ _ r

/-- Only what is allowed is answered. -/
theorem allowed_of_sound {v : DaemonView} {e : Interaction.Event DaemonOp DaemonRes}
    (h : (v.next e).Sound) : v.allowed e = true := by
  have hlawful : (v.isLawful && v.allowed e) = true := h.lawful
  rw [Bool.and_eq_true] at hlawful
  exact hlawful.2

theorem lineages_last {befores afters : List (DaemonRole × ℕ)} {role : DaemonRole}
    (h : befores ++ (role, 0) :: afters ∈ lineages) : afters = [] ∧
      (role = .parent ∧ befores = [] ∨ role = .child ∧ befores = [(.parent, 1)] ∨ role = .grandchild) := by
  rcases befores with _ | ⟨a, _ | ⟨b, _ | ⟨c, befores⟩⟩⟩ <;> simp [lineages] at h ⊢
  · simp [h]
  · simp [h]
  · simp [h]

end Piped

/-! ### Whole runs -/

/-- At most the three processes, and what is in their pipes. -/
structure Crewed (w : DaemonWorld) : Prop where
  crew : w.procs.map lineage ∈ lineages
  piped : Piped w.procs w.shared

section Steps

variable {before after : List DaemonProcess} {p p' : DaemonProcess} {s : PipeName → Text}

theorem lineage_kept (h : Crewed ⟨before ++ p :: after, s⟩) (hlineage : lineage p' = lineage p) :
    (before ++ p' :: after).map lineage ∈ lineages := by
  have hcrew := h.crew
  rwa [List.map_append, List.map_cons, ← hlineage, ← List.map_cons, ← List.map_append] at hcrew

/-- Nothing is written, read, opened or forked. -/
structure Quiet (v v' : DaemonView) : Prop where
  role : v'.role = v.role
  forks : v'.forks = v.forks
  wrote : v'.wrote = v.wrote
  got : v'.got = v.got
  holds : ∀ q, v'.holds q .writer = true → v.holds q .writer = true

theorem quiet_closed (v : DaemonView) (q : PipeName) (e : PipeEnd) : Quiet v (v.closed q e) := by
  refine ⟨rfl, rfl, rfl, rfl, fun r hopen => ?_⟩
  by_contra hclosed
  have hfalse := Bool.eq_false_of_not_eq_true hclosed
  cases q <;> cases r <;> cases e <;>
    simp [DaemonView.closed, DaemonView.without, Function.update, hfalse] at hopen

theorem quiet_close (v : DaemonView) (q : PipeName) (e : PipeEnd) (r : Option Thrown) :
    Quiet v (v.next ⟨.close q e, r⟩) := by
  have hquiet := quiet_closed v q e
  cases r with
  | none =>
    rw [DaemonView.next_close_none]
    exact hquiet
  | some t =>
    rw [DaemonView.next_close_some]
    exact ⟨hquiet.role, hquiet.forks, hquiet.wrote, hquiet.got, hquiet.holds⟩

theorem Crewed.quiet (h : Crewed ⟨before ++ p :: after, s⟩) (hquiet : Quiet (seen p) (seen p'))
    (halive : p'.isAlive = true → p.isAlive = true) : Crewed ⟨before ++ p' :: after, s⟩ := by
  have hlineage : lineage p' = lineage p := by rw [lineage, lineage, hquiet.role, hquiet.forks]
  exact ⟨lineage_kept h hlineage, h.piped.quiet hquiet.wrote hquiet.got fun q halive' hopen =>
    ⟨halive halive', hquiet.holds q hopen⟩⟩

theorem Crewed.pipe (h : Crewed ⟨before ++ p :: after, s⟩) (hsound : (seen p).Sound) {q : PipeName}
    (hp' : seen p' = (seen p).next ⟨.pipe q, none⟩) (hsound' : (seen p').Sound) :
    Crewed ⟨before ++ p' :: after, Function.update s q []⟩ := by
  rw [hp'] at hsound'
  obtain ⟨hrole, hforks⟩ : (seen p).role = .parent ∧ (seen p).forks = 0 := by
    simpa [DaemonView.allowed] using allowed_of_sound hsound'
  have hcrew := h.crew
  have hlineage : lineage p = (.parent, 0) := by rw [lineage, hrole, hforks]
  rw [List.map_append, List.map_cons, hlineage] at hcrew
  obtain ⟨hafter, ⟨-, hbefore⟩ | ⟨hchild, -⟩ | hgrandchild⟩ := lineages_last hcrew
  · obtain rfl := List.map_eq_nil_iff.mp hbefore
    obtain rfl := List.map_eq_nil_iff.mp hafter
    constructor
    · have hlineage' : lineage p' = (.parent, 0) := by
        rw [← hlineage, lineage, hp']
        rfl
      simp [hlineage', lineages]
    · have hwrites (r : PipeName) : (seen p).role.writes ≠ some r := by
        rw [hrole]
        exact (Option.some_ne_none r).symm
      refine h.piped.made q (fun r => hsound.silent r (hwrites r)) (by rw [hp']; rfl)
        (fun r => ?_) (by rw [hp']; rfl)
      by_contra hgot
      exact absurd (hforks.symm.trans (hsound.asks r hgot).2) (by decide)
  · cases hchild
  · cases hgrandchild

theorem DaemonRole.fork_ne {role : DaemonRole} (h : role ≠ .grandchild) : role.fork ≠ role := by
  cases role with
  | grandchild => exact absurd rfl h
  | parent | child => decide

theorem DaemonRole.fork_ne_parent {role : DaemonRole} : role.fork ≠ .parent := by
  cases role <;> decide

theorem Crewed.fork (h : Crewed ⟨before ++ p :: after, s⟩) (hsound : (seen p).Sound)
    (halive : p.isAlive = true) (halive' : p'.isAlive = true) {new : DaemonProcess}
    (hp' : seen p' = (seen p).next ⟨.fork, .parent⟩) (hsound' : (seen p').Sound)
    (hnew : seen new = (seen p).next ⟨.fork, .child⟩) (hsoundNew : (seen new).Sound) :
    Crewed ⟨before ++ p' :: (after ++ [new]), s⟩ := by
  have hallowed := hsound'
  rw [hp'] at hallowed
  obtain ⟨hrole, hforks⟩ : (seen p).role ≠ .grandchild ∧ (seen p).forks = 0 := by
    simpa [DaemonView.allowed] using allowed_of_sound hallowed
  have hlineage : lineage p = ((seen p).role, 0) := by rw [lineage, hforks]
  have hlineage' : lineage p' = ((seen p).role, 1) := by
    rw [lineage, hp']
    show ((seen p).role, (seen p).forks + 1) = _
    rw [hforks]
  have hlineageNew : lineage new = ((seen p).role.fork, 0) := by
    rw [lineage, hnew]
    rfl
  constructor
  · have hcrew := h.crew
    rw [List.map_append, List.map_cons, hlineage] at hcrew
    obtain ⟨hafter, ⟨hparent, hbefore⟩ | ⟨hchild, hbefore⟩ | hgrandchild⟩ := lineages_last hcrew
    · simp [hlineage', hlineageNew, hafter, hbefore, hparent, DaemonRole.fork, lineages]
    · simp [hlineage', hlineageNew, hafter, hbefore, hchild, DaemonRole.fork, lineages]
    · exact absurd hgrandchild hrole
  · have hquiet : Piped (before ++ p' :: after) s :=
      h.piped.quiet (by rw [hp']; rfl) (by rw [hp']; rfl) fun q _ hholds => ⟨halive, by rwa [hp'] at hholds⟩
    rw [← List.cons_append, ← List.append_assoc]
    refine hquiet.snoc (fun q => ?_) (fun q => ?_) fun q hholds => ?_
    · by_cases hq : (seen new).role.writes = some q
      · have hwrote : (seen new).wrote q = (seen p).wrote q := by rw [hnew]; rfl
        rw [hwrote]
        refine hsound.silent q fun hwrites => ?_
        have hsame := writes_inj hq hwrites
        rw [hnew] at hsame
        exact DaemonRole.fork_ne hrole hsame
      · exact hsoundNew.silent q hq
    · by_contra hgot
      obtain ⟨hparent, -⟩ := hsoundNew.asks q hgot
      rw [hnew] at hparent
      exact DaemonRole.fork_ne_parent hparent
    · have hholds' : (seen p').holds q .writer = true := by
        rw [hnew] at hholds
        rw [hp']
        exact hholds
      simp [isOpen, halive', hholds']

theorem Crewed.read (h : Crewed ⟨before ++ p :: after, s⟩)
    (hsound : ∀ r ∈ before ++ p :: after, (seen r).Sound) {q : PipeName}
    (hclosed : isOpen (before ++ p :: after) q .writer = false) (halive : p'.isAlive = p.isAlive)
    (hp' : seen p' = (seen p).next ⟨.read q, .ok (s q)⟩) (hsound' : (seen p').Sound) :
    Crewed ⟨before ++ p' :: after, Function.update s q []⟩ := by
  rw [hp'] at hsound'
  obtain ⟨⟨⟨⟨hrole, -⟩, -⟩, -⟩, hnone⟩ : ((((seen p).role = .parent ∧ (seen p).forks = 1) ∧
      (seen p).holds q .reader = true) ∧ (seen p).holds q .writer = false) ∧ (seen p).got q = none := by
    simpa [DaemonView.allowed] using allowed_of_sound hsound'
  have hreplies : replies (before ++ p :: after) q = [] := by
    rw [replies, List.filterMap_eq_nil_iff]
    intro r hr
    by_contra hgot
    obtain ⟨hparent, -⟩ := (hsound r hr).asks q hgot
    have hr' : r ∉ before ++ after := fun hmem => role_ne h.crew r hmem (hparent.trans hrole.symm)
    obtain rfl : r = p := by
      simp only [List.mem_append, List.mem_cons] at hr hr'
      tauto
    exact hgot hnone
  refine ⟨lineage_kept h ?_, h.piped.answer hreplies hclosed halive ?_ ?_ ?_⟩
  all_goals
    first
    | rw [hp']; rfl
    | rw [lineage, lineage, hp']; rfl

theorem Crewed.write (h : Crewed ⟨before ++ p :: after, s⟩)
    (hsound : ∀ r ∈ before ++ p :: after, (seen r).Sound) {q : PipeName} {text : Text}
    (hholds : (seen p).holds q .writer = true) (halive : p.isAlive = true) (halive' : p'.isAlive = true)
    (hp' : seen p' = (seen p).next ⟨.write q text, none⟩)
    (hsound' : ∀ r ∈ before ++ p' :: after, (seen r).Sound) :
    Crewed ⟨before ++ p' :: after, Function.update s q (s q ++ text)⟩ := by
  have hallowed := hsound' p' (by simp)
  rw [hp'] at hallowed
  have hwrites : (seen p).role.writes = some q := by
    simpa [DaemonView.allowed] using allowed_of_sound hallowed
  have hcrew : (before ++ p' :: after).map lineage ∈ lineages :=
    lineage_kept h (by rw [lineage, lineage, hp']; rfl)
  refine ⟨hcrew, h.piped.written ?_ ?_ (by rw [halive, halive']) (by rw [hp']; rfl) (by rw [hp']; rfl) ?_⟩
  · simp [isOpen, halive, hholds]
  · have hwrites' : (seen p').role.writes = some q := by
      rw [hp']
      exact hwrites
    rw [wrote_eq hsound h.crew hwrites, wrote_eq hsound' hcrew hwrites', hp']
    exact Function.update_self ..
  · intro r hr
    rw [hp']
    exact Function.update_of_ne hr _ _

theorem crewed_step {w w' : DaemonWorld} (h : Crewed w) (hsound : ∀ p ∈ w.procs, (seen p).Sound)
    (hsound' : ∀ p ∈ w'.procs, (seen p).Sound) (hstep : daemonKernel.Step w w') : Crewed w' := by
  rcases hstep with ⟨@⟨before, after, p, o, k, r, s, s', halive, hleft, hnext⟩⟩ |
    ⟨@⟨before, after, p, s, halive⟩⟩
  · have hp := hsound p (by simp)
    have hp' := hsound' (p.answered k r) (by simp)
    have hseen := seen_answered (p := p) k r
    have hquiet (hquiet : Quiet (seen p) ((seen p).next ⟨o, r⟩)) :
        Crewed ⟨before ++ p.answered k r :: (after ++ []), s⟩ := by
      rw [List.append_nil]
      exact h.quiet (by rwa [hseen]) fun _ => halive
    cases o with
    | pipe q =>
      cases r with
      | none =>
        cases hnext
        have hpipe := h.pipe hp hseen hp'
        rwa [← List.append_nil after] at hpipe
      | some e =>
        cases hnext
        exact hquiet ⟨rfl, rfl, rfl, rfl, fun _ h => h⟩
    | fork =>
      cases r with
      | parent =>
        cases hnext
        exact h.fork hp halive rfl hseen hp' (seen_answered k .child)
          (hsound' (p.answered k .child) (by simp [Kernel.forked, daemonKernel]))
      | child => cases hnext
      | failed e =>
        cases hnext
        exact hquiet ⟨rfl, rfl, rfl, rfl, fun _ h => h⟩
    | close q e =>
      have hs' : s = s' := by
        cases r with
        | none => exact Option.some.inj hnext
        | some t => exact Option.some.inj (Option.ite_none_right_eq_some.mp hnext).2
      subst hs'
      exact hquiet (quiet_close _ _ _ _)
    | read q =>
      cases r with
      | ok reply =>
        obtain ⟨⟨-, hclosed, rfl⟩, hs'⟩ := Option.ite_none_right_eq_some.mp hnext
        cases hs'
        have hread := h.read hsound hclosed halive.symm hseen hp'
        rwa [← List.append_nil after] at hread
      | error e =>
        cases hnext
        exact hquiet ⟨rfl, rfl, rfl, rfl, fun _ h => h⟩
    | write q text =>
      cases r with
      | none =>
        obtain ⟨⟨hholds, -⟩, hs'⟩ := Option.ite_none_right_eq_some.mp hnext
        cases hs'
        have hwrite : Crewed ⟨before ++ p.answered k none :: after, _⟩ :=
          h.write hsound hholds halive rfl hseen fun r hr =>
            hsound' r (by simpa [Kernel.forked, daemonKernel] using hr)
        rwa [← List.append_nil after] at hwrite
      | some e =>
        cases hnext
        exact hquiet ⟨rfl, rfl, rfl, rfl, fun _ h => h⟩
    | call c =>
      cases hnext
      cases r <;> exact hquiet ⟨rfl, rfl, rfl, rfl, fun _ h => h⟩
    | body =>
      cases hnext
      cases r <;> exact hquiet ⟨rfl, rfl, rfl, rfl, fun _ h => h⟩
  · exact h.quiet ⟨rfl, rfl, rfl, rfl, fun _ h => h⟩ fun _ => halive

end Steps

/-- `location` is where the parent throws. -/
def Launched (location : Text) (w : DaemonWorld) : Prop :=
  daemonKernel.Reaches (Daemon.run location true).run (fun _ => []) w

section Launch

variable {location : Text}

theorem daemonKernel_keeps : daemonKernel.Keeps handshake .initial := by
  intro w p o r s hnext
  cases o with
  | write q text =>
    refine ⟨?_, nofun⟩
    cases r with
    | none => exact (Option.ite_none_right_eq_some.mp hnext).1.1
    | some e => trivial
  | fork =>
    refine ⟨?_, fun r' _ => ?_⟩
    · cases r <;> trivial
    · cases r' <;> trivial
  | pipe | close | read | call | body => exact ⟨trivial, nofun⟩

theorem initial_sound : DaemonView.initial.Sound :=
  ⟨rfl, fun _ _ => rfl, fun _ hgot => absurd rfl hgot, nofun, nofun, nofun⟩

theorem good_launched {w : DaemonWorld} (h : Launched location w) :
    ∀ p ∈ w.procs, Kernel.Good handshake (Ended location) .initial p :=
  Kernel.good_reaches daemonize_keeps initial_sound daemonKernel_keeps h

theorem sound_launched {w : DaemonWorld} (h : Launched location w) : ∀ p ∈ w.procs, (seen p).Sound :=
  fun p hp => (good_launched h p hp).guarantees

theorem crewed_launched {w : DaemonWorld} (h : Launched location w) : Crewed w := by
  induction h with
  | refl =>
    refine ⟨by simp [Kernel.first, lineage, seen, Process.view, DaemonView.initial, lineages], ?_, ?_⟩
    · exact fun q _ => rfl
    · intro q reply hreply
      cases hreply
  | tail hbefore hstep ih =>
    exact crewed_step ih (sound_launched hbefore) (sound_launched (hbefore.tail hstep)) hstep

end Launch

/-! ### The programs return -/

theorem orThrow_finishes (r : Option Thrown) : (Daemon.orThrow r).run.Finishes := by
  cases r <;> trivial

theorem finishes_bind {α β : Type} {x : DaemonM α} {f : α → DaemonM β} (hx : x.run.Finishes)
    (hf : ∀ a, (f a).run.Finishes) : (x >>= f).run.Finishes := by
  refine Prog.Finishes.then hx fun r => ?_
  cases r with
  | ok a => exact hf a
  | error e => trivial

theorem finishes_tryCatch {α : Type} {x : DaemonM α} {f : Thrown → DaemonM α} (hx : x.run.Finishes)
    (hf : ∀ e, (f e).run.Finishes) : (tryCatch x f).run.Finishes := by
  refine Prog.Finishes.then hx fun r => ?_
  cases r with
  | ok a => trivial
  | error e => exact hf e

theorem close_finishes (q : PipeName) (e : PipeEnd) : (Daemon.close q e).run.Finishes := orThrow_finishes

theorem read_finishes (q : PipeName) : (Daemon.read q).run.Finishes := fun _ => trivial

theorem call_finishes (c : DaemonCall) : (Daemon.call c).run.Finishes := orThrow_finishes

theorem write_finishes (q : PipeName) (text : Text) : (Daemon.write q text).run.Finishes := orThrow_finishes

theorem calls_finishes (cs : List DaemonCall) : (Daemon.calls cs).run.Finishes := by
  induction cs with
  | nil => trivial
  | cons c cs ih => exact finishes_bind (call_finishes c) fun _ => ih

theorem fork_finishes : Daemon.fork.run.Finishes := by
  intro r
  cases r <;> trivial

theorem grandchild_finishes : Daemon.grandchild.run.Finishes := by
  refine finishes_bind (finishes_tryCatch ?_ fun e => ?_) fun _ => orThrow_finishes
  · exact finishes_bind (close_finishes _ _) fun _ => finishes_bind (calls_finishes _) fun _ =>
      finishes_bind (write_finishes _ _) fun _ => close_finishes _ _
  · exact finishes_bind (write_finishes _ _) fun _ => trivial

theorem child_finishes : Daemon.child.run.Finishes := by
  refine finishes_bind (finishes_tryCatch ?_ fun e => ?_) fun isReturned => ?_
  · refine finishes_bind (close_finishes _ _) fun _ => finishes_bind (close_finishes _ _) fun _ =>
      finishes_bind (calls_finishes _) fun _ => finishes_bind fork_finishes fun isChild => ?_
    cases isChild with
    | true => exact finishes_bind grandchild_finishes fun _ => trivial
    | false =>
      exact finishes_bind (finishes_bind (close_finishes _ _) fun _ =>
        finishes_bind (call_finishes _) fun _ => write_finishes _ _) fun _ => trivial
  · exact finishes_bind (write_finishes _ _) fun _ => trivial
  · cases isReturned with
    | true => trivial
    | false => exact close_finishes _ _

theorem parent_finishes (location : Text) : (Daemon.parent location).run.Finishes := by
  refine finishes_bind (close_finishes _ _) fun _ => finishes_bind (close_finishes _ _) fun _ =>
    finishes_bind (call_finishes _) fun _ => finishes_bind (read_finishes _) fun cReply =>
      finishes_bind (read_finishes _) fun gReply => ?_
  cases Daemon.initializationError cReply gReply with
  | some errors => trivial
  | none => exact finishes_bind (close_finishes _ _) fun _ => close_finishes _ _

theorem daemonize_finishes (location : Text) : (Daemon.daemonize location).run.Finishes := by
  refine Prog.Finishes.then ?_ fun outcome => ?_
  · refine finishes_bind orThrow_finishes fun _ => finishes_bind orThrow_finishes fun _ =>
      finishes_bind fork_finishes fun isChild => ?_
    cases isChild with
    | true => exact child_finishes
    | false => exact parent_finishes location
  · exact fun _ _ _ _ => trivial

/-! ### What the parent tells -/

/-- What the writer of a pipe has done when it writes `ok`. -/
def readyCalls : PipeName → List DaemonCall
  | .child => DaemonView.childReady
  | .grandchild => Daemon.initCalls

/-- The process that writes on the pipe has written `ok`, after all of its calls. -/
def Ready (procs : List DaemonProcess) (q : PipeName) : Prop :=
  ∃ p ∈ procs, (seen p).role.writes = some q ∧ (seen p).wrote q = [Daemon.ok] ∧ (seen p).done = readyCalls q

/-- How `daemonize` ends in the first process. -/
def outcome (procs : List DaemonProcess) : Option (Except Thrown Unit) :=
  procs.head?.bind fun p => match p.left with
    | .ret outcome => some outcome
    | _ => none

section Reports

variable {location : Text} {w : DaemonWorld} {p : DaemonProcess} {q : PipeName}

theorem sound_reports {v : DaemonView} (h : v.Sound) (hq : v.role.writes = some q) :
    v.Reports q (readyCalls q) := by
  cases hrole : v.role with
  | parent => rw [hrole] at hq; cases hq
  | child => rw [hrole] at hq; cases hq; exact h.child hrole
  | grandchild => rw [hrole] at hq; cases hq; exact h.grandchild hrole

theorem message_ne_ok (e : Thrown) : Daemon.message e ≠ Daemon.ok := by
  intro h
  cases e with
  | exception what =>
    have hmessage : what ++ ['\n'] = Daemon.ok := h
    have hlast := congrArg List.getLast? hmessage
    have hok : Daemon.ok.getLast? = some ')' := rfl
    rw [List.getLast?_concat, hok] at hlast
    exact absurd (Option.some.inj hlast) (by decide)
  | unknown => exact absurd h (by decide +kernel)

/-- What was written is what the writer has written. -/
theorem exists_writer (hcrew : w.procs.map lineage ∈ lineages)
    (hsound : ∀ p ∈ w.procs, (seen p).Sound) (hwrote : wrote w.procs q ≠ []) :
    ∃ p ∈ w.procs, (seen p).role.writes = some q ∧ wrote w.procs q = (seen p).wrote q := by
  obtain ⟨p, hp, hne⟩ : ∃ p ∈ w.procs, (seen p).wrote q ≠ [] := by
    by_contra hnone
    push Not at hnone
    exact hwrote (List.flatMap_eq_nil_iff.mpr hnone)
  have hwrites : (seen p).role.writes = some q := by
    by_contra hnot
    exact hne ((hsound p hp).silent q hnot)
  obtain ⟨before, after, hprocs⟩ := List.append_of_mem hp
  rw [hprocs] at hcrew hsound ⊢
  exact ⟨p, by simp, hwrites, wrote_eq hsound hcrew hwrites⟩

theorem ready_of_ok (hcrew : w.procs.map lineage ∈ lineages) (hsound : ∀ p ∈ w.procs, (seen p).Sound)
    (hok : (wrote w.procs q).flatten = Daemon.ok) : Ready w.procs q := by
  have hwrote : wrote w.procs q ≠ [] := fun hnil => by
    rw [hnil] at hok
    cases hok
  obtain ⟨p, hp, hwrites, heq⟩ := exists_writer hcrew hsound hwrote
  rw [heq] at hok
  rcases (sound_reports (hsound p hp) hwrites).wrote with hnone | ⟨hwrote, hdone⟩ | ⟨e, hwrote, -⟩
  · rw [hnone] at hok
    cases hok
  · exact ⟨p, hp, hwrites, hwrote, hdone⟩
  · rw [hwrote] at hok
    exact absurd (by simpa using hok) (message_ne_ok e)

theorem exists_parent (h : Launched location w) : ∃ p after, w.procs = p :: after ∧ (seen p).role = .parent := by
  have hcrew := (crewed_launched h).crew
  cases hprocs : w.procs with
  | nil => simp [hprocs, lineages] at hcrew
  | cons p after =>
    refine ⟨p, after, rfl, ?_⟩
    rw [hprocs, List.map_cons] at hcrew
    simp only [lineages, List.mem_cons, List.cons.injEq, List.not_mem_nil, or_false] at hcrew
    rcases hcrew with ⟨hp, -⟩ | ⟨hp, -⟩ | ⟨hp, -⟩ <;> exact congrArg Prod.fst hp

/-- What the parent knows, it knows of all that was written. -/
theorem told_wrote (h : Launched location w) {result : Except Thrown Unit} (hresult : outcome w.procs = some result) :
    ∃ p ∈ w.procs, (seen p).role = .parent ∧ p.left = .ret result ∧
      (seen p).Told location result := by
  obtain ⟨p, after, hprocs, hrole⟩ := exists_parent h
  have hp : p ∈ w.procs := by simp [hprocs]
  have hleft : p.left = .ret result := by
    rw [outcome, hprocs] at hresult
    simp only [List.head?_cons, Option.bind_some] at hresult
    split at hresult
    next hret => rw [hret, Option.some.inj hresult]
    next => cases hresult
  have hmeets := (good_launched h p hp).meets
  rw [hleft] at hmeets
  obtain ⟨htelling | ⟨role, hother, hover⟩, -⟩ := hmeets
  · exact ⟨p, hp, hrole, hleft, htelling.told⟩
  · exact absurd (hover.plays.symm.trans hrole) hother

theorem parent_unique (h : Launched location w) {r : DaemonProcess} (hp : p ∈ w.procs) (hr : r ∈ w.procs)
    (hrole : (seen r).role = (seen p).role) : r = p := by
  obtain ⟨before, after, hprocs⟩ := List.append_of_mem hp
  have hcrew := (crewed_launched h).crew
  rw [hprocs] at hcrew hr
  by_contra hne
  refine role_ne hcrew r ?_ hrole
  simp only [List.mem_append, List.mem_cons] at hr ⊢
  tauto

/-- A reply is all that is written on the pipe, and nobody has its writer end. -/
theorem reply_eq (h : Launched location w) (hp : p ∈ w.procs) {reply : Text} (hgot : (seen p).got q = some reply) :
    reply = (wrote w.procs q).flatten ∧ ∀ r ∈ w.procs, r.isAlive = true → (seen r).holds q .writer = false := by
  have hmem : reply ∈ replies w.procs q := List.mem_filterMap.mpr ⟨p, hp, hgot⟩
  obtain ⟨hreply, hclosed⟩ := (crewed_launched h).piped.read q reply hmem
  exact ⟨hreply, isOpen_eq_false.mp hclosed⟩

theorem moves_of_next (hp : p ∈ w.procs) (halive : p.isAlive = true) {o : DaemonOp}
    {k : DaemonRes o → Prog DaemonOp DaemonRes (Except Thrown Unit)} (hleft : p.left = .op o k)
    {r : DaemonRes o} {s : PipeName → Text} (hnext : readingKernel.next w p o r = some s) :
    ∃ w', readingKernel.Moves w w' := by
  obtain ⟨before, after, hprocs⟩ := List.append_of_mem hp
  obtain ⟨procs, shared⟩ := w
  obtain rfl : procs = before ++ p :: after := hprocs
  exact ⟨_, .answer halive hleft hnext⟩

/-- Only a reader ever waits. -/
theorem answered_unless_read (w : DaemonWorld) (p : DaemonProcess) (o : DaemonOp) (ho : ∀ q, o ≠ .read q) :
    ∃ r s, readingKernel.next w p o r = some s := by
  cases o with
  | read q => exact absurd rfl (ho q)
  | fork => exact ⟨.parent, w.shared, rfl⟩
  | close q e => exact ⟨none, w.shared, rfl⟩
  | pipe | write | call | body => exact ⟨some .unknown, w.shared, rfl⟩

theorem reads_lawfully (h : Launched location w) (hp : p ∈ w.procs)
    {k : DaemonRes (.read q) → Prog DaemonOp DaemonRes (Except Thrown Unit)} (hleft : p.left = .op (.read q) k) :
    (seen p).role = .parent ∧ (seen p).holds q .reader = true ∧ (seen p).holds q .writer = false := by
  have hmeets := (good_launched h p hp).meets
  rw [hleft] at hmeets
  have hallowed := allowed_of_sound (hmeets (.ok []) trivial).1
  simp only [DaemonView.allowed, Bool.and_eq_true, decide_eq_true_eq, Bool.not_eq_true'] at hallowed
  exact ⟨hallowed.1.1.1.1, hallowed.1.1.2, hallowed.1.2⟩

/-- While the parent waits, one of the others can go on, even if no read fails. -/
theorem parent_moves (h : Launched location w) (hp : p ∈ w.procs) (hrole : (seen p).role = .parent)
    (halive : p.isAlive = true) (hleft : ∀ result, p.left ≠ .ret result) : ∃ w', readingKernel.Moves w w' := by
  have hfinishes := Kernel.finishes_reaches (daemonize_finishes location) h
  cases hp_left : p.left with
  | ret result => exact absurd hp_left (hleft result)
  | cut => exact absurd (hfinishes p hp) (by rw [hp_left]; exact id)
  | op o k =>
    by_cases hread : ∃ q, o = .read q
    · obtain ⟨q, rfl⟩ := hread
      obtain ⟨-, hreader, hnot⟩ := reads_lawfully h hp hp_left
      cases hopen : isOpen w.procs q .writer with
      | false =>
        have hnext : readingKernel.next w p (.read q) (.ok (w.shared q)) =
            some (Function.update w.shared q []) := if_pos ⟨hreader, hopen, rfl⟩
        exact moves_of_next hp halive hp_left hnext
      | true =>
        obtain ⟨r, hr, hwriter⟩ := List.any_eq_true.mp hopen
        obtain ⟨halive_r, hholds⟩ := Bool.and_eq_true_iff.mp hwriter
        cases hr_left : r.left with
        | ret result =>
          have hended := (good_launched h r hr).meets
          rw [hr_left] at hended
          exact absurd (hholds.symm.trans (hended.closed q .writer)) (by decide)
        | cut => exact absurd (hfinishes r hr) (by rw [hr_left]; exact id)
        | op o' k' =>
          have hother (q' : PipeName) : o' ≠ .read q' := by
            rintro rfl
            obtain ⟨hrole_r, -⟩ := reads_lawfully h hr hr_left
            rw [parent_unique h hp hr (hrole_r.trans hrole.symm)] at hholds
            exact absurd (hholds.symm.trans hnot) (by decide)
          obtain ⟨a, s, hnext⟩ := answered_unless_read w r o' hother
          exact moves_of_next hr halive_r hr_left hnext
    · obtain ⟨a, s, hnext⟩ := answered_unless_read w p o fun q hq => hread ⟨q, hq⟩
      exact moves_of_next hp halive hp_left hnext

/-- A writer that has not failed closes its end only when it has written `ok`. -/
theorem wrote_ok (h : Launched location w) (hp : p ∈ w.procs) (hwrites : (seen p).role.writes = some q)
    (hfailed : (seen p).hasFailed = false) (hclosed : (seen p).holds q .writer = false) :
    (wrote w.procs q).flatten = Daemon.ok := by
  have hsound := sound_launched h
  have hwrote := (sound_reports (hsound p hp) hwrites).closes hfailed hclosed
  obtain ⟨before, after, hprocs⟩ := List.append_of_mem hp
  have hcrew := (crewed_launched h).crew
  rw [hprocs] at hcrew hsound ⊢
  rw [wrote_eq hsound hcrew hwrites, hwrote]
  exact List.append_nil _

/-- Who has forked has left a process of the next role behind. -/
theorem exists_forked (h : Launched location w) (hp : p ∈ w.procs) (hforks : (seen p).forks = 1) :
    ∃ r ∈ w.procs, (seen r).role = (seen p).role.fork := by
  have hcrew := (crewed_launched h).crew
  have hmem : lineage p ∈ w.procs.map lineage := List.mem_map_of_mem hp
  have hkey : ((seen p).role.fork, 0) ∈ w.procs.map lineage ∨ ((seen p).role.fork, 1) ∈ w.procs.map lineage := by
    generalize w.procs.map lineage = keys at hcrew hmem
    rw [lineage, hforks] at hmem
    simp only [lineages, List.mem_cons, List.not_mem_nil, or_false] at hcrew
    rcases hcrew with rfl | rfl | rfl
    · simp at hmem
    · have hrole : (seen p).role = .parent := by simpa using hmem
      simp [hrole, DaemonRole.fork]
    · have hrole : (seen p).role = .parent ∨ (seen p).role = .child := by simpa using hmem
      rcases hrole with hrole | hrole <;> simp [hrole, DaemonRole.fork]
  rcases hkey with hkey | hkey <;> obtain ⟨r, hr, hkey⟩ := List.mem_map.mp hkey <;>
    exact ⟨r, hr, congrArg Prod.fst hkey⟩

end Reports

/-- What the end of `daemonize` in the parent says of the other processes. -/
structure Reported (location : Text) (w : DaemonWorld) : Prop where
  started : outcome w.procs = some (.ok ()) → ∀ q, Ready w.procs q
  refused : ∀ e, outcome w.procs = some (.error e) →
    (∃ p ∈ w.procs, (seen p).role = .parent ∧ (seen p).hasFailed = true) ∨
      ∃ errors, Daemon.initializationError (wrote w.procs .child).flatten
        (wrote w.procs .grandchild).flatten = some errors ∧ e = .exception (Daemon.what location errors)
  undisturbed : ∀ result, outcome w.procs = some result →
    (∀ p ∈ w.procs, p.isAlive = true ∧ (seen p).hasFailed = false) → result = .ok ()
  waits : ∀ p ∈ w.procs, (seen p).role = .parent → p.isAlive = true →
    (∃ result, p.left = .ret result) ∨ ∃ w', readingKernel.Moves w w'
  ends : Acc (fun w' w => daemonKernel.Step w w') w

/-- Where nothing has failed both have written `ok` when the pipes are read to the end. -/
theorem replies_ok {location : Text} {w : DaemonWorld} (h : Launched location w)
    (hquiet : ∀ p ∈ w.procs, p.isAlive = true ∧ (seen p).hasFailed = false) {p : DaemonProcess}
    (hp : p ∈ w.procs) (hrole : (seen p).role = .parent) {cReply gReply : Text}
    (hchild : (seen p).got .child = some cReply) (hgrandchild : (seen p).got .grandchild = some gReply) :
    cReply = Daemon.ok ∧ gReply = Daemon.ok := by
  obtain ⟨hcReply, hcClosed⟩ := reply_eq h hp hchild
  obtain ⟨hgReply, hgClosed⟩ := reply_eq h hp hgrandchild
  obtain ⟨-, hforks⟩ := (sound_launched h p hp).asks .child (by simp [hchild])
  obtain ⟨c, hc, hcRole⟩ := exists_forked h hp hforks
  rw [hrole] at hcRole
  obtain ⟨hcAlive, hcQuiet⟩ := hquiet c hc
  have hcForks := (sound_launched h c hc).forks hcRole hcQuiet (hgClosed c hc hcAlive)
  obtain ⟨g, hg, hgRole⟩ := exists_forked h hc hcForks
  rw [hcRole] at hgRole
  obtain ⟨hgAlive, hgQuiet⟩ := hquiet g hg
  constructor
  · rw [hcReply]
    exact wrote_ok h hc (by rw [hcRole]; rfl) hcQuiet (hcClosed c hc hcAlive)
  · rw [hgReply]
    exact wrote_ok h hg (by rw [hgRole]; rfl) hgQuiet (hgClosed g hg hgAlive)

/-- In whatever order the parent, the child and the grandchild run, whatever fails and whoever dies: the
parent returns only when both others are ready, throws what they wrote unless a call of its own has
failed, returns if nothing has failed, and does not wait for ever. -/
theorem daemonize_reports {location : Text} {w : DaemonWorld} (h : Launched location w) :
    Reported location w where
  started hstarted q := by
    obtain ⟨p, hp, -, -, htold⟩ := told_wrote h hstarted
    obtain ⟨hreply, -⟩ := reply_eq h hp (htold q)
    exact ready_of_ok (crewed_launched h).crew (sound_launched h) hreply.symm
  refused e hrefused := by
    obtain ⟨p, hp, hrole, -, hfailed | ⟨cReply, gReply, errors, hc, hg, herrors, rfl⟩⟩ :=
      told_wrote h hrefused
    · exact .inl ⟨p, hp, hrole, hfailed⟩
    · rw [(reply_eq h hp hc).1, (reply_eq h hp hg).1] at herrors
      exact .inr ⟨errors, herrors, rfl⟩
  undisturbed result hresult hquiet := by
    obtain ⟨p, hp, hrole, -, htold⟩ := told_wrote h hresult
    cases result with
    | ok a => rfl
    | error e =>
      obtain hfailed | ⟨cReply, gReply, errors, hc, hg, herrors, -⟩ := htold
      · exact absurd (hfailed.symm.trans (hquiet p hp).2) (by decide)
      · obtain ⟨rfl, rfl⟩ := replies_ok h hquiet hp hrole hc hg
        cases (if_pos ⟨rfl, rfl⟩ : Daemon.initializationError Daemon.ok Daemon.ok = none).symm.trans herrors
  waits p hp hrole halive := by
    by_cases hreturned : ∃ result, p.left = .ret result
    · exact .inl hreturned
    · exact .inr (parent_moves h hp hrole halive fun result hresult => hreturned ⟨result, hresult⟩)
  ends := daemonKernel.step_wellFounded.apply w

/-- The process calls without an error. -/
def calling (i : ℕ) (cs : List DaemonCall) : List (ℕ × Interaction.Event DaemonOp DaemonRes) :=
  cs.map fun c => (i, ⟨.call c, none⟩)

def closing (i : ℕ) (ends : List (PipeName × PipeEnd)) :
    List (ℕ × Interaction.Event DaemonOp DaemonRes) :=
  ends.map fun e => (i, ⟨.close e.1 e.2, none⟩)

/-- The grandchild is ready before the child. -/
def startScript : List (ℕ × Interaction.Event DaemonOp DaemonRes) :=
  [(0, ⟨.pipe .child, none⟩), (0, ⟨.pipe .grandchild, none⟩), (0, ⟨.fork, .parent⟩)] ++
    closing 1 [(.child, .reader), (.grandchild, .reader)] ++ calling 1 Daemon.sessionCalls ++
    (1, ⟨.fork, .parent⟩) :: closing 2 [(.child, .writer)] ++ calling 2 Daemon.initCalls ++
    (2, ⟨.write .grandchild Daemon.ok, none⟩) :: closing 2 [(.grandchild, .writer)] ++
    closing 1 [(.grandchild, .writer)] ++ calling 1 [.waitpid] ++
    (1, ⟨.write .child Daemon.ok, none⟩) :: closing 1 [(.child, .writer)] ++
    closing 0 [(.child, .writer), (.grandchild, .writer)] ++ calling 0 [.waitpid] ++
    [(0, ⟨.read .child, .ok Daemon.ok⟩), (0, ⟨.read .grandchild, .ok Daemon.ok⟩)] ++
    closing 0 [(.child, .reader), (.grandchild, .reader), (.grandchild, .writer), (.grandchild, .reader),
      (.child, .writer), (.child, .reader)]

def isStarted (w : DaemonWorld) : Bool :=
  match outcome w.procs with
  | some (.ok ()) => true
  | _ => false

theorem daemonize_reports_started :
    ∃ w, Reported [] w ∧ outcome w.procs = some (.ok ()) ∧ ∀ q, Ready w.procs q := by
  obtain ⟨w, hreaches, hstarted⟩ := Kernel.exists_reaches_of_replay daemonKernel (Daemon.run [] true).run
    (fun _ => []) startScript isStarted (by decide +kernel)
  have hreported := daemonize_reports hreaches
  have houtcome : outcome w.procs = some (.ok ()) := by
    unfold isStarted at hstarted
    split at hstarted
    next h => exact h
    next => cases hstarted
  exact ⟨w, hreported, houtcome, hreported.started houtcome⟩

end Ritex.Gateway
