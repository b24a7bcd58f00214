import Ritex.RelyGuarantee

/-! `_database_t::insert` (`gateway/database.tpp`) on a connection of SQLite: every call is one
transaction, which is never rolled back by the code. -/
namespace Ritex.Gateway
open Interaction

inductive Statement
  | begin
  | insert
  | commit
  deriving DecidableEq

/-- `sqlite3_step`; some errors roll the transaction back. -/
inductive Stepped
  | done
  | failed (isRolledBack : Bool)
  deriving DecidableEq

inductive DbOp (α : Type)
  /-- `insert` is called. -/
  | call (items : List α)
  /-- `clock_gettime` for the timer. -/
  | clock
  | reset (s : Statement)
  /-- The values of an item are bound to the statement that inserts. -/
  | put (item : α)
  | step (s : Statement)
  /-- `insert` returns, or it throws. -/
  | back (isReturned : Bool)
  deriving DecidableEq

/-- A call that does not succeed throws. -/
abbrev DbRes {α : Type} : DbOp α → Type
  | .clock => Bool
  | .reset _ => Bool
  | .put _ => Bool
  | .step _ => Stepped
  | _ => Unit

abbrev DbProg (α β : Type) := Prog (DbOp α) DbRes β

def DbOp.perform {α : Type} (o : DbOp α) : DbProg α (DbRes o) := Prog.perform o

namespace Database

variable {α : Type}

/-- `stmt_t::step`; the programs are false where an exception is thrown. -/
def step (s : Statement) : DbProg α Bool := do
  match ← (DbOp.step s).perform with
  | .done => return true
  | .failed _ => return false

/-- `_begin` and `_commit`. -/
def resetStep (s : Statement) : DbProg α Bool := do
  if ← (DbOp.reset s).perform then step s else return false

def insertItem (item : α) : DbProg α Bool := do
  if ← (DbOp.reset .insert).perform then
    if ← (DbOp.put item).perform then step .insert else return false
  else return false

def insertItems : List α → DbProg α Bool
  | [] => return true
  | item :: items => do
    if ← insertItem item then insertItems items else return false

def insert (items : List α) : DbProg α Bool := do
  if items.isEmpty then return true
  else if ← DbOp.clock.perform then
    if ← resetStep .begin then
      if ← insertItems items then
        if ← resetStep .commit then DbOp.clock.perform else return false
      else return false
    else return false
  else return false

/-- Calls one after the other, whatever becomes of them. -/
def inserts : List (List α) → DbProg α Unit
  | [] => return ()
  | items :: batches => do
    (DbOp.call items).perform
    let isReturned ← insert items
    (DbOp.back isReturned).perform
    inserts batches

end Database

/-! ### The connection -/

/-- A call of `insert`: whether its transaction was begun, and whether it was committed. -/
structure InsertCall (α : Type) where
  items : List α
  isBegun : Bool
  isCommitted : Bool
  isReturned : Bool
  deriving DecidableEq

/-- The rows that the connection has committed, those of its transaction, the values that are bound,
the statements whose last step failed, and the calls. -/
structure Connection (α : Type) where
  committed : List α
  transaction : Option (List α)
  bound : Option α
  failing : Statement → Bool
  calls : List (InsertCall α)
  current : InsertCall α

namespace Connection

variable {α : Type}

/-- `insert` is called. -/
def calling (items : List α) : InsertCall α := ⟨items, false, false, false⟩

/-- A statement is stepped with success. -/
def performed (c : Connection α) : Statement → Connection α
  | .begin => { c with transaction := some [], current := { c.current with isBegun := true } }
  | .insert =>
    match c.transaction with
    | some rows => { c with transaction := some (rows ++ c.bound.toList) }
    | none => { c with committed := c.committed ++ c.bound.toList }
  | .commit =>
    { c with
      committed := c.committed ++ c.transaction.getD [],
      transaction := none,
      current := { c.current with isCommitted := true } }

def next (c : Connection α) : Interaction.Event (DbOp α) DbRes → Connection α
  | ⟨.call items, _⟩ => { c with current := calling items }
  | ⟨.reset s, _⟩ => { c with failing := Function.update c.failing s false }
  | ⟨.put item, isBound⟩ => { c with bound := if isBound then some item else none }
  | ⟨.step s, .done⟩ => c.performed s
  | ⟨.step s, .failed isRolledBack⟩ =>
    { c with
      failing := Function.update c.failing s true,
      transaction := if isRolledBack then none else c.transaction }
  | ⟨.back isReturned, _⟩ =>
    { c with calls := c.calls ++ [{ c.current with isReturned := isReturned }], current := calling [] }
  | ⟨.clock, _⟩ => c

def initial : Connection α := ⟨[], none, none, fun _ => false, [], calling []⟩

/-- What SQLite is documented to answer: a reset fails where the last step has failed, and a transaction
can be neither begun in another nor committed where there is none. The monotonic clock can be
read. -/
def Documented (c : Connection α) : Interaction.Event (DbOp α) DbRes → Prop
  | ⟨.clock, isRead⟩ => isRead = true
  | ⟨.reset s, isReset⟩ => c.failing s = true → isReset = false
  | ⟨.step .begin, r⟩ => c.transaction.isSome = true → r = .failed false
  | ⟨.step .commit, r⟩ => r = .done → c.transaction.isSome = true
  | _ => True

/-- The rows are those of the calls that returned, and behind a call that fails within its
transaction no call with items returns. -/
structure Sound (c : Connection α) : Prop where
  committed : c.committed = (c.calls.filter (·.isReturned)).flatMap (·.items) ++
    if c.current.isCommitted then c.current.items else []
  failed : c.calls.Pairwise fun a b =>
    a.isBegun = true → a.isReturned = false → b.items ≠ [] → b.isReturned = false

end Connection

def connection {α : Type} (h : List (Interaction.Event (DbOp α) DbRes)) : Connection α :=
  h.foldl Connection.next .initial

def sqlite (α : Type) : RelyGuarantee (DbOp α) DbRes (Connection α) where
  next := Connection.next
  relies := Connection.Documented
  guarantees := Connection.Sound

abbrev Maintains {α β : Type} (x : DbProg α β) (Q : β → Connection α → Prop) (c : Connection α) : Prop :=
  x.Meets (sqlite α) Q c

/-! ### Between the calls -/

namespace Connection

variable {α : Type} {c₀ c : Connection α} {items : List α}

/-- No call with items can return any more. -/
def Stuck (c : Connection α) : Prop :=
  c.transaction.isSome = true ∨ c.failing .insert = true ∨ c.failing .commit = true

structure Between (c : Connection α) : Prop where
  committed : c.committed = (c.calls.filter (·.isReturned)).flatMap (·.items)
  failed : c.calls.Pairwise fun a b =>
    a.isBegun = true → a.isReturned = false → b.items ≠ [] → b.isReturned = false
  stuck : (∃ a ∈ c.calls, a.isBegun = true ∧ a.isReturned = false) → c.Stuck

theorem Between.sound (h : c.Between) (hcurrent : c.current = calling []) : c.Sound := by
  refine ⟨?_, h.failed⟩
  rw [h.committed, hcurrent]
  exact (List.append_nil _).symm

/-- A call of `insert` has come so far since `c₀`. -/
structure Within (c₀ : Connection α) (items : List α) (c : Connection α) : Prop where
  calls : c.calls = c₀.calls
  asked : c.current.items = items
  committed : c.committed = c₀.committed ++ if c.current.isCommitted then items else []

theorem Within.sound (h : Within c₀ items c) (h₀ : c₀.Between) : c.Sound := by
  refine ⟨?_, ?_⟩
  · rw [h.committed, h.calls, h.asked, h₀.committed]
  · rw [h.calls]
    exact h₀.failed

/-- Neither the rows nor the calls have changed. -/
structure SameRows (c c' : Connection α) : Prop where
  calls : c'.calls = c.calls
  committed : c'.committed = c.committed
  current : c'.current = c.current

theorem Within.same {c' : Connection α} (h : Within c₀ items c) (hc : c.SameRows c') :
    Within c₀ items c' :=
  ⟨hc.calls.trans h.calls, by rw [hc.current, h.asked],
    by rw [hc.committed, hc.current, h.committed]⟩

/-- The transaction of the call has inserted `rows`. -/
structure InTransaction (c₀ : Connection α) (items rows : List α) (c : Connection α) : Prop where
  within : Within c₀ items c
  uncommitted : c.current.isCommitted = false
  transaction : c.transaction = some rows

theorem InTransaction.same {c' : Connection α} {rows rows' : List α}
    (h : InTransaction c₀ items rows c) (hc : c.SameRows c') (hrows : c'.transaction = some rows') :
    InTransaction c₀ items rows' c' :=
  ⟨h.within.same hc, by rw [hc.current, h.uncommitted], hrows⟩

theorem InTransaction.stuck {rows : List α} (h : InTransaction c₀ items rows c) : c.Stuck :=
  .inl (by rw [h.transaction]; rfl)

/-- The call has thrown. -/
structure Thrown (c₀ : Connection α) (items : List α) (c : Connection α) : Prop where
  within : Within c₀ items c
  uncommitted : c.current.isCommitted = false
  stuck : c.current.isBegun = true → c.Stuck
  stays : c₀.Stuck → c.Stuck

theorem InTransaction.thrown {rows : List α} (h : InTransaction c₀ items rows c) :
    Thrown c₀ items c :=
  ⟨h.within, h.uncommitted, fun _ => h.stuck, fun _ => h.stuck⟩

theorem InTransaction.performed_insert {rows : List α} {item : α} (h : InTransaction c₀ items rows c)
    (hbound : c.bound = some item) :
    c.performed .insert = { c with transaction := some (rows ++ [item]) } := by
  rw [performed, h.transaction, hbound]
  rfl

theorem InTransaction.failed {rows : List α} (h : InTransaction c₀ items rows c) {s : Statement}
    (hs : s ≠ .begin) (isRolledBack : Bool) :
    Thrown c₀ items (c.next ⟨.step s, .failed isRolledBack⟩) := by
  have hstuck : (c.next ⟨.step s, .failed isRolledBack⟩).Stuck := by
    cases s with
    | begin => exact absurd rfl hs
    | insert => exact .inr (.inl rfl)
    | commit => exact .inr (.inr rfl)
  exact ⟨h.within.same ⟨rfl, rfl, rfl⟩, h.uncommitted, fun _ => hstuck, fun _ => hstuck⟩

end Connection

namespace Database

open Connection

variable {α : Type} {c₀ c : Connection α} {items rows : List α}

theorem insertItem_keeps (h₀ : c₀.Between) (item : α) (h : InTransaction c₀ items rows c) :
    Maintains (insertItem item) (fun isInserted c' =>
      c'.failing .commit = c.failing .commit ∧ (c.failing .insert = true → isInserted = false) ∧
        if isInserted = true then InTransaction c₀ items (rows ++ [item]) c'
        else Thrown c₀ items c') c := by
  unfold insertItem
  intro isReset hreset
  have h₁ : InTransaction c₀ items rows (c.next ⟨.reset .insert, isReset⟩) :=
    h.same ⟨rfl, rfl, rfl⟩ h.transaction
  refine ⟨h₁.within.sound h₀, ?_⟩
  have hanswer : c.failing .insert = true → isReset = false := hreset
  cases isReset with
  | false => exact ⟨rfl, fun _ => rfl, h₁.thrown⟩
  | true =>
    have hfresh : c.failing .insert = true → False := fun hfailing => Bool.noConfusion (hanswer hfailing)
    intro isBound _
    have h₂ : InTransaction c₀ items rows
        ((c.next ⟨.reset .insert, true⟩).next ⟨.put item, isBound⟩) :=
      h₁.same ⟨rfl, rfl, rfl⟩ h₁.transaction
    refine ⟨h₂.within.sound h₀, ?_⟩
    cases isBound with
    | false => exact ⟨rfl, fun _ => rfl, h₂.thrown⟩
    | true =>
      intro stepped _
      cases stepped with
      | done =>
        have hnext := h₂.performed_insert rfl
        have h₃ : InTransaction c₀ items (rows ++ [item])
            (((c.next ⟨.reset .insert, true⟩).next ⟨.put item, true⟩).performed .insert) := by
          rw [hnext]
          exact h₂.same ⟨rfl, rfl, rfl⟩ rfl
        refine ⟨h₃.within.sound h₀, ?_, fun hfailing => (hfresh hfailing).elim, h₃⟩
        show (((c.next ⟨.reset .insert, true⟩).next ⟨.put item, true⟩).performed .insert).failing
          .commit = _
        rw [hnext]
        rfl
      | failed isRolledBack =>
        have h₃ := h₂.failed (s := .insert) (by decide) isRolledBack
        exact ⟨h₃.within.sound h₀, rfl, fun _ => rfl, h₃⟩

theorem insertItems_keeps (h₀ : c₀.Between) (rest : List α) (h : InTransaction c₀ items rows c) :
    Maintains (insertItems rest) (fun isInserted c' =>
      (isInserted = true → c'.failing .commit = c.failing .commit) ∧
      (c.failing .insert = true → rest ≠ [] → isInserted = false) ∧
        if isInserted = true then InTransaction c₀ items (rows ++ rest) c'
        else Thrown c₀ items c') c := by
  induction rest generalizing rows c with
  | nil =>
    rw [List.append_nil]
    exact ⟨fun _ => rfl, fun _ hne => absurd rfl hne, h⟩
  | cons item rest ih =>
    unfold insertItems
    refine (insertItem_keeps h₀ item h).bind fun isInserted c₁ h₁ => ?_
    obtain ⟨hcommit, hfailing, h₁⟩ := h₁
    cases isInserted with
    | false => exact ⟨nofun, fun _ _ => rfl, h₁⟩
    | true =>
      refine (ih h₁).mono fun all c₂ h₂ => ?_
      obtain ⟨hcommit', -, h₂⟩ := h₂
      rw [List.append_assoc] at h₂
      exact ⟨fun hall => (hcommit' hall).trans hcommit,
        fun hinsert => (Bool.noConfusion (hfailing hinsert)), h₂⟩

/-- The call has committed its items. -/
structure Committed (c₀ : Connection α) (items : List α) (c : Connection α) : Prop where
  within : Within c₀ items c
  isCommitted : c.current.isCommitted = true

theorem resetStep_commit_keeps (h₀ : c₀.Between) (h : InTransaction c₀ items items c) :
    Maintains (resetStep .commit) (fun isCommitted c' =>
      (c.failing .commit = true → isCommitted = false) ∧
        if isCommitted = true then Committed c₀ items c' else Thrown c₀ items c') c := by
  unfold resetStep
  intro isReset hreset
  have h₁ : InTransaction c₀ items items (c.next ⟨.reset .commit, isReset⟩) :=
    h.same ⟨rfl, rfl, rfl⟩ h.transaction
  refine ⟨h₁.within.sound h₀, ?_⟩
  have hanswer : c.failing .commit = true → isReset = false := hreset
  cases isReset with
  | false => exact ⟨fun _ => rfl, h₁.thrown⟩
  | true =>
    have hfresh : c.failing .commit = true → False := fun hfailing => Bool.noConfusion (hanswer hfailing)
    intro stepped _
    cases stepped with
    | done =>
      have hcommitted : ((c.next ⟨.reset .commit, true⟩).performed .commit).committed =
          c₀.committed ++ items := by
        have hbefore := h.within.committed
        rw [h.uncommitted] at hbefore
        show c.committed ++ c.transaction.getD [] = _
        rw [hbefore, h.transaction]
        simp
      have h₂ : Committed c₀ items ((c.next ⟨.reset .commit, true⟩).performed .commit) :=
        ⟨⟨h.within.calls, h.within.asked, hcommitted⟩, rfl⟩
      exact ⟨h₂.within.sound h₀, fun hfailing => (hfresh hfailing).elim, h₂⟩
    | failed isRolledBack =>
      have h₂ := h₁.failed (s := .commit) (by decide) isRolledBack
      exact ⟨h₂.within.sound h₀, fun _ => rfl, h₂⟩

/-- The call has not begun its transaction. -/
structure Started (c₀ : Connection α) (items : List α) (c : Connection α) : Prop where
  within : Within c₀ items c
  uncommitted : c.current.isCommitted = false
  unbegun : c.current.isBegun = false
  transaction : c.transaction = c₀.transaction
  failing : ∀ s, s ≠ .begin → c.failing s = c₀.failing s

theorem Started.stays (h : Started c₀ items c) (hstuck : c₀.Stuck) : c.Stuck := by
  rwa [Connection.Stuck, h.transaction, h.failing .insert (by decide),
    h.failing .commit (by decide)]

theorem Started.thrown (h : Started c₀ items c) : Thrown c₀ items c :=
  ⟨h.within, h.uncommitted, fun hbegun => absurd hbegun (by simp [h.unbegun]), h.stays⟩

theorem resetStep_begin_keeps (h₀ : c₀.Between) (h : Started c₀ items c) :
    Maintains (resetStep .begin) (fun isBegun c' =>
      if isBegun = true then
        InTransaction c₀ items [] c' ∧ c₀.transaction = none ∧
          ∀ s, s ≠ .begin → c'.failing s = c₀.failing s
      else Thrown c₀ items c') c := by
  unfold resetStep
  intro isReset hreset
  have h₁ : Started c₀ items (c.next ⟨.reset .begin, isReset⟩) :=
    ⟨h.within.same ⟨rfl, rfl, rfl⟩, h.uncommitted, h.unbegun, h.transaction, fun s hs =>
      (Function.update_of_ne hs _ _).trans (h.failing s hs)⟩
  refine ⟨h₁.within.sound h₀, ?_⟩
  cases isReset with
  | false => exact h₁.thrown
  | true =>
    intro stepped hstep
    have hnested : c.transaction.isSome = true → stepped = .failed false := hstep
    cases stepped with
    | done =>
      have hnone : c₀.transaction = none := by
        cases htransaction : c.transaction with
        | none => rw [← h.transaction, htransaction]
        | some rows =>
          rw [htransaction] at hnested
          cases hnested rfl
      have h₂ : InTransaction c₀ items [] ((c.next ⟨.reset .begin, true⟩).performed .begin) :=
        ⟨⟨h.within.calls, h.within.asked, h.within.committed⟩, h.uncommitted, rfl⟩
      exact ⟨h₂.within.sound h₀, h₂, hnone, h₁.failing⟩
    | failed isRolledBack =>
      have h₂ : Started c₀ items ((c.next ⟨.reset .begin, true⟩).next
          ⟨.step .begin, .failed isRolledBack⟩) := by
        refine ⟨h₁.within.same ⟨rfl, rfl, rfl⟩, h.uncommitted, h.unbegun, ?_, fun s hs =>
          (Function.update_of_ne hs _ _).trans (h₁.failing s hs)⟩
        show (if isRolledBack = true then none else c.transaction) = c₀.transaction
        cases isRolledBack with
        | false => exact h.transaction
        | true =>
          cases htransaction : c.transaction with
          | none => rw [← h.transaction, htransaction]; rfl
          | some rows =>
            rw [htransaction] at hnested
            cases hnested rfl
      exact ⟨h₂.within.sound h₀, h₂.thrown⟩

/-- What becomes of a call. -/
def Settled (c₀ : Connection α) (items : List α) (isReturned : Bool) (c : Connection α) : Prop :=
  if isReturned = true then
    Within c₀ items c ∧ (items = [] ∨ c.current.isCommitted = true) ∧
      (c₀.Stuck → items = [] ∧ c.Stuck)
  else Thrown c₀ items c

theorem insert_keeps (h₀ : c₀.Between) (h : Started c₀ items c) :
    Maintains (insert items) (fun isReturned c' => Settled c₀ items isReturned c') c := by
  unfold insert
  split
  next hempty =>
    have hnil : items = [] := List.isEmpty_iff.mp hempty
    exact ⟨h.within, .inl hnil, fun hstuck => ⟨hnil, h.stays hstuck⟩⟩
  next hnonempty =>
    have hne : items ≠ [] := fun hnil => hnonempty (List.isEmpty_iff.mpr hnil)
    intro isRead _
    refine ⟨h.within.sound h₀, ?_⟩
    cases isRead with
    | false => exact h.thrown
    | true =>
      refine (resetStep_begin_keeps h₀ h).bind fun isBegun c₁ h₁ => ?_
      cases isBegun with
      | false => exact h₁
      | true =>
        obtain ⟨h₁, hnone, hfailing⟩ := h₁
        refine (insertItems_keeps h₀ items h₁).bind fun isInserted c₂ h₂ => ?_
        obtain ⟨hcommit, hinsert, h₂⟩ := h₂
        cases isInserted with
        | false => exact h₂
        | true =>
          refine (resetStep_commit_keeps h₀ h₂).bind fun isCommitted c₃ h₃ => ?_
          obtain ⟨hfailed, h₃⟩ := h₃
          cases isCommitted with
          | false => exact h₃
          | true =>
            have hnotStuck : ¬c₀.Stuck := by
              rintro (hopen | hins | hcom)
              · rw [hnone] at hopen
                cases hopen
              · cases hinsert ((hfailing .insert (by decide)).trans hins) hne
              · have hcom₂ := (hcommit rfl).trans ((hfailing .commit (by decide)).trans hcom)
                cases hfailed hcom₂
            intro isRead hread
            have htrue : isRead = true := hread
            subst htrue
            exact ⟨h₃.within.sound h₀, h₃.within, .inr h₃.isCommitted,
              fun hstuck => absurd hstuck hnotStuck⟩

/-- The call is over. -/
theorem Settled.between (h₀ : c₀.Between) {isReturned : Bool} (h : Settled c₀ items isReturned c) :
    (c.next ⟨.back isReturned, ()⟩).Between := by
  have hwithin : Within c₀ items c := by
    cases isReturned with
    | false => exact Thrown.within h
    | true => exact h.1
  have hcalls : (c.next ⟨.back isReturned, ()⟩).calls =
      c₀.calls ++ [{ c.current with isReturned := isReturned }] := by
    rw [← hwithin.calls]
    rfl
  have hstuck : (∃ a ∈ c₀.calls, a.isBegun = true ∧ a.isReturned = false) → c₀.Stuck := h₀.stuck
  constructor
  case committed =>
    have hcommitted : (c.next ⟨.back isReturned, ()⟩).committed = c.committed := rfl
    rw [hcommitted, hcalls, hwithin.committed, h₀.committed]
    cases isReturned with
    | false => simp [Thrown.uncommitted h]
    | true =>
      obtain ⟨-, hitems | hcommit, -⟩ := h
      · simp [hwithin.asked, hitems]
      · simp [hwithin.asked, hcommit]
  case failed =>
    rw [hcalls, List.pairwise_append]
    refine ⟨h₀.failed, List.pairwise_singleton _ _, fun a ha b hb hbegun hthrown hitems => ?_⟩
    rw [List.mem_singleton] at hb
    subst hb
    cases isReturned with
    | false => rfl
    | true =>
      obtain ⟨hnil, -⟩ := h.2.2 (hstuck ⟨a, ha, hbegun, hthrown⟩)
      exact absurd (hwithin.asked.trans hnil) hitems
  case stuck =>
    rintro ⟨a, ha, hbegun, hthrown⟩
    rw [hcalls, List.mem_append, List.mem_singleton] at ha
    have hgoal : c.Stuck := by
      cases isReturned with
      | false =>
        obtain ha | rfl := ha
        · exact Thrown.stays h (hstuck ⟨a, ha, hbegun, hthrown⟩)
        · exact Thrown.stuck h hbegun
      | true =>
        obtain ha | rfl := ha
        · exact (h.2.2 (hstuck ⟨a, ha, hbegun, hthrown⟩)).2
        · cases hthrown
    exact hgoal

theorem inserts_keeps (batches : List (List α)) (h : c.Between) (hcurrent : c.current = calling []) :
    Maintains (inserts batches) (fun _ c' => c'.Between) c := by
  induction batches generalizing c with
  | nil => exact h
  | cons items batches ih =>
    unfold inserts
    intro _ _
    have hcommitted : c.committed = c.committed ++ [] := (List.append_nil _).symm
    have hstarted : Started c items (c.next ⟨.call items, ()⟩) :=
      ⟨⟨rfl, rfl, hcommitted⟩, rfl, rfl, rfl, fun _ _ => rfl⟩
    refine ⟨hstarted.within.sound h, (insert_keeps h hstarted).bind fun isReturned c₁ h₁ => ?_⟩
    intro _ _
    have h₂ := h₁.between h
    exact ⟨h₂.sound rfl, ih h₂ rfl⟩

end Database

/-- In every run of calls of `insert`, the rows that the connection has committed are the items of the
calls that returned, in their order, and those of the call that has just committed. Behind a call that
threw within its transaction no call with items returns. -/
theorem inserts_allOrNothing {α : Type} (batches : List (List α))
    {c : DbProg α Unit × List (Interaction.Event (DbOp α) DbRes)}
    (h : (historyEnv (DbOp α) DbRes).Reaches (Database.inserts batches, []) c)
    (hdocumented : Monitored Connection.next Connection.Documented .initial c.2) :
    (connection c.2).Sound := by
  have hbetween : (Connection.initial : Connection α).Between :=
    ⟨rfl, .nil, fun ⟨_, ha, _⟩ => by cases ha⟩
  exact (Database.inserts_keeps batches hbetween rfl).reaches (hbetween.sound rfl) h hdocumented

/-- The second call finds the database busy at its `COMMIT`, and the third in its transaction. -/
def busyScript : List (Interaction.Event (DbOp ℕ) DbRes) :=
  [⟨.call [1], ()⟩, ⟨.clock, true⟩, ⟨.reset .begin, true⟩, ⟨.step .begin, Stepped.done⟩,
    ⟨.reset .insert, true⟩, ⟨.put 1, true⟩, ⟨.step .insert, Stepped.done⟩,
    ⟨.reset .commit, true⟩, ⟨.step .commit, Stepped.done⟩, ⟨.clock, true⟩, ⟨.back true, ()⟩,
    ⟨.call [2], ()⟩, ⟨.clock, true⟩, ⟨.reset .begin, true⟩, ⟨.step .begin, Stepped.done⟩,
    ⟨.reset .insert, true⟩, ⟨.put 2, true⟩, ⟨.step .insert, Stepped.done⟩,
    ⟨.reset .commit, true⟩, ⟨.step .commit, Stepped.failed false⟩, ⟨.back false, ()⟩,
    ⟨.call [3], ()⟩, ⟨.clock, true⟩, ⟨.reset .begin, true⟩, ⟨.step .begin, Stepped.failed false⟩,
    ⟨.back false, ()⟩]

theorem inserts_allOrNothing_busy : (connection busyScript).Sound ∧
    (connection busyScript).committed = [1] ∧
      (connection busyScript).calls.map (·.isReturned) = [true, false, false] := by
  obtain ⟨x, hreaches⟩ := Prog.exists_reaches_of_answers busyScript
    (p := Database.inserts [[1], [2], [3]]) (h := []) (by decide +kernel)
  rw [List.nil_append] at hreaches
  have hdocumented : Monitored Connection.next Connection.Documented .initial busyScript := by
    simp [busyScript, Monitored, Connection.Documented]
    decide +kernel
  have hsound := inserts_allOrNothing [[1], [2], [3]] hreaches hdocumented
  exact ⟨hsound, rfl, rfl⟩

end Ritex.Gateway
