import Ritex.Interaction

/-! Environments that are given by functions, so that a script of answers and moves can be run, and
the one of them that answers everything and records what it was asked: a fact about its runs
holds for every answer to every operation. -/
namespace Ritex.Interaction

abbrev Event (Op : Type) (Res : Op → Type) := Σ o : Op, Res o

variable {Op : Type} {Res : Op → Type} {α M σ τ : Type}

/-- What an answer makes of the state, if it may be given, and the moves that may be made. -/
def Env.ofSteps (next : (o : Op) → σ → Res o → Option σ) (move : M → σ → Option σ) :
    Env Op Res σ where
  answer o s r s' := next o s r = some s'
  drift s s' := ∃ m, move m s = some s'

def guardNext (mayAnswer : Op → σ → Bool) (next : (o : Op) → σ → Res o → Option σ) (o : Op) (s : σ)
    (r : Res o) : Option σ :=
  if mayAnswer o s then next o s r else none

def guardMove (mayMove : M → σ → Bool) (move : M → σ → Option σ) (m : M) (s : σ) : Option σ :=
  if mayMove m s then move m s else none

def Env.guarded (next : (o : Op) → σ → Res o → Option σ) (move : M → σ → Option σ)
    (mayAnswer : Op → σ → Bool) (mayMove : M → σ → Bool) : Env Op Res σ :=
  Env.ofSteps (guardNext mayAnswer next) (guardMove mayMove move)

theorem Env.guarded_answer {next : (o : Op) → σ → Res o → Option σ} {move : M → σ → Option σ}
    {mayAnswer : Op → σ → Bool} {mayMove : M → σ → Bool} {o : Op} {s s' : σ} {r : Res o}
    (h : (Env.guarded next move mayAnswer mayMove).answer o s r s') :
    mayAnswer o s = true ∧ next o s r = some s' :=
  Option.ite_none_right_eq_some.mp h

theorem Env.guarded_drift {next : (o : Op) → σ → Res o → Option σ} {move : M → σ → Option σ}
    {mayAnswer : Op → σ → Bool} {mayMove : M → σ → Bool} {s s' : σ}
    (h : (Env.guarded next move mayAnswer mayMove).drift s s') :
    ∃ m, mayMove m s = true ∧ move m s = some s' := by
  obtain ⟨m, hm⟩ := h
  exact ⟨m, Option.ite_none_right_eq_some.mp hm⟩

/-! ### Scripts -/

inductive Turn (Op : Type) (Res : Op → Type) (M : Type)
  | answer (e : Event Op Res)
  | move (m : M)

namespace Prog

def after [DecidableEq Op] (e : Event Op Res) : Prog Op Res α → Option (Prog Op Res α)
  | .op o k => if h : e.1 = o then some (k (h ▸ e.2)) else none
  | .ret _ => none
  | .cut => none

def replay [DecidableEq Op] (next : (o : Op) → σ → Res o → Option σ) (move : M → σ → Option σ) :
    List (Turn Op Res M) → Prog Op Res α × σ → Option (Prog Op Res α × σ)
  | [], c => some c
  | .answer e :: ts, (p, s) => do
    let p ← p.after e
    let s ← next e.1 s e.2
    replay next move ts (p, s)
  | .move m :: ts, (p, s) => do
    let s ← move m s
    replay next move ts (p, s)

theorem after_eq_some [DecidableEq Op] {e : Event Op Res} {p p' : Prog Op Res α}
    (h : p.after e = some p') : ∃ k, p = .op e.1 k ∧ p' = k e.2 := by
  cases p with
  | ret a => cases h
  | cut => cases h
  | op o k =>
    obtain ⟨o', r⟩ := e
    rw [after] at h
    split at h
    next heq =>
      cases heq
      cases h
      exact ⟨k, rfl, rfl⟩
    next => cases h

theorem reaches_of_replay [DecidableEq Op] {next : (o : Op) → σ → Res o → Option σ}
    {move : M → σ → Option σ} (ts : List (Turn Op Res M)) {c c' : Prog Op Res α × σ}
    (h : replay next move ts c = some c') : (Env.ofSteps next move).Reaches c c' := by
  induction ts generalizing c with
  | nil =>
    cases h
    exact Relation.ReflTransGen.refl
  | cons t ts ih =>
    obtain ⟨p, s⟩ := c
    cases t with
    | answer e =>
      obtain ⟨p₁, hafter, hrest⟩ := Option.bind_eq_some_iff.mp h
      obtain ⟨s₁, hnext, hrest⟩ := Option.bind_eq_some_iff.mp hrest
      obtain ⟨k, rfl, rfl⟩ := after_eq_some hafter
      exact Relation.ReflTransGen.head (.answer hnext) (ih hrest)
    | move m =>
      obtain ⟨s₁, hmove, hrest⟩ := Option.bind_eq_some_iff.mp h
      exact Relation.ReflTransGen.head (.drift ⟨m, hmove⟩) (ih hrest)

/-- A script of which only a part of the last state is compared. -/
theorem exists_reaches_of_replay [DecidableEq Op] (next : (o : Op) → σ → Res o → Option σ)
    (move : M → σ → Option σ) (ts : List (Turn Op Res M)) {c : Prog Op Res α × σ} (f : σ → τ) {t : τ}
    (h : (replay next move ts c).map (fun c => f c.2) = some t) :
    ∃ c', (Env.ofSteps next move).Reaches c c' ∧ f c'.2 = t := by
  obtain ⟨c', hreplay, hf⟩ := Option.map_eq_some_iff.mp h
  exact ⟨c', reaches_of_replay ts hreplay, hf⟩

end Prog

/-! ### Histories -/

theorem forall_split_snoc {ε : Type} {P : List ε → ε → Prop} (log : List ε) (last : ε) :
    (∀ before e after, log ++ [last] = before ++ e :: after → P before e) ↔
      (∀ before e after, log = before ++ e :: after → P before e) ∧ P log last := by
  constructor
  · intro h
    refine ⟨fun before e after heq => ?_, h log last [] rfl⟩
    exact h before e (after ++ [last]) (by rw [heq, List.append_assoc]; rfl)
  · rintro ⟨h, hlast⟩ before e after heq
    rcases List.eq_nil_or_concat after with rfl | ⟨after', last', rfl⟩
    · obtain ⟨rfl, heq'⟩ := List.append_inj' heq rfl
      exact List.singleton_inj.mp heq' ▸ hlast
    · rw [List.concat_eq_append, ← List.cons_append, ← List.append_assoc] at heq
      obtain ⟨rfl, -⟩ := List.append_inj' heq rfl
      exact h before e after' rfl

/-- `P` holds of every event and of what the events before it have made of `t`. -/
def Monitored {ε : Type} (f : τ → ε → τ) (P : τ → ε → Prop) : τ → List ε → Prop
  | _, [] => True
  | t, e :: log => P t e ∧ Monitored f P (f t e) log

theorem forall_split_of_monitored {ε : Type} {f : τ → ε → τ} {P : τ → ε → Prop} {t : τ}
    {log : List ε} (h : Monitored f P t log) (before : List ε) (e : ε) (after : List ε)
    (heq : log = before ++ e :: after) : P (before.foldl f t) e := by
  induction before generalizing t log with
  | nil =>
    subst heq
    exact h.1
  | cons first before ih =>
    subst heq
    exact ih h.2 rfl

def record (o : Op) (h : List (Event Op Res)) (r : Res o) : Option (List (Event Op Res)) :=
  some (h ++ [⟨o, r⟩])

def still (m : Empty) (_ : σ) : Option σ := m.elim

def historyEnv (Op : Type) (Res : Op → Type) : Env Op Res (List (Event Op Res)) :=
  Env.ofSteps record still

theorem historyEnv_drift {h h' : List (Event Op Res)} (hd : (historyEnv Op Res).drift h h') :
    False :=
  hd.choose.elim

namespace Prog

/-- A program that takes a script of answers makes it its history. -/
theorem exists_reaches_of_answers [DecidableEq Op] (script : List (Event Op Res))
    {p : Prog Op Res α} {h : List (Event Op Res)}
    (hreplay : (replay record still (script.map .answer) (p, h)).isSome = true) :
    ∃ p', (historyEnv Op Res).Reaches (p, h) (p', h ++ script) := by
  induction script generalizing p h with
  | nil => exact ⟨p, by rw [List.append_nil]; exact .refl⟩
  | cons e script ih =>
    obtain ⟨c, hreplay⟩ := Option.isSome_iff_exists.mp hreplay
    obtain ⟨p₁, hafter, hrest⟩ := Option.bind_eq_some_iff.mp hreplay
    obtain ⟨k, rfl, rfl⟩ := after_eq_some hafter
    obtain ⟨p', hreaches⟩ := ih (Option.isSome_iff_exists.mpr ⟨c, hrest⟩)
    rw [List.append_assoc] at hreaches
    exact ⟨p', Relation.ReflTransGen.head (.answer rfl) hreaches⟩

theorem safe_history_op {I : List (Event Op Res) → Prop} {Q : α → List (Event Op Res) → Prop}
    {h : List (Event Op Res)} {o : Op} {k : Res o → Prog Op Res α}
    (hk : ∀ r, I (h ++ [⟨o, r⟩]) ∧ (k r).Safe (historyEnv Op Res) I Q (h ++ [⟨o, r⟩])) :
    (op o k).Safe (historyEnv Op Res) I Q h := by
  intro s₁ hd r s₂ ha
  cases hd with
  | refl =>
    cases ha
    exact hk r
  | tail _ hstep => exact (historyEnv_drift hstep).elim

theorem Only.safe_history {P : Op → Prop} {I J : List (Event Op Res) → Prop} {p : Prog Op Res α}
    (hp : p.Only P) (hJI : ∀ h, J h → I h)
    (hJ : ∀ o, P o → ∀ h, J h → ∀ r, J (h ++ [⟨o, r⟩])) {h : List (Event Op Res)} (hh : J h) :
    p.Safe (historyEnv Op Res) I (fun _ => J) h := by
  refine hp.safe hJI (fun _ _ _ hd => (historyEnv_drift hd).elim) (fun o ho s r s' hs ha => ?_) hh
  cases ha
  exact hJ o ho s hs r

end Prog

/-! ### Histories of events that are let through -/

/-- Nothing happens but answers that a test on the history and the event lets through. -/
def admittedNext (admits : List (Event Op Res) → Event Op Res → Bool) (o : Op)
    (h : List (Event Op Res)) (r : Res o) : Option (List (Event Op Res)) :=
  if admits h ⟨o, r⟩ then some (h ++ [⟨o, r⟩]) else none

def admittedEnv (admits : List (Event Op Res) → Event Op Res → Bool) :
    Env Op Res (List (Event Op Res)) :=
  Env.ofSteps (admittedNext admits) still

variable {admits : List (Event Op Res) → Event Op Res → Bool}

theorem admittedEnv_drift {h h' : List (Event Op Res)} (hd : (admittedEnv admits).drift h h') :
    False :=
  hd.choose.elim

theorem admittedEnv_answer {o : Op} {h h' : List (Event Op Res)} {r : Res o}
    (ha : (admittedEnv admits).answer o h r h') :
    admits h ⟨o, r⟩ = true ∧ h' = h ++ [⟨o, r⟩] := by
  obtain ⟨hadmits, hh'⟩ := Option.ite_none_right_eq_some.mp ha
  exact ⟨hadmits, (Option.some.inj hh').symm⟩

namespace Prog

theorem safe_admitted_op {I : List (Event Op Res) → Prop} {Q : α → List (Event Op Res) → Prop}
    {h : List (Event Op Res)} {o : Op} {k : Res o → Prog Op Res α}
    (hk : ∀ r, admits h ⟨o, r⟩ = true →
      I (h ++ [⟨o, r⟩]) ∧ (k r).Safe (admittedEnv admits) I Q (h ++ [⟨o, r⟩])) :
    (op o k).Safe (admittedEnv admits) I Q h := by
  intro s₁ hd r s₂ ha
  cases hd with
  | refl =>
    obtain ⟨hadmits, rfl⟩ := admittedEnv_answer ha
    exact hk r hadmits
  | tail _ hstep => exact (admittedEnv_drift hstep).elim

theorem Only.safe_admitted {P : Op → Prop} {I J : List (Event Op Res) → Prop} {R : α → Prop}
    {p : Prog Op Res α} (hp : p.Only P) (hr : p.Ensures R) (hJI : ∀ h, J h → I h)
    (hJ : ∀ o, P o → ∀ h, J h → ∀ r, J (h ++ [⟨o, r⟩])) {h : List (Event Op Res)} (hh : J h) :
    p.Safe (admittedEnv admits) I (fun a h' => R a ∧ J h') h := by
  refine hp.safe_ensures hr hJI (fun _ _ _ hd => (admittedEnv_drift hd).elim)
    (fun o ho s r s' hs ha => ?_) hh
  obtain ⟨-, rfl⟩ := admittedEnv_answer ha
  exact hJ o ho s hs r

end Prog

end Ritex.Interaction
