import Ritex.BusDiscipline
import Ritex.ProcessorTimers
import Ritex.RelyGuarantee

/-! The cycles through the modes of the station: if the clock does not go back, more than 65 seconds lie
between the frames of two of them. -/
namespace Ritex
open Interaction

/-- The last time that was read, and the times of the frames that change the mode, of earlier visits and
of this one. -/
structure CycleTrack where
  clock : Option ℤ
  earlier : List ℤ
  current : List ℤ

namespace CycleTrack

def next (t : CycleTrack) : Event Op Res → CycleTrack
  | ⟨.time, now⟩ => { t with clock := some now }
  | ⟨.enter _, _⟩ => { t with earlier := t.earlier ++ t.current, current := [] }
  | ⟨.write .changeMode packet, _⟩ => { t with current := t.current ++ [packet.timestamp] }
  | _ => t

def initial : CycleTrack := ⟨none, [], []⟩

/-- The clock does not go back. -/
def Steady (t : CycleTrack) : Event Op Res → Prop
  | ⟨.time, now⟩ => ∀ before ∈ t.clock, before ≤ now
  | _ => True

def Spaced (t : CycleTrack) : Prop :=
  ∀ before ∈ t.earlier, ∀ now ∈ t.current, before + (Processor.modeCycleTime + 5) < now

end CycleTrack

def spacing : RelyGuarantee Op Res CycleTrack where
  next := CycleTrack.next
  relies := CycleTrack.Steady
  guarantees := CycleTrack.Spaced

namespace CycleTrack

/-- The frames so far leave the next cycle its distance. -/
structure Before (cycle : ℤ) (t : CycleTrack) : Prop where
  spaced : t.Spaced
  earlier : ∀ before ∈ t.earlier, before + (Processor.modeCycleTime + 5) ≤ cycle
  current : ∀ before ∈ t.current, before + (Processor.modeCycleTime + 5) ≤ cycle

/-- A cycle is under way. -/
structure Cycling (t : CycleTrack) : Prop where
  spaced : t.Spaced
  clock : ∃ now, t.clock = some now ∧
    (∀ before ∈ t.earlier, before + (Processor.modeCycleTime + 5) < now) ∧
    ∀ before ∈ t.current, before ≤ now

theorem Before.enter {cycle : ℤ} {t : CycleTrack} (h : t.Before cycle) (state : KsuState) :
    (t.next ⟨.enter state, ()⟩).Before cycle := by
  refine ⟨fun _ _ _ hnow => ?_, fun before hbefore => ?_, fun _ hbefore => ?_⟩
  · cases hnow
  · exact (List.mem_append.mp hbefore).elim (h.earlier before) (h.current before)
  · cases hbefore

theorem Before.cycling {cycle now : ℤ} {t : CycleTrack} (h : t.Before cycle) (hclock : t.clock = some now)
    (hnow : cycle < now) : t.Cycling := by
  have htime : Processor.modeCycleTime = 60 := rfl
  refine ⟨h.spaced, now, hclock, fun before hbefore => ?_, fun before hbefore => ?_⟩
  · have hdistance := h.earlier before hbefore
    omega
  · have hdistance := h.current before hbefore
    omega

theorem Cycling.time {t : CycleTrack} (h : t.Cycling) {now : ℤ} (hsteady : t.Steady ⟨.time, now⟩) :
    (t.next ⟨.time, now⟩).Cycling := by
  obtain ⟨before, hclock, hearlier, hcurrent⟩ := h.clock
  have hle : before ≤ now := hsteady before hclock
  exact ⟨h.spaced, now, rfl, fun e he => (hearlier e he).trans_le hle, fun e he => (hcurrent e he).trans hle⟩

theorem Cycling.changeMode {t : CycleTrack} (h : t.Cycling) {packet : DataPacket}
    (hclock : t.clock = some packet.timestamp) : (t.next ⟨.write .changeMode packet, ()⟩).Cycling := by
  obtain ⟨now, hnow, hearlier, hcurrent⟩ := h.clock
  obtain rfl : now = packet.timestamp := Option.some.inj (hnow.symm.trans hclock)
  constructor
  · intro before hbefore e he
    rcases List.mem_append.mp he with he | he
    · exact h.spaced before hbefore e he
    · rw [List.mem_singleton.mp he]
      exact hearlier before hbefore
  · refine ⟨_, hnow, hearlier, fun e he => ?_⟩
    rcases List.mem_append.mp he with he | he
    · exact hcurrent e he
    · exact (List.mem_singleton.mp he).le

theorem Cycling.before {t : CycleTrack} (h : t.Cycling) {now : ℤ} (hclock : t.clock = some now) :
    t.Before (now + Processor.modeCycleTime + 5) := by
  have htime : Processor.modeCycleTime = 60 := rfl
  obtain ⟨now', hnow, hearlier, hcurrent⟩ := h.clock
  obtain rfl : now' = now := Option.some.inj (hnow.symm.trans hclock)
  refine ⟨h.spaced, fun e he => ?_, fun e he => ?_⟩
  · have hdistance := hearlier e he
    omega
  · have hdistance := hcurrent e he
    omega

end CycleTrack

/-! ### Operations that change no mode -/

def Op.NoChange : Op → Prop
  | .enter _ => False
  | .write .changeMode _ => False
  | _ => True

theorem Op.NoChange.frames {o : Op} (ho : o.NoChange) (t : CycleTrack) (r : Res o) :
    (t.next ⟨o, r⟩).earlier = t.earlier ∧ (t.next ⟨o, r⟩).current = t.current := by
  cases o with
  | enter => exact ho.elim
  | write writer packet =>
    cases writer with
    | changeMode => exact ho.elim
    | _ => exact ⟨rfl, rfl⟩
  | _ => exact ⟨rfl, rfl⟩

theorem Op.NoChange.before {o : Op} (ho : o.NoChange) {cycle : ℤ} {t : CycleTrack} (h : t.Before cycle)
    (r : Res o) : (t.next ⟨o, r⟩).Before cycle := by
  obtain ⟨hearlier, hcurrent⟩ := ho.frames t r
  refine ⟨?_, ?_, ?_⟩
  · rw [CycleTrack.Spaced, hearlier, hcurrent]
    exact h.spaced
  · rw [hearlier]
    exact h.earlier
  · rw [hcurrent]
    exact h.current

theorem Op.NoChange.cycling {o : Op} (ho : o.NoChange) {t : CycleTrack} (h : t.Cycling) (r : Res o)
    (hsteady : t.Steady ⟨o, r⟩) : (t.next ⟨o, r⟩).Cycling := by
  cases o with
  | enter => exact ho.elim
  | time => exact h.time hsteady
  | write writer packet =>
    cases writer with
    | changeMode => exact ho.elim
    | _ => exact h
  | _ => exact h

abbrev Spaces {α : Type} (x : ProcessorM α) (Q : α → CycleTrack → Prop) (t : CycleTrack) : Prop :=
  x.Meets spacing Q t

theorem CycleTrack.Before.only {cycle : ℤ} {t : CycleTrack} (h : t.Before cycle) {α : Type}
    {x : ProcessorM α} (hx : x.Only Op.NoChange) {R : α → Prop} (hr : x.Ensures R) :
    Spaces x (fun a t' => R a ∧ t'.Before cycle) t :=
  hx.meets (G := spacing) (J := fun t => t.Before cycle) hr (fun _ h => h.spaced)
    (fun _ ho _ h r _ => ho.before h r) h

theorem CycleTrack.Cycling.only {t : CycleTrack} (h : t.Cycling) {α : Type} {x : ProcessorM α}
    (hx : x.Only Op.NoChange) : Spaces x (fun _ t' => t'.Cycling) t :=
  (hx.meets (G := spacing) x.ensures_trivial (fun _ h => h.spaced)
    (fun _ ho _ h r hsteady => ho.cycling h r hsteady) h).mono fun _ _ h => h.2

namespace Processor

/-! ### The cycle -/

/-- The next cycle has its distance from all that was written. -/
def Scheduled (p : Processor) (t : CycleTrack) : Prop := t.Before p.nextModeLoopCycle

theorem Scheduled.only {p : Processor} {t : CycleTrack} (h : p.Scheduled t) {x : ProcessorM Processor}
    (hx : x.Only Op.NoChange) (hr : x.Ensures p.SameCycle) : Spaces x (fun q t' => q.Scheduled t') t :=
  (CycleTrack.Before.only h hx hr).mono fun q t' ⟨hq, ht'⟩ => by rwa [Scheduled, hq]

theorem Scheduled.perform {p : Processor} {t : CycleTrack} (h : p.Scheduled t) {α : Type}
    {x : ProcessorM α} (hx : x.Only Op.NoChange) : Spaces x (fun _ t' => p.Scheduled t') t :=
  (CycleTrack.Before.only h hx x.ensures_trivial).mono fun _ _ h => h.2

end Processor

end Ritex
