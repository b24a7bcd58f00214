import Ritex.ModeTracking
import Ritex.ProcessorTimers
import Ritex.RelyGuarantee

/-! The data records of the traffic: in the data capture mode every fifth information packet that is
checked is stored as a whole, and nothing else is. -/
namespace Ritex
open Interaction

/-- A visit of a state: the mode adopted last when it began, the answer that was waited for last, the
number of the information packet that was checked, and the records that were stored. -/
structure StateVisit where
  state : KsuState
  adopted : Option Byte
  answer : Option (Wait × ℤ)
  number : Option ℕ
  stored : List DBDataPacket

namespace StateVisit

def started (state : KsuState) (adopted : Option Byte) : StateVisit :=
  ⟨state, adopted, none, none, []⟩

/-- `m_writeMode` in the visit, if it was `first` before the first mode was adopted. -/
def writeMode (first : BitVec 32) (v : StateVisit) : BitVec 32 :=
  (v.adopted.map (·.setWidth 32)).getD first

/-- The packet is to be stored. -/
def Due (cfg : ProcessorConfig) (v : StateVisit) : Prop :=
  cfg.isDataCapture = true ∧ ∃ n ∈ v.number, 5 ∣ n

/-- The records of the packet, labelled with the write mode. -/
def IsBatch (cfg : ProcessorConfig) (first : BitVec 32) (v : StateVisit)
    (batch : List DBDataPacket) : Prop :=
  ∃ (frame : Frame) (now : ℤ) (beyond : ℕ → Byte), v.answer = some (.ok frame, now) ∧
    batch = (reportDataPacket cfg.offsetTable (frame.packet (v.writeMode first) now)).value
      ((frame.packet (v.writeMode first) now).memory beyond)

structure Sampled (cfg : ProcessorConfig) (first : BitVec 32) (v : StateVisit) : Prop where
  due : v.Due cfg → v.IsBatch cfg first v.stored
  other : ¬v.Due cfg → v.stored = []

end StateVisit

/-- The number of the information packets that were checked in the traffic, the visits that ended,
the visit under way, and the write mode. -/
structure SampleTrack where
  checks : ℕ
  visits : List StateVisit
  current : Option StateVisit
  modes : ModeTrack

namespace SampleTrack

def update (t : SampleTrack) (f : StateVisit → StateVisit) : SampleTrack :=
  { t with current := t.current.map f }

/-- The packet of a visit to the traffic is checked. -/
def check (t : SampleTrack) : SampleTrack :=
  match t.current with
  | some ⟨.processKsuTraffic, adopted, answer, _, stored⟩ =>
    { t with
      checks := t.checks + 1,
      current := some ⟨.processKsuTraffic, adopted, answer, some (t.checks + 1), stored⟩ }
  | _ => t

def visit (t : SampleTrack) : Event Op Res → SampleTrack
  | ⟨.loopTest, _⟩ => { t with visits := t.visits ++ t.current.toList, current := none }
  | ⟨.enter state, _⟩ => { t with current := some (.started state t.modes.adopted) }
  | ⟨.wait _, r⟩ => t.update fun v => { v with answer := some r }
  | ⟨.timeDiviation, _⟩ => t.check
  | ⟨.enqueData packet, _⟩ => t.update fun v => { v with stored := v.stored ++ [packet] }
  | _ => t

def next (t : SampleTrack) (e : Event Op Res) : SampleTrack :=
  { t.visit e with modes := t.modes.next e }

def initial : SampleTrack := ⟨0, [], none, ⟨false, none, none⟩⟩

/-- The numbers of the packets that were checked, visit by visit. -/
def numbers (t : SampleTrack) : List ℕ := (t.visits ++ t.current.toList).filterMap (·.number)

structure Sampled (cfg : ProcessorConfig) (first : BitVec 32) (t : SampleTrack) : Prop where
  numbers : t.numbers = List.range' 1 t.checks
  visits : ∀ v ∈ t.visits, v.state = .processKsuTraffic → v.Sampled cfg first
  current : ∀ v ∈ t.current, v.state = .processKsuTraffic → v.stored ≠ [] →
    v.Due cfg ∧ ∃ rest, v.IsBatch cfg first (v.stored ++ rest)

end SampleTrack

def sampleTrack (h : History) : SampleTrack := h.foldl SampleTrack.next .initial

def sampling (cfg : ProcessorConfig) (first : BitVec 32) : RelyGuarantee Op Res SampleTrack where
  next := SampleTrack.next
  relies _ _ := True
  guarantees := SampleTrack.Sampled cfg first

abbrev Samples (cfg : ProcessorConfig) (first : BitVec 32) {α : Type} (x : ProcessorM α)
    (Q : α → SampleTrack → Prop) (t : SampleTrack) : Prop :=
  x.Meets (sampling cfg first) Q t

/-! ### Visits under way -/

namespace SampleTrack

variable {cfg : ProcessorConfig} {first : BitVec 32} {k : ℕ} {v : StateVisit} {t : SampleTrack}

/-- The visit `v` is under way, and `k` counts the packets since one was stored. -/
structure At (cfg : ProcessorConfig) (first : BitVec 32) (k : ℕ) (v : StateVisit)
    (t : SampleTrack) : Prop where
  sampled : t.Sampled cfg first
  phase : cfg.isDataCapture = true → k % 5 = t.checks % 5
  current : t.current = some v

/-- The visit may end. -/
structure Ended (cfg : ProcessorConfig) (first : BitVec 32) (k : ℕ) (t : SampleTrack) : Prop where
  sampled : t.Sampled cfg first
  phase : cfg.isDataCapture = true → k % 5 = t.checks % 5
  current : ∀ v ∈ t.current, v.state = .processKsuTraffic → v.Sampled cfg first

theorem Sampled.modes (h : t.Sampled cfg first) (modes : ModeTrack) :
    ({ t with modes := modes } : SampleTrack).Sampled cfg first :=
  ⟨h.numbers, h.visits, h.current⟩

theorem At.modes (h : t.At cfg first k v) (modes : ModeTrack) :
    ({ t with modes := modes } : SampleTrack).At cfg first k v :=
  ⟨h.sampled.modes modes, h.phase, h.current⟩

theorem Ended.modes (h : t.Ended cfg first k) (modes : ModeTrack) :
    ({ t with modes := modes } : SampleTrack).Ended cfg first k :=
  ⟨h.sampled.modes modes, h.phase, h.current⟩

theorem At.ended (h : t.At cfg first k v) (hv : v.state = .processKsuTraffic → v.Sampled cfg first) :
    t.Ended cfg first k := by
  refine ⟨h.sampled, h.phase, fun v' hv' => ?_⟩
  obtain rfl : v = v' := Option.some.inj (h.current.symm.trans hv')
  exact hv

theorem sampled_of_unchecked (hnumber : v.number = none) (hstored : v.stored = []) :
    v.Sampled cfg first := by
  refine ⟨fun ⟨_, n, hn, _⟩ => ?_, fun _ => hstored⟩
  rw [hnumber] at hn
  cases hn

theorem Ended.loopTest (h : t.Ended cfg first k) (doRun : Bool) :
    (t.next ⟨.loopTest, doRun⟩).Ended cfg first k := by
  refine ⟨⟨?_, fun v hv => ?_, fun _ hv => ?_⟩, h.phase, fun _ hv => ?_⟩
  · simpa [next, visit, SampleTrack.numbers] using h.sampled.numbers
  · rcases List.mem_append.mp hv with hv | hv
    · exact h.sampled.visits v hv
    · exact h.current v (Option.mem_toList.mp hv)
  · cases hv
  · cases hv

theorem Ended.enter (h : t.Ended cfg first k) (hnone : t.current = none) (state : KsuState) :
    (t.next ⟨.enter state, ()⟩).At cfg first k (.started state t.modes.adopted) := by
  refine ⟨⟨?_, h.sampled.visits, fun v hv _ hstored => ?_⟩, h.phase, rfl⟩
  · have hnumbers := h.sampled.numbers
    simpa [next, visit, SampleTrack.numbers, hnone, StateVisit.started] using hnumbers
  · cases hv
    exact absurd rfl hstored

theorem numbers_update {f : StateVisit → StateVisit} (hf : ∀ v, (f v).number = v.number)
    (t : SampleTrack) : (t.update f).numbers = t.numbers := by
  unfold numbers update
  cases t.current with
  | none => rfl
  | some v => simp [List.filterMap_cons, hf]

theorem At.heard (h : t.At cfg first k v) (hv : v.stored = []) (timeout : ℕ) (r : Wait × ℤ) :
    (t.next ⟨.wait timeout, r⟩).At cfg first k { v with answer := some r } := by
  have hcurrent : (t.next ⟨.wait timeout, r⟩).current = some { v with answer := some r } := by
    simp [next, visit, update, h.current]
  refine ⟨⟨?_, h.sampled.visits, fun v' hv' _ hstored => ?_⟩, h.phase, hcurrent⟩
  · exact (numbers_update (f := fun v => { v with answer := some r }) (fun _ => rfl) t).trans
      h.sampled.numbers
  · rw [hcurrent] at hv'
    cases hv'
    exact absurd hv hstored

theorem At.checked {adopted : Option Byte} {answer : Option (Wait × ℤ)}
    (h : t.At cfg first k ⟨.processKsuTraffic, adopted, answer, none, []⟩) (diviation : ℤ) :
    (t.next ⟨.timeDiviation, diviation⟩).At cfg first (k + 1) ⟨.processKsuTraffic, adopted, answer,
      some (t.next ⟨.timeDiviation, diviation⟩).checks, []⟩ := by
  have hvisit : t.visit ⟨.timeDiviation, diviation⟩ = { t with
      checks := t.checks + 1,
      current := some ⟨.processKsuTraffic, adopted, answer, some (t.checks + 1), []⟩ } := by
    simp [visit, check, h.current]
  have hnext : t.next ⟨.timeDiviation, diviation⟩ = { t with
      checks := t.checks + 1,
      current := some ⟨.processKsuTraffic, adopted, answer, some (t.checks + 1), []⟩
      modes := t.modes.next ⟨.timeDiviation, diviation⟩ } := by
    rw [next, hvisit]
  rw [hnext]
  refine ⟨⟨?_, h.sampled.visits, fun v hv _ hstored => ?_⟩, fun hcapture => ?_, rfl⟩
  · have hnumbers := h.sampled.numbers
    simp only [SampleTrack.numbers, h.current, Option.toList_some, List.filterMap_append] at hnumbers ⊢
    rw [List.range'_concat, ← hnumbers]
    simp [Nat.add_comm]
  · cases hv
    exact absurd rfl hstored
  · have hphase := h.phase hcapture
    show (k + 1) % 5 = (t.checks + 1) % 5
    omega

theorem At.stores {batch : List DBDataPacket} {packet : DBDataPacket} (h : t.At cfg first k v)
    (hdue : v.Due cfg) (hbatch : v.IsBatch cfg first (v.stored ++ packet :: batch)) :
    (t.next ⟨.enqueData packet, ()⟩).At cfg first k { v with stored := v.stored ++ [packet] } := by
  have hcurrent : (t.next ⟨.enqueData packet, ()⟩).current =
      some { v with stored := v.stored ++ [packet] } := by
    simp [next, visit, update, h.current]
  refine ⟨⟨?_, h.sampled.visits, fun v' hv' _ _ => ?_⟩, h.phase, hcurrent⟩
  · exact (numbers_update (f := fun v => { v with stored := v.stored ++ [packet] })
      (fun _ => rfl) t).trans h.sampled.numbers
  · rw [hcurrent] at hv'
    cases hv'
    refine ⟨hdue, batch, ?_⟩
    rw [List.append_assoc]
    exact hbatch

end SampleTrack

/-! ### Operations that are not followed -/

/-- Operations that leave the track as it is. -/
def Op.Untracked : Op → Prop
  | .loopTest => False
  | .enter _ => False
  | .wait _ => False
  | .timeDiviation => False
  | .enqueData _ => False
  | _ => True

theorem Op.Untracked.visit {o : Op} (ho : o.Untracked) (t : SampleTrack) (r : Res o) :
    t.visit ⟨o, r⟩ = t := by
  cases o with
  | loopTest | enter | wait | timeDiviation | enqueData => exact ho.elim
  | _ => rfl

section Untracked

variable {cfg : ProcessorConfig} {first : BitVec 32} {α : Type} {x : ProcessorM α}
  {t : SampleTrack} {k : ℕ}

theorem untracked_samples (hx : x.Only Op.Untracked) {J : SampleTrack → Prop}
    (hJ : ∀ t, J t → t.Sampled cfg first)
    (hmodes : ∀ t modes, J t → J { t with modes := modes }) (ht : J t) :
    Samples cfg first x (fun _ => J) t := by
  refine (hx.meets (G := sampling cfg first) x.ensures_trivial hJ (fun o ho t ht r _ => ?_) ht).mono
    fun _ _ h => h.2
  show J { t.visit ⟨o, r⟩ with modes := t.modes.next ⟨o, r⟩ }
  rw [ho.visit]
  exact hmodes t _ ht

theorem SampleTrack.At.untracked {v : StateVisit} (h : t.At cfg first k v)
    (hx : x.Only Op.Untracked) :
    Samples cfg first x (fun _ t' => t'.checks = t.checks ∧ t'.At cfg first k v) t :=
  untracked_samples hx (J := fun t' => t'.checks = t.checks ∧ t'.At cfg first k v)
    (fun _ h => h.2.sampled) (fun _ modes h => ⟨h.1, h.2.modes modes⟩) ⟨rfl, h⟩

theorem SampleTrack.Ended.untracked (h : t.Ended cfg first k) (hx : x.Only Op.Untracked) :
    Samples cfg first x (fun _ t' => t'.Ended cfg first k) t :=
  untracked_samples hx (fun _ h => h.sampled) (fun _ modes h => h.modes modes) h

end Untracked

namespace Processor

theorem readData_untracked {α : Type} (packet : DataPacket) (x : PayloadReader α) :
    (readData packet x).Only Op.Untracked :=
  ⟨trivial, fun _ => trivial⟩

theorem reportEvents_untracked (events : List DBEventCommon) :
    (reportEvents events).Only Op.Untracked := by
  induction events with
  | nil => trivial
  | cons event events ih => exact ⟨trivial, fun _ => ih⟩

theorem reportMotor_untracked (cfg : ProcessorConfig) (oldStatus newStatus : Byte) :
    (reportMotor cfg oldStatus newStatus).Only Op.Untracked := by
  unfold reportMotor
  split
  · exact ⟨trivial, fun _ => reportEvents_untracked _⟩
  · trivial

theorem needCapture_untracked (p : Processor) : p.needCapture.Only Op.Untracked := by
  unfold needCapture
  refine Prog.Only.bind ⟨trivial, fun _ => trivial⟩ fun empty => ?_
  split
  · exact ⟨trivial, fun _ => trivial⟩
  · trivial

theorem checkSettings_untracked (cfg : ProcessorConfig) (p : Processor) (packet : DataPacket) :
    (p.checkSettings cfg packet).Only Op.Untracked := by
  unfold checkSettings
  split
  · refine Prog.Only.bind ⟨trivial, fun _ => trivial⟩ fun _ => ?_
    exact (readData_untracked packet _).bind fun _ => (reportEvents_untracked _).bind fun _ => trivial
  · exact ⟨trivial, fun _ => trivial⟩

/-! ### Traffic -/

variable {cfg : ProcessorConfig} {first : BitVec 32} {t : SampleTrack}

/-- The packets since one was stored are counted. -/
abbrev Counts (cfg : ProcessorConfig) (first : BitVec 32) (q : Processor) (t : SampleTrack) : Prop :=
  t.Ended cfg first q.dataCapturePeriod

theorem enqueData_samples {k : ℕ} {v : StateVisit} (batch : List DBDataPacket)
    (h : t.At cfg first k v) (hdue : v.Due cfg)
    (hbatch : v.IsBatch cfg first (v.stored ++ batch)) :
    Samples cfg first (enqueData batch) (fun _ t' => t'.Ended cfg first k) t := by
  induction batch generalizing v t with
  | nil =>
    rw [List.append_nil] at hbatch
    exact h.ended fun _ => ⟨fun _ => hbatch, fun hnot => absurd hdue hnot⟩
  | cons packet batch ih =>
    intro _ _
    have hstored := h.stores hdue hbatch
    refine ⟨hstored.sampled, ih hstored hdue ?_⟩
    rw [List.append_assoc]
    exact hbatch

theorem captureData_samples {p : Processor} {frame : Frame} {now : ℤ} {mode : BitVec 32}
    {adopted : Option Byte} (hmode : (StateVisit.started .processKsuTraffic adopted).writeMode first = mode)
    {n : ℕ} (hn : n = t.checks) (h : t.At cfg first (p.dataCapturePeriod + 1)
      ⟨.processKsuTraffic, adopted, some (.ok frame, now), some n, []⟩) :
    Samples cfg first (p.captureData cfg (frame.packet mode now))
      (fun q t' => q.Counts cfg first t') t := by
  subst hn
  have hnotDue (hnot : ¬(cfg.isDataCapture = true ∧ 5 ∣ t.checks)) : StateVisit.Sampled cfg first
      ⟨.processKsuTraffic, adopted, some (.ok frame, now), some t.checks, []⟩ := by
    refine ⟨fun ⟨hcapture, n, hn, hfifth⟩ => ?_, fun _ => rfl⟩
    cases hn
    exact absurd ⟨hcapture, hfifth⟩ hnot
  unfold captureData
  split
  next hcapture =>
    have hcount := h.phase hcapture
    split
    next hfifth =>
      rw [capturePeriod] at hfifth
      have hrestart : t.At cfg first 0
          ⟨.processKsuTraffic, adopted, some (.ok frame, now), some t.checks, []⟩ :=
        ⟨h.sampled, fun _ => by omega, h.current⟩
      have hreport : Samples cfg first (reportData cfg (frame.packet mode now))
          (fun _ t' => t'.Ended cfg first 0) t := by
        intro (beyond : ℕ → Byte) _
        have hread := h.modes (t.modes.next ⟨.heap, beyond⟩)
        refine ⟨hread.sampled, enqueData_samples _ (hrestart.modes _)
          ⟨hcapture, t.checks, rfl, by omega⟩ ?_⟩
        subst hmode
        exact ⟨frame, now, beyond, rfl, rfl⟩
      exact hreport.bind fun _ _ h' => h'
    next hother =>
      rw [capturePeriod] at hother
      exact h.ended fun _ => hnotDue fun hdue => by omega
  next hcapture =>
    have hended := h.ended fun _ => hnotDue fun hdue => hcapture hdue.1
    exact ⟨hended.sampled, fun h => absurd h hcapture, hended.current⟩

theorem checkPacket_samples {p : Processor} {adopted : Option Byte} {answer : Option (Wait × ℤ)}
    (packet : DataPacket)
    (h : t.At cfg first p.dataCapturePeriod ⟨.processKsuTraffic, adopted, answer, none, []⟩) :
    Samples cfg first (p.checkPacket cfg packet) (fun q t' =>
      q.dataCapturePeriod = p.dataCapturePeriod ∧ ∃ n, n = t'.checks ∧
        t'.At cfg first (p.dataCapturePeriod + 1)
          ⟨.processKsuTraffic, adopted, answer, some n, []⟩) t := by
  unfold checkPacket
  refine (h.untracked (readData_untracked packet _)).bind fun fault t₁ ⟨_, h₁⟩ => ?_
  refine (h₁.untracked (reportEvents_untracked _)).bind fun _ t₂ ⟨_, h₂⟩ => ?_
  intro systemTime _
  have h₃ := h₂.modes (t₂.modes.next ⟨.time, systemTime⟩)
  refine ⟨h₃.sampled, fun diviation _ => ?_⟩
  have hchecked := h₃.checked diviation
  refine ⟨hchecked.sampled, ?_⟩
  refine (hchecked.untracked (readData_untracked packet _)).bind fun time t₄ ⟨hchecks₄, h₄⟩ => ?_
  refine (h₄.untracked (reportEvents_untracked _)).bind fun _ t₅ ⟨hchecks₅, h₅⟩ => ?_
  exact ⟨rfl, _, (hchecks₅.trans hchecks₄).symm, h₅⟩

theorem captureOrReport_samples {p : Processor} {frame : Frame} {now : ℤ} {mode : BitVec 32}
    {adopted : Option Byte} (hmode : (StateVisit.started .processKsuTraffic adopted).writeMode first = mode)
    (h : t.At cfg first p.dataCapturePeriod
      ⟨.processKsuTraffic, adopted, some (.ok frame, now), none, []⟩) :
    Samples cfg first (p.captureOrReport cfg (frame.packet mode now))
      (fun q t' => q.Counts cfg first t') t := by
  unfold captureOrReport
  refine (h.untracked p.needCapture_untracked).bind fun need t₁ ⟨_, h₁⟩ => ?_
  split
  · exact h₁.ended fun _ => SampleTrack.sampled_of_unchecked rfl rfl
  · refine (checkPacket_samples _ h₁).bind fun q t' ⟨hq, n, hn, ht'⟩ => ?_
    rw [← hq] at ht'
    exact captureData_samples hmode hn ht'

theorem trafficInfo_samples {p : Processor} {frame : Frame} {now : ℤ} {mode : BitVec 32}
    {adopted : Option Byte} (hmode : (StateVisit.started .processKsuTraffic adopted).writeMode first = mode)
    (h : t.At cfg first p.dataCapturePeriod
      ⟨.processKsuTraffic, adopted, some (.ok frame, now), none, []⟩) :
    Samples cfg first (p.trafficInfo cfg (frame.packet mode now))
      (fun q t' => q.Counts cfg first t') t := by
  unfold trafficInfo
  refine (h.untracked (readData_untracked _ _)).bind fun status t₁ ⟨_, h₁⟩ => ?_
  split
  · refine (h₁.untracked (reportMotor_untracked cfg _ _)).bind fun _ t₂ ⟨_, h₂⟩ => ?_
    exact captureOrReport_samples hmode h₂
  · exact captureOrReport_samples hmode h₁

/-! ### Visits that check nothing -/

end Processor

/-- Operations that neither check a packet nor store one, nor begin or end a visit. -/
def Op.Listening (o : Op) : Prop := o.Untracked ∨ ∃ timeout, o = .wait timeout

theorem unchecked_samples {cfg : ProcessorConfig} {first : BitVec 32} {k : ℕ} {α : Type}
    {x : ProcessorM α} (hx : x.Only Op.Listening) {R : α → Prop} (hr : x.Ensures R)
    {t : SampleTrack} {adopted : Option Byte} {answer : Option (Wait × ℤ)}
    (h : t.At cfg first k ⟨.processKsuTraffic, adopted, answer, none, []⟩) :
    Samples cfg first x (fun a t' => R a ∧ t'.Ended cfg first k) t := by
  refine (hx.meets (G := sampling cfg first)
    (J := fun t => ∃ answer, t.At cfg first k ⟨.processKsuTraffic, adopted, answer, none, []⟩) hr
    (fun _ ⟨_, h⟩ => h.sampled) (fun o ho t ⟨answer, h⟩ r _ => ?_) ⟨answer, h⟩).mono
    fun _ _ ⟨hr, _, h⟩ => ⟨hr, h.ended fun _ => SampleTrack.sampled_of_unchecked rfl rfl⟩
  rcases ho with ho | ⟨timeout, rfl⟩
  · refine ⟨answer, ?_⟩
    show ({ t.visit ⟨o, r⟩ with modes := t.modes.next ⟨o, r⟩ } : SampleTrack).At cfg first k _
    rw [ho.visit]
    exact h.modes _
  · exact ⟨some r, h.heard rfl timeout r⟩

namespace Processor

theorem listening_of_untracked {α : Type} {x : ProcessorM α} (hx : x.Only Op.Untracked) :
    x.Only Op.Listening :=
  hx.mono fun _ ho => .inl ho

theorem wait_listening (p : Processor) (timeout : ℕ) :
    (p.waitForKsuActivity timeout).Only Op.Listening :=
  ⟨.inr ⟨timeout, rfl⟩, fun _ => trivial⟩

theorem deref_listening (packet : Option DataPacket) : (deref packet).Only Op.Listening := by
  cases packet with
  | none => exact ⟨.inl trivial, fun _ => trivial⟩
  | some packet => trivial

theorem readData_listening {α : Type} (packet : DataPacket) (x : PayloadReader α) :
    (readData packet x).Only Op.Listening :=
  listening_of_untracked (readData_untracked packet x)

theorem motorStatusReply_listening (cfg : ProcessorConfig) (p : Processor) :
    (p.motorStatusReply cfg).Only Op.Listening := by
  unfold motorStatusReply
  refine (wait_listening p _).bind fun received => ?_
  dsimp only
  split
  · refine (deref_listening _).bind fun packet => ?_
    split
    · refine (readData_listening packet _).bind fun status => ?_
      exact (listening_of_untracked (reportMotor_untracked cfg _ _)).bind fun _ => trivial
    · trivial
  · trivial

theorem processMotorCmd_listening (cfg : ProcessorConfig) (p : Processor) :
    (p.processMotorCmd cfg).Only Op.Listening := by
  unfold processMotorCmd
  refine (wait_listening p _).bind fun received => ?_
  dsimp only
  split
  · refine (deref_listening _).bind fun packet => ?_
    split
    · refine (readData_listening packet _).bind fun code => ?_
      split
      · refine (wait_listening p _).bind fun received => ?_
        split
        · refine (deref_listening _).bind fun packet => ?_
          split
          · exact motorStatusReply_listening cfg p
          · trivial
        · trivial
      · trivial
    · trivial
  · trivial

theorem trafficMotor_listening (cfg : ProcessorConfig) (p : Processor) (packet : DataPacket) :
    (p.trafficMotor cfg packet).Only Op.Listening := by
  unfold trafficMotor
  split
  · exact (readData_listening packet _).bind fun _ => processMotorCmd_listening cfg p
  · exact processMotorCmd_listening cfg p

variable {cfg : ProcessorConfig} {first : BitVec 32} {t : SampleTrack}

theorem processTraffic_samples {p : Processor} {adopted : Option Byte}
    (hmode : (StateVisit.started .processKsuTraffic adopted).writeMode first = p.writeMode)
    (h : t.At cfg first p.dataCapturePeriod (.started .processKsuTraffic adopted)) :
    Samples cfg first (p.processTraffic cfg) (fun q t' => q.Counts cfg first t') t := by
  unfold processTraffic
  intro (w, now) _
  have hheard := h.heard rfl (ksuInactivityTimeout * 20) (w, now)
  refine ⟨hheard.sampled, ?_⟩
  have hquiet := hheard.ended fun _ => SampleTrack.sampled_of_unchecked rfl rfl
  cases w with
  | error e => cases e <;> exact hquiet
  | ok frame =>
    show Samples cfg first (if getCmd (frame.packet p.writeMode now).cmd = ackInfo then _
      else if getCmd (frame.packet p.writeMode now).cmd = ackAllSettings then _
      else if isMotorCommand (getCmd (frame.packet p.writeMode now).cmd) then _ else _) _ _
    split
    · exact trafficInfo_samples hmode hheard
    · split
      · refine (unchecked_samples (listening_of_untracked (checkSettings_untracked cfg p _))
          (checkSettings_sameTimers cfg p _) hheard).mono fun q t' ⟨hq, ht'⟩ => ?_
        rwa [Counts, hq.dataCapturePeriod]
      · split
        · refine (unchecked_samples (trafficMotor_listening cfg p _)
            (trafficMotor_ensures cfg p _ (Q := fun q => q.dataCapturePeriod = p.dataCapturePeriod)
              fun _ => rfl) hheard).mono fun q t' ⟨hq, ht'⟩ => ?_
          rwa [Counts, hq]
        · exact hquiet

/-! ### Captures -/

end Processor

/-- Operations that neither begin nor end a visit. -/
def Op.Inside : Op → Prop
  | .loopTest => False
  | .enter _ => False
  | _ => True

theorem Op.inside_of_ordinary (o : Op) (ho : o.Ordinary) : o.Inside := by
  cases o with
  | loopTest | enter => exact ho.1.elim
  | _ => trivial

namespace SampleTrack

/-- The station is being captured. -/
structure Capturing (cfg : ProcessorConfig) (first : BitVec 32) (k : ℕ) (t : SampleTrack) :
    Prop where
  sampled : t.Sampled cfg first
  phase : cfg.isDataCapture = true → k % 5 = t.checks % 5
  current : ∃ v, t.current = some v ∧ v.state = .captureDevice

variable {cfg : ProcessorConfig} {first : BitVec 32} {k : ℕ} {t : SampleTrack}

theorem Capturing.ended (h : t.Capturing cfg first k) : t.Ended cfg first k := by
  refine ⟨h.sampled, h.phase, fun v hv hstate => ?_⟩
  obtain ⟨v', hcurrent, hcapture⟩ := h.current
  obtain rfl : v' = v := Option.some.inj (hcurrent.symm.trans hv)
  rw [hcapture] at hstate
  cases hstate

theorem Capturing.modes (h : t.Capturing cfg first k) (modes : ModeTrack) :
    ({ t with modes := modes } : SampleTrack).Capturing cfg first k :=
  ⟨h.sampled.modes modes, h.phase, h.current⟩

theorem Capturing.update (h : t.Capturing cfg first k) {f : StateVisit → StateVisit}
    (hnumber : ∀ v, (f v).number = v.number) (hstate : ∀ v, (f v).state = v.state) :
    (t.update f).Capturing cfg first k := by
  obtain ⟨v, hcurrent, hcapture⟩ := h.current
  have hupdated : (t.update f).current = some (f v) := by simp [SampleTrack.update, hcurrent]
  refine ⟨⟨(numbers_update hnumber t).trans h.sampled.numbers, h.sampled.visits, ?_⟩, h.phase,
    f v, hupdated, (hstate v).trans hcapture⟩
  intro v' hv' htraffic
  obtain rfl : f v = v' := Option.some.inj (hupdated.symm.trans hv')
  rw [hstate, hcapture] at htraffic
  cases htraffic

theorem Capturing.next (h : t.Capturing cfg first k) {o : Op} (ho : o.Inside) (r : Res o) :
    (t.next ⟨o, r⟩).Capturing cfg first k := by
  suffices hvisit : (t.visit ⟨o, r⟩).Capturing cfg first k from hvisit.modes _
  cases o with
  | loopTest | enter => exact ho.elim
  | wait => exact h.update (fun _ => rfl) fun _ => rfl
  | enqueData => exact h.update (fun _ => rfl) fun _ => rfl
  | timeDiviation =>
    obtain ⟨⟨state, adopted, answer, number, stored⟩, hcurrent, rfl⟩ := h.current
    have hcheck : t.check = t := by simp [check, hcurrent]
    show t.check.Capturing cfg first k
    rwa [hcheck]
  | _ => exact h

end SampleTrack

namespace Processor

variable {cfg : ProcessorConfig} {first : BitVec 32} {t : SampleTrack}

theorem processCapture_samples (fuel : ℕ) {p : Processor}
    {adopted : Option Byte}
    (h : t.At cfg first p.dataCapturePeriod (.started .captureDevice adopted)) :
    Samples cfg first (p.processCapture cfg fuel) (fun q t' => q.Counts cfg first t') t := by
  have hcapturing : t.Capturing cfg first p.dataCapturePeriod :=
    ⟨h.sampled, h.phase, _, h.current, rfl⟩
  have hinside := processCapture_only Op.inside_of_ordinary trivial (fun _ => trivial)
    (fun _ _ => trivial) trivial trivial trivial cfg fuel p
  refine (hinside.meets (G := sampling cfg first) (processCapture_sameCount cfg fuel p)
    (fun _ h => h.sampled) (fun _ ho _ h r _ => h.next ho r) hcapturing).mono
    fun q t' ⟨hq, ht'⟩ => ?_
  rw [Counts, hq]
  exact ht'.ended

/-! ### The thread -/

theorem Counts.perform {p : Processor} (h : p.Counts cfg first t) {o : Op} (ho : o.Untracked) :
    Samples cfg first (Prog.perform o) (fun _ t' => p.Counts cfg first t') t :=
  SampleTrack.Ended.untracked h ⟨ho, fun _ => trivial⟩

theorem runRound_samples (fuel : ℕ) {p : Processor} (h : p.Counts cfg first t)
    (hmode : p.writeMode = writeModeAfter first t.modes) :
    Samples cfg first (p.runRound cfg fuel)
      (fun x t' => Sum.elim (·.Counts cfg first t') (·.Counts cfg first t') x) t := by
  unfold runRound
  intro (doRun : Bool) _
  have htested := SampleTrack.Ended.loopTest h doRun
  refine ⟨htested.sampled, ?_⟩
  show Samples cfg first (if doRun = true then _ else _ : ProcessorM _) _ _
  split
  · intro _ _
    have hentered := htested.enter rfl p.nextState
    refine ⟨hentered.sampled, ?_⟩
    have hstate : Samples cfg first (Processor.processState cfg fuel { p with state := p.nextState })
        (fun q t' => q.Counts cfg first t')
        ((t.next ⟨.loopTest, doRun⟩).next ⟨.enter p.nextState, ()⟩) := by
      unfold processState
      cases hnext : p.nextState with
      | processKsuTraffic =>
        rw [hnext] at hentered
        exact processTraffic_samples hmode.symm hentered
      | captureDevice =>
        rw [hnext] at hentered
        exact processCapture_samples fuel hentered
    refine hstate.bind fun q t₁ h₁ => ?_
    split
    · exact (Counts.perform h₁ (o := .setDoRun true) trivial).bind fun _ _ h₂ => h₂
    · refine (Counts.perform h₁ (o := .queueEmpty) trivial).bind fun empty t₂ h₂ => ?_
      exact (Counts.perform h₂ (o := .setDoRun _) trivial).bind fun _ _ h₃ => h₃
  · exact htested

/-- The track that the visits are followed with has the write mode of the history. -/
theorem sampleTrack_modes (h : History) : (sampleTrack h).modes = modeTrack h := by
  induction h using List.reverseRecOn with
  | nil => rfl
  | append_singleton h e ih =>
    rw [modeTrack_snoc, ← ih, sampleTrack, List.foldl_append]
    rfl

/-- Between two rounds the packets are counted and the write mode is the one adopted last. -/
structure BetweenVisits (cfg : ProcessorConfig) (first : BitVec 32) (q : Processor) (h : History) :
    Prop where
  counts : q.Counts cfg first (sampleTrack h)
  follows : Follows first q h

abbrev SampledRun (cfg : ProcessorConfig) (first : BitVec 32) {α : Type} (x : ProcessorM α)
    (Q : α → History → Prop) (h : History) : Prop :=
  x.Safe (historyEnv Op Res) (fun h' => (sampleTrack h').Sampled cfg first) Q h

theorem runRound_sampledRun (fuel : ℕ) {p : Processor} {h : History}
    (hp : BetweenVisits cfg first p h) : SampledRun cfg first (p.runRound cfg fuel)
      (fun x h' => (sampleTrack h').Sampled cfg first ∧
        ∀ q, x = .inl q → BetweenVisits cfg first q h') h := by
  have hmode : p.writeMode = writeModeAfter first (sampleTrack h).modes := by
    rw [sampleTrack_modes]
    exact hp.follows.writeMode
  have hsamples := (runRound_samples fuel hp.counts hmode).safe_history fun _ _ => trivial
  refine (hsamples.and (runRound_tracked cfg fuel hp.follows)).mono fun x h' ⟨hx, hfollows⟩ => ?_
  cases x with
  | inl q =>
    refine ⟨hx.sampled, ?_⟩
    rintro _ ⟨rfl⟩
    exact ⟨hx, hfollows q rfl⟩
  | inr q =>
    refine ⟨hx.sampled, ?_⟩
    rintro _ ⟨⟩

theorem run_sampledRun (fuel : ℕ) {p : Processor} (hp : p.dataCapturePeriod = capturePeriod) :
    SampledRun cfg p.writeMode (p.run cfg fuel) (fun _ _ => True) [] := by
  have hinitial : p.Counts cfg p.writeMode (sampleTrack []) := by
    refine ⟨⟨rfl, ?_, ?_⟩, fun _ => by rw [hp]; rfl, ?_⟩ <;> simp [sampleTrack, SampleTrack.initial]
  have hempty : Follows p.writeMode p [] := ⟨rfl, rfl⟩
  have hkeep : ∀ {α : Type} {x : ProcessorM α} {h : History}, x.Only Op.Untracked →
      x.Only Op.NotAsking → BetweenVisits cfg p.writeMode p h →
      SampledRun cfg p.writeMode x (fun _ => BetweenVisits cfg p.writeMode p) h := by
    intro α x h hx hasking hbetween
    have hcounts := (hbetween.counts.untracked hx).safe_history fun _ _ => trivial
    have hfollows := hbetween.follows.only hasking x.ensures_trivial
    exact (hcounts.and hfollows).mono fun _ _ h => ⟨h.1, h.2.2⟩
  unfold run
  refine (hkeep (waitForStart_only trivial trivial trivial trivial trivial cfg fuel)
    (waitForStart_only (by simp [Op.NotAsking]) (by simp [Op.NotAsking]) (by simp [Op.NotAsking])
      (by simp [Op.NotAsking]) (by simp [Op.NotAsking]) cfg fuel)
    ⟨hinitial, hempty⟩).bind fun _ h₁ hp₁ => ?_
  refine (hkeep (x := time) ⟨trivial, fun _ => trivial⟩ ⟨by simp [Op.NotAsking], fun _ => trivial⟩
    hp₁).bind fun now h₂ hp₂ => ?_
  have hstarted : BetweenVisits cfg p.writeMode { p with
      state := .processKsuTraffic, nextState := .processKsuTraffic, nextModeLoopCycle := now } h₂ :=
    ⟨hp₂.counts, hp₂.follows.same rfl⟩
  refine (Prog.Safe.loop (J := BetweenVisits cfg p.writeMode)
    (Q := fun _ h => (sampleTrack h).Sampled cfg p.writeMode) (fun q h hq =>
      (runRound_sampledRun fuel hq).mono fun x h' hx => ?_) fuel hstarted).bind fun _ h₃ hs₃ => ?_
  · cases x with
    | inl q => exact hx.2 q rfl
    | inr q => exact hx.1
  have hrest : ∀ {α : Type} {x : ProcessorM α}, x.Only Op.Untracked → ∀ {h},
      (sampleTrack h).Sampled cfg p.writeMode →
      SampledRun cfg p.writeMode x (fun _ h' => (sampleTrack h').Sampled cfg p.writeMode) h :=
    fun hx _ hs => (untracked_samples hx (fun _ => id) (fun _ modes h => h.modes modes)
      hs).safe_history fun _ _ => trivial
  refine (hrest ?_ hs₃).mono fun _ _ _ => trivial
  refine Prog.Only.bind ⟨trivial, fun _ => trivial⟩ fun _ => ?_
  refine (Prog.Only.loop (fun _ => clearRound_only trivial) fuel ()).bind fun _ => ?_
  exact ⟨trivial, fun _ => ⟨trivial, fun _ => trivial⟩⟩

end Processor

/-- In every run the information packets that are checked in the traffic, at most one in a visit, are
counted; in the data capture mode a visit stores all records of its packet, as `m_writeMode` labels
it, if the number is a multiple of five, and otherwise a visit to the traffic stores nothing. -/
theorem run_sampled (cfg : ProcessorConfig) (fuel : ℕ) {p : Processor}
    (hp : p.dataCapturePeriod = Processor.capturePeriod) {c : ProcessorM Unit × History}
    (h : (historyEnv Op Res).Reaches (p.run cfg fuel, []) c) :
    (sampleTrack c.2).Sampled cfg p.writeMode := by
  refine (Processor.run_sampledRun fuel hp).reaches ?_
    (fun _ _ _ hd => (historyEnv_drift hd).elim) h
  constructor <;> simp [sampleTrack, SampleTrack.initial, SampleTrack.numbers]

/-- A visit to the traffic whose information packet comes at `now`. -/
def checkedScript (now : ℤ) : List (Event Op Res) :=
  [⟨.loopTest, true⟩, ⟨.enter .processKsuTraffic, ()⟩,
   ⟨.wait 30000, ((.ok infoFrame : Wait), now)⟩, ⟨.heap, fun _ : ℕ => (0 : Byte)⟩,
   ⟨.queueEmpty, true⟩, ⟨.time, (0 : ℤ)⟩, ⟨.heap, fun _ : ℕ => (0 : Byte)⟩, ⟨.time, (0 : ℤ)⟩,
   ⟨.timeDiviation, (0 : ℤ)⟩, ⟨.heap, fun _ : ℕ => (0 : Byte)⟩]

def fifthScript : List (Event Op Res) :=
  ⟨.time, (0 : ℤ)⟩ :: ([1, 2, 3, 4].flatMap fun now => checkedScript now ++ [⟨.setDoRun true, ()⟩]) ++
    checkedScript 5 ++
    [⟨.heap, fun _ : ℕ => (0 : Byte)⟩, ⟨.enqueData ⟨2, 1, 5, 0⟩, ()⟩, ⟨.setDoRun true, ()⟩,
     ⟨.loopTest, false⟩]

theorem run_sampled_fifth :
    (sampleTrack fifthScript).Sampled ⟨true, [], [⟨1, 2, 100, 0, 1⟩], fun _ => 0⟩
      knownProcessor.writeMode := by
  obtain ⟨x, hreaches⟩ := Prog.exists_reaches_of_answers fifthScript
    (p := knownProcessor.run ⟨true, [], [⟨1, 2, 100, 0, 1⟩], fun _ => 0⟩ 6) (h := [])
    (by decide +kernel)
  exact run_sampled _ 6 rfl hreaches

end Ritex
