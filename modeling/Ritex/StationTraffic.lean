import Ritex.ProcessorMembers
import Ritex.SettingsRestart

/-! The events of type 10 in the traffic: which status bytes of the station are accepted, and which
of their changes are reported. -/
namespace Ritex
open Interaction

/-- What the processor got from its waits, and the events of type 10 that it reported. -/
structure TrafficLog where
  waits : List Wait := []
  events : List DBEventCommon := []

namespace TrafficLog

def next : (o : Op) → TrafficLog → Res o → Option TrafficLog
  | .wait _, s, (w : Wait × ℤ) => some { s with waits := s.waits ++ [w.1] }
  | .reportEvent event, s, _ =>
    if event.typeId = 10 then some { s with events := s.events ++ [event] } else some s
  | _, s, _ => some s

end TrafficLog

def trafficEnv : Env Op Res TrafficLog := Env.ofSteps TrafficLog.next still

/-- `Run` accepts a status byte from a report, `ProcessMotorCmd` from the end of an exchange. -/
inductive StatusPath
  | report
  | exchange
  deriving DecidableEq

def Frame.HasCmd (f : Frame) (cmd : Word) : Prop := f.cmd.setWidth 16 = cmd

instance (f : Frame) (cmd : Word) : Decidable (f.HasCmd cmd) := inferInstanceAs (Decidable (_ = _))

def Frame.status (f : Frame) : Byte := f.payload.getD 0 0

/-- The status byte that a round of the traffic accepts. A motor command of the operator is followed
by an acknowledgement with code 0, a request for information and the information. -/
def acceptedStatus : List Wait → Option (StatusPath × Byte)
  | [.ok info] => if info.HasCmd ackInfo then some (.report, info.status) else none
  | [.ok command, .ok ack, .ok request, .ok info] =>
    if Processor.isMotorCommand (command.cmd.setWidth 16) ∧ ack.HasCmd ackAck ∧ ack.status = 0 ∧
      request.HasCmd reqInfo ∧ info.HasCmd ackInfo then some (.exchange, info.status) else none
  | _ => none

def onBit (status : Byte) : Byte := status &&& vdOnMask

/-- The event reports the change of the on-bit. -/
structure TellsChange (event : DBEventCommon) (old new : Byte) : Prop where
  argument1 : event.argument1 = itoa (onBit new).toNat
  argument2 : event.argument2 = itoa (onBit old).toNat

/-- A round reports the change from the status before it, and nothing else. -/
def Truthful (prev : Option Byte) (log : TrafficLog) : Prop :=
  match acceptedStatus log.waits, prev with
  | some (_, new), some old =>
    if onBit new = onBit old then log.events = [] else ∃ e, log.events = [e] ∧ TellsChange e old new
  | _, _ => log.events = []

def statusAfter (prev : Option Byte) (log : TrafficLog) : Option Byte :=
  match acceptedStatus log.waits with
  | some (_, new) => some new
  | none => prev

def TruthfulFrom : Option Byte → List TrafficLog → Prop
  | _, [] => True
  | prev, log :: logs => Truthful prev log ∧ TruthfulFrom (statusAfter prev log) logs

/-- The marker for an unknown status. -/
def unknownStatus : Byte := 0xFF

/-- A first status from an exchange has the on-bit of the marker, and so has the one that a report
brings behind a status byte that looks like the marker. -/
def Marked (prev : Option Byte) (log : TrafficLog) : Prop :=
  match acceptedStatus log.waits, prev with
  | some (.exchange, new), none => onBit new = onBit unknownStatus
  | some (.report, new), some old => old = unknownStatus → onBit new = onBit unknownStatus
  | _, _ => True

def MarkedFrom : Option Byte → List TrafficLog → Prop
  | _, [] => True
  | prev, log :: logs => Marked prev log ∧ MarkedFrom (statusAfter prev log) logs

/-- Rounds of the traffic from one status to another. Whatever is between them leaves
`m_motorStatus` alone. -/
inductive TrafficRounds (cfg : ProcessorConfig) : Byte → List TrafficLog → Byte → Prop
  | nil (status : Byte) : TrafficRounds cfg status [] status
  | cons {p q : Processor} {log : TrafficLog} {logs : List TrafficLog} {status : Byte}
      (hround : trafficEnv.Reaches (p.processTraffic cfg, {}) (.ret q, log))
      (h : TrafficRounds cfg q.motorStatus logs status) :
      TrafficRounds cfg p.motorStatus (log :: logs) status

/-! ### Operations of a round -/

/-- An operation that neither waits nor reports a station state. -/
def Op.Aside (o : Op) : Prop :=
  (∀ timeout, o ≠ .wait timeout) ∧ ∀ event, o = .reportEvent event → event.typeId ≠ 10

theorem trafficEnv_drift {s s' : TrafficLog} (hd : trafficEnv.drift s s') : False :=
  hd.choose.elim

theorem TrafficLog.next_aside {o : Op} (ho : o.Aside) {s s' : TrafficLog} {r : Res o}
    (h : TrafficLog.next o s r = some s') : s' = s := by
  cases o with
  | wait timeout => exact absurd rfl (ho.1 timeout)
  | reportEvent event =>
    have hid : event.typeId ≠ 10 := ho.2 event rfl
    simp only [TrafficLog.next, if_neg hid, Option.some.injEq] at h
    exact h.symm
  | _ => exact (Option.some.inj h).symm

abbrev Logs {α : Type} (x : ProcessorM α) (Q : α → TrafficLog → Prop) (s : TrafficLog) : Prop :=
  x.Safe trafficEnv (fun _ => True) Q s

theorem op_logs {α : Type} {o : Op} {k : Res o → ProcessorM α} {Q : α → TrafficLog → Prop}
    {s : TrafficLog} (h : ∀ r s', TrafficLog.next o s r = some s' → Logs (k r) Q s') :
    Logs (.op o k) Q s := by
  refine Prog.safe_op (J := fun s' => s' = s) rfl (fun _ _ _ hd => (trafficEnv_drift hd).elim) ?_
  rintro _ rfl r s' ha
  exact ⟨trivial, h r s' ha⟩

theorem aside_logs {α : Type} {x : ProcessorM α} (hx : x.Only Op.Aside) {R : α → Prop}
    (hr : x.Ensures R) (s : TrafficLog) : Logs x (fun a s' => R a ∧ s' = s) s := by
  refine hx.safe_ensures hr (fun _ _ => trivial) (fun _ _ _ hd => (trafficEnv_drift hd).elim)
    (fun o ho s₁ r s₂ hs ha => ?_) rfl
  exact (TrafficLog.next_aside ho ha).trans hs

theorem perform_aside {o : Op} (ho : o.Aside) : (Prog.perform o : ProcessorM (Res o)).Only Op.Aside :=
  ⟨ho, fun _ => trivial⟩

theorem reportEvents_aside {events : List DBEventCommon} (h : ∀ e ∈ events, e.typeId ≠ 10) :
    (Processor.reportEvents events).Only Op.Aside := by
  induction events with
  | nil => trivial
  | cons event events ih =>
    have hevent : event.typeId ≠ 10 := h event List.mem_cons_self
    refine ⟨⟨by simp, ?_⟩, fun _ => ih fun e he => h e (List.mem_cons_of_mem _ he)⟩
    rintro _ heq
    cases heq
    exact hevent

theorem enqueData_aside (packets : List DBDataPacket) :
    (Processor.enqueData packets).Only Op.Aside := by
  induction packets with
  | nil => trivial
  | cons packet packets ih => exact ⟨by simp [Op.Aside], fun _ => ih⟩

theorem reportFault_typeId (filter : ParameterFilter) (code time : ℤ) :
    (reportFault filter code time).typeId ≠ 10 := by
  unfold reportFault
  split <;> simp

theorem checkAndReportFault_typeId (filter : ParameterFilter) (s : FaultState) (packet : DataPacket)
    (memory : ℕ → Byte) :
    ∀ e ∈ ((checkAndReportFault filter s packet).value memory).2, e.typeId ≠ 10 := by
  have hnext : ∀ code time, ∀ e ∈ (s.next filter code time).2, e.typeId ≠ 10 := by
    intro code time e he
    unfold FaultState.next at he
    split_ifs at he
    all_goals try cases he
    all_goals exact reportFault_typeId filter _ _
  unfold checkAndReportFault
  split
  · intro e he
    cases he
  · split
    · exact hnext _ _
    · intro e he
      cases he

theorem checkAndReportTimeDiviation_typeId (mktime : Tm → ℤ) (filter : ParameterFilter)
    (timeDiviation : ℤ) (isReported : Bool) (systemTime : ℤ) (packet : DataPacket)
    (memory : ℕ → Byte) :
    ∀ e ∈ ((checkAndReportTimeDiviation mktime filter timeDiviation isReported systemTime
      packet).value memory).2, e.typeId ≠ 10 := by
  have hnext : ∀ timestamp, ∀ e ∈ (nextDiviation filter timeDiviation isReported systemTime
      timestamp).2, e.typeId ≠ 10 := by
    intro timestamp e he
    unfold nextDiviation at he
    split_ifs at he
    all_goals cases he
    simp
  unfold checkAndReportTimeDiviation
  split
  · exact hnext _
  · intro e he
    cases he

theorem checkSettigsChanged_typeId (filter : ParameterFilter) (isFirst : Bool) (systemTime : ℤ)
    (values : SettingValues) (memory : ℕ → Byte) :
    ∀ e ∈ ((checkSettigsChanged filter isFirst systemTime values).value memory).2,
      e.typeId ≠ 10 := by
  intro e he
  have htype : e.typeId = 11 := ((checkSettigs_tellsHow indexed_zipIdx _ _).argument1 he).1
  rw [htype]
  simp

namespace Processor

theorem readData_aside {α β : Type} {packet : DataPacket} {x : PayloadReader α}
    {f : α → ProcessorM β} (hf : ∀ memory, (f (x.value memory)).Only Op.Aside) :
    ((readData packet x).bind f).Only Op.Aside :=
  ⟨by simp [Op.Aside], fun _ => hf _⟩

theorem time_aside : time.Only Op.Aside := perform_aside (by simp [Op.Aside])

theorem needCapture_aside (p : Processor) : p.needCapture.Only Op.Aside := by
  unfold needCapture
  refine (perform_aside (o := .queueEmpty) (by simp [Op.Aside])).bind fun empty => ?_
  split
  · exact time_aside.bind fun _ => trivial
  · trivial

theorem checkPacket_aside (cfg : ProcessorConfig) (p : Processor) (packet : DataPacket) :
    (p.checkPacket cfg packet).Only Op.Aside := by
  unfold checkPacket
  refine readData_aside fun memory => ?_
  have hfault := checkAndReportFault_typeId cfg.filter p.fault packet memory
  refine (reportEvents_aside fun e he => hfault e (Option.mem_toList.mp he)).bind fun _ => ?_
  refine time_aside.bind fun now => ?_
  refine (perform_aside (o := .timeDiviation) (by simp [Op.Aside])).bind fun timeDiviation => ?_
  refine readData_aside fun memory => ?_
  have hdiviation := checkAndReportTimeDiviation_typeId cfg.mktime cfg.filter timeDiviation
    p.isDiviationReported now packet memory
  exact (reportEvents_aside fun e he => hdiviation e (Option.mem_toList.mp he)).bind fun _ => trivial

theorem captureData_aside (cfg : ProcessorConfig) (p : Processor) (packet : DataPacket) :
    (p.captureData cfg packet).Only Op.Aside := by
  unfold captureData
  split
  · split
    · exact Prog.Only.bind (readData_aside fun _ => enqueData_aside _) fun _ => trivial
    · trivial
  · trivial

theorem captureOrReport_aside (cfg : ProcessorConfig) (p : Processor) (packet : DataPacket) :
    (p.captureOrReport cfg packet).Only Op.Aside := by
  unfold captureOrReport
  refine p.needCapture_aside.bind fun need => ?_
  split
  · trivial
  · exact (p.checkPacket_aside cfg packet).bind fun p => p.captureData_aside cfg packet

theorem captureOrReport_motorStatus (cfg : ProcessorConfig) (p : Processor) (packet : DataPacket) :
    (p.captureOrReport cfg packet).Ensures fun q => q.motorStatus = p.motorStatus := by
  unfold captureOrReport
  refine ensures_then _ fun need => ?_
  split
  · exact rfl
  · have hcheck : (p.checkPacket cfg packet).Ensures fun q => q.motorStatus = p.motorStatus := by
      unfold checkPacket
      refine ensures_then _ fun fault => ensures_then _ fun _ => ensures_then _ fun _ => ?_
      exact ensures_then _ fun _ => ensures_then _ fun diviation => ensures_then _ fun _ => rfl
    refine hcheck.bind fun q hq => ?_
    unfold captureData
    split
    · split
      · exact ensures_then _ fun _ => hq
      · exact hq
    · exact hq

theorem checkSettings_aside (cfg : ProcessorConfig) (p : Processor) (packet : DataPacket) :
    (p.checkSettings cfg packet).Only Op.Aside := by
  unfold checkSettings
  split
  · refine time_aside.bind fun now => readData_aside fun memory => ?_
    exact (reportEvents_aside (checkSettigsChanged_typeId _ _ _ _ _)).bind fun _ => trivial
  · exact ⟨by simp [Op.Aside], fun _ => trivial⟩

theorem checkSettings_motorStatus (cfg : ProcessorConfig) (p : Processor) (packet : DataPacket) :
    (p.checkSettings cfg packet).Ensures fun q => q.motorStatus = p.motorStatus := by
  unfold checkSettings
  split
  · exact ensures_then _ fun _ => ensures_then _ fun _ => ensures_then _ fun _ => rfl
  · exact fun _ => trivial

end Processor

/-! ### The specification of a round -/

/-- What the code reports of an accepted status byte when `m_motorStatus` is `old`. -/
def Told (path : StatusPath) (old new : Byte) (events : List DBEventCommon) : Prop :=
  if onBit old ≠ onBit new ∧ (path = .report → old ≠ unknownStatus) then
    ∃ e, events = [e] ∧ TellsChange e old new
  else events = []

def RoundTold (old : Byte) (log : TrafficLog) (new : Byte) : Prop :=
  match acceptedStatus log.waits with
  | some (path, status) => new = status ∧ Told path old status log.events
  | none => new = old ∧ log.events = []

theorem roundTold_none {old : Byte} {waits : List Wait} (h : acceptedStatus waits = none) :
    RoundTold old ⟨waits, []⟩ old := by
  unfold RoundTold
  rw [h]
  exact ⟨rfl, rfl⟩

theorem roundTold_some {old new : Byte} {waits : List Wait} {path : StatusPath}
    {events : List DBEventCommon} (h : acceptedStatus waits = some (path, new))
    (htold : Told path old new events) : RoundTold old ⟨waits, events⟩ new := by
  unfold RoundTold
  rw [h]
  exact ⟨rfl, htold⟩

/-- A frame that carries a status or the code of an acknowledgement has a first byte. -/
theorem Frame.memory_status {f : Frame} {cmd : Word} (hf : f.HasCmd cmd)
    (hrows : ∀ row ∈ cmdParams ++ ackParams, getCmd row.cmd = cmd → 1 < row.length.toNat)
    (writeMode : BitVec 32) (now : ℤ) (beyond : ℕ → Byte) :
    (f.packet writeMode now).memory beyond 0 = f.status := by
  obtain ⟨row, hrow, hcmd, hlen⟩ := f.exists_row
  have hn := hrows row hrow (hcmd.trans hf)
  have hlt : 0 < f.payload.length := by omega
  rw [f.memory_packet, Frame.status, List.getD_eq_getElem _ _ hlt, List.getD_eq_getElem _ _ hlt]

namespace Processor

theorem readStatus_logs {α : Type} {f : Frame} {cmd : Word} (hf : f.HasCmd cmd)
    (hrows : ∀ row ∈ cmdParams ++ ackParams, getCmd row.cmd = cmd → 1 < row.length.toNat)
    (writeMode : BitVec 32) (now : ℤ) {k : Byte → ProcessorM α} {Q : α → TrafficLog → Prop}
    {s : TrafficLog} (hk : Logs (k f.status) Q s) :
    Logs ((readData (f.packet writeMode now) (PayloadReader.byte 0)).bind k) Q s := by
  refine op_logs fun beyond s' hs' => ?_
  cases hs'
  rw [← f.memory_status hf hrows writeMode now beyond] at hk
  exact hk

/-- A branch over what a frame is. -/
theorem hasCmd_logs {α : Type} (f : Frame) (cmd : Word) (writeMode : BitVec 32) (now : ℤ)
    {x y : ProcessorM α} {Q : α → TrafficLog → Prop} {s : TrafficLog}
    (hyes : f.HasCmd cmd → Logs x Q s) (hno : ¬ f.HasCmd cmd → Logs y Q s) :
    Logs (if getCmd (f.packet writeMode now).cmd = cmd then x else y) Q s := by
  rw [f.getCmd_packet]
  split
  next h => exact hyes h
  next h => exact hno h

theorem ret_told (p : Processor) {waits : List Wait} (h : acceptedStatus waits = none) :
    Logs (.ret p) (fun q log => RoundTold p.motorStatus log q.motorStatus) ⟨waits, []⟩ :=
  roundTold_none h

theorem reportMotor_logs (cfg : ProcessorConfig) (old new : Byte) (waits : List Wait) :
    Logs (reportMotor cfg old new) (fun _ log => ∃ events, log = ⟨waits, events⟩ ∧
      Told .exchange old new events) ⟨waits, []⟩ := by
  unfold reportMotor
  split
  next hchanged =>
    refine (aside_logs time_aside (Prog.ensures_trivial _) _).bind ?_
    rintro now _ ⟨-, rfl⟩
    refine op_logs fun _ log hlog => ?_
    cases hlog
    refine ⟨_, rfl, ?_⟩
    rw [Told, if_pos ⟨hchanged, by simp⟩]
    exact ⟨_, rfl, rfl, rfl⟩
  next hsame =>
    refine ⟨[], rfl, ?_⟩
    rw [Told, if_neg fun h => hsame h.1]

theorem trafficInfo_told (cfg : ProcessorConfig) (p : Processor) {f : Frame} (hf : f.HasCmd ackInfo)
    (now : ℤ) :
    Logs (p.trafficInfo cfg (f.packet p.writeMode now))
      (fun q log => RoundTold p.motorStatus log q.motorStatus) ⟨[.ok f], []⟩ := by
  have haccepted : acceptedStatus [.ok f] = some (.report, f.status) := if_pos hf
  have hrest : ∀ (p' : Processor) (events : List DBEventCommon), p'.motorStatus = f.status →
      Told .report p.motorStatus f.status events →
      Logs (p'.captureOrReport cfg (f.packet p.writeMode now))
        (fun q log => RoundTold p.motorStatus log q.motorStatus) ⟨[.ok f], events⟩ := by
    intro p' events hp' htold
    refine (aside_logs (p'.captureOrReport_aside cfg _) (p'.captureOrReport_motorStatus cfg _)
      _).mono ?_
    rintro q _ ⟨hq, rfl⟩
    rw [hq, hp']
    exact roundTold_some haccepted htold
  refine readStatus_logs hf (by decide) p.writeMode now ?_
  dsimp only
  split
  next hknown =>
    refine (reportMotor_logs cfg p.motorStatus f.status _).bind ?_
    rintro _ _ ⟨events, rfl, htold⟩
    refine hrest _ events rfl ?_
    have hmarker : p.motorStatus ≠ unknownStatus := hknown
    simpa only [Told, hmarker, ne_eq, not_false_eq_true, implies_true, and_true] using htold
  next hunknown =>
    refine hrest _ [] rfl ?_
    rw [Told, if_neg fun h => hunknown (h.2 rfl)]

theorem motorStatusReply_told (cfg : ProcessorConfig) (p : Processor) {command ack request : Frame}
    (hcommand : isMotorCommand (command.cmd.setWidth 16)) (hack : ack.HasCmd ackAck)
    (hcode : ack.status = 0) (hrequest : request.HasCmd reqInfo) :
    Logs (p.motorStatusReply cfg) (fun q log => RoundTold p.motorStatus log q.motorStatus)
      ⟨[.ok command, .ok ack, .ok request], []⟩ := by
  refine op_logs ?_
  rintro ⟨w, now⟩ _ hlog
  cases hlog
  cases w with
  | error e => cases e <;> exact ret_told p rfl
  | ok info =>
    refine hasCmd_logs info ackInfo p.writeMode now (fun hinfo => ?_) fun hother =>
      ret_told p (if_neg fun h => hother h.2.2.2.2)
    refine readStatus_logs hinfo (by decide) p.writeMode now ?_
    refine (reportMotor_logs cfg p.motorStatus info.status _).bind ?_
    rintro _ _ ⟨events, rfl, htold⟩
    exact roundTold_some (if_pos ⟨hcommand, hack, hcode, hrequest, hinfo⟩) htold

theorem processMotorCmd_told (cfg : ProcessorConfig) (p : Processor) {command : Frame}
    (hcommand : isMotorCommand (command.cmd.setWidth 16)) :
    Logs (p.processMotorCmd cfg) (fun q log => RoundTold p.motorStatus log q.motorStatus)
      ⟨[.ok command], []⟩ := by
  refine op_logs ?_
  rintro ⟨w, now⟩ _ hlog
  cases hlog
  cases w with
  | error e => cases e <;> exact ret_told p rfl
  | ok ack =>
    refine hasCmd_logs ack ackAck p.writeMode now (fun hack => ?_) fun _ => ret_told p rfl
    refine readStatus_logs hack (by decide) p.writeMode now ?_
    split
    next hzero =>
      refine op_logs ?_
      rintro ⟨w, now⟩ _ hlog
      cases hlog
      cases w with
      | error e => cases e <;> exact ret_told p rfl
      | ok request =>
        exact hasCmd_logs request reqInfo p.writeMode now
          (motorStatusReply_told cfg p hcommand hack hzero) fun _ => ret_told p rfl
    next => exact ret_told p rfl

theorem processTraffic_told (cfg : ProcessorConfig) (p : Processor) :
    Logs (p.processTraffic cfg) (fun q log => RoundTold p.motorStatus log q.motorStatus) {} := by
  refine op_logs ?_
  rintro ⟨w, now⟩ _ hlog
  cases hlog
  cases w with
  | error e => cases e <;> exact ret_told p rfl
  | ok f =>
    refine hasCmd_logs f ackInfo p.writeMode now (fun hinfo => trafficInfo_told cfg p hinfo now)
      fun hother => ?_
    have hnone : acceptedStatus [.ok f] = none := if_neg hother
    split
    next =>
      refine (aside_logs (p.checkSettings_aside cfg _) (p.checkSettings_motorStatus cfg _) _).mono ?_
      rintro q _ ⟨hq, rfl⟩
      rw [hq]
      exact roundTold_none hnone
    next =>
      split
      next hcommand =>
        rw [f.getCmd_packet] at hcommand
        unfold trafficMotor
        split
        next =>
          refine op_logs fun beyond log hlog => ?_
          cases hlog
          exact processMotorCmd_told cfg p hcommand
        next => exact processMotorCmd_told cfg p hcommand
      next => exact ret_told p hnone

end Processor

/-! ### Sequences of rounds -/

theorem Told.events_iff {path : StatusPath} {old new : Byte} {events : List DBEventCommon}
    (h : Told path old new events) :
    (events = [] ↔ onBit new = onBit old ∨ path = .report ∧ old = unknownStatus) ∧
      ((∃ e, events = [e] ∧ TellsChange e old new) ↔
        onBit new ≠ onBit old ∧ (path = .report → old ≠ unknownStatus)) := by
  unfold Told at h
  split at h
  next hreported =>
    obtain ⟨hchanged, hknown⟩ := hreported
    obtain ⟨e, rfl, he⟩ := h
    exact ⟨by simpa [hchanged.symm] using hknown, fun _ => ⟨hchanged.symm, hknown⟩, fun _ => ⟨e, rfl, he⟩⟩
  next hquiet =>
    subst h
    refine ⟨⟨fun _ => ?_, fun _ => rfl⟩, ?_, fun hreported => (hquiet ⟨hreported.1.symm, hreported.2⟩).elim⟩
    · by_contra hne
      rw [not_or, not_and] at hne
      exact hquiet ⟨Ne.symm hne.1, hne.2⟩
    · rintro ⟨e, he, -⟩
      cases he

theorem Told.marked {path : StatusPath} {new : Byte} {prev : Option Byte} {log : TrafficLog}
    (h : Told path (prev.getD unknownStatus) new log.events)
    (haccepted : acceptedStatus log.waits = some (path, new)) :
    Truthful prev log ↔ Marked prev log := by
  obtain ⟨hnil, htells⟩ := h.events_iff
  unfold Truthful Marked
  rw [haccepted]
  cases prev with
  | none =>
    refine hnil.trans ?_
    cases path with
    | report => simp
    | exchange => simp
  | some old =>
    dsimp only [Option.getD_some] at hnil htells ⊢
    by_cases hsame : onBit new = onBit old
    · rw [if_pos hsame, hnil]
      cases path with
      | report =>
        simp only [hsame, true_or, true_iff]
        rintro rfl
        rfl
      | exchange => simp [hsame]
    · rw [if_neg hsame, htells]
      cases path with
      | report =>
        simp only [hsame, true_and, forall_const, not_false_eq_true, ne_eq]
        refine ⟨fun hknown hold => (hknown hold).elim, fun hmarked hold => hsame ?_⟩
        rw [hmarked hold, hold]
      | exchange => simp [hsame]

theorem RoundTold.marked {prev : Option Byte} {log : TrafficLog} {status : Byte}
    (h : RoundTold (prev.getD unknownStatus) log status) :
    (Truthful prev log ↔ Marked prev log) ∧ status = (statusAfter prev log).getD unknownStatus := by
  unfold RoundTold at h
  split at h
  next path new haccepted =>
    obtain ⟨rfl, htold⟩ := h
    refine ⟨htold.marked haccepted, ?_⟩
    rw [statusAfter, haccepted]
    rfl
  next hnone =>
    obtain ⟨rfl, hevents⟩ := h
    unfold Truthful Marked statusAfter
    rw [hnone]
    exact ⟨by simp [hevents], rfl⟩

theorem TrafficRounds.truthful_iff {cfg : ProcessorConfig} {old status : Byte}
    {logs : List TrafficLog} (h : TrafficRounds cfg old logs status) {prev : Option Byte}
    (hprev : old = prev.getD unknownStatus) : TruthfulFrom prev logs ↔ MarkedFrom prev logs := by
  induction h generalizing prev with
  | nil status => exact .rfl
  | @cons p q log logs status hround _ ih =>
    have htold := (p.processTraffic_told cfg).returns (fun _ _ _ hd => (trafficEnv_drift hd).elim)
      hround
    rw [hprev] at htold
    obtain ⟨hiff, hafter⟩ := htold.marked
    exact and_congr hiff (ih hafter)

/-- In a sequence of rounds the station state is reported as it is, unless a first status of an
exchange, or one of a report behind a status that looks like the marker, differs from the marker in
the on-bit. -/
theorem station_traffic_truthful_iff (cfg : ProcessorConfig) {logs : List TrafficLog} {status : Byte}
    (h : TrafficRounds cfg unknownStatus logs status) :
    TruthfulFrom none logs ↔ MarkedFrom none logs :=
  h.truthful_iff rfl

def onInfoFrame : Frame where
  type := .ack
  cmd := 0x64
  payload := [1, 0, 0, 0]
  length_lt := by decide
  accepted := by decide

def statusScript (info : Frame) : List (Event Op Res) :=
  [⟨.wait 30000, ((.ok info : Wait), (0 : ℤ))⟩, ⟨.heap, fun _ : ℕ => (0 : Byte)⟩]

/-- A command is pending, so that the round ends here. -/
def awaitedScript : List (Event Op Res) := statusScript infoFrame ++ [⟨.queueEmpty, false⟩]

def startedScript : List (Event Op Res) :=
  statusScript onInfoFrame ++ [⟨.time, (0 : ℤ)⟩,
    ⟨.reportEvent (reportStationState [] 1 0 0 "HND"), ()⟩, ⟨.queueEmpty, false⟩]

def roundTest (status : Byte) (events : ℕ) (x : ProcessorM Processor) (log : TrafficLog) : Bool :=
  match x with
  | .ret q => q.motorStatus = status ∧ log.events.length = events
  | _ => false

theorem exists_round (p : Processor) (status : Byte) (events : ℕ) (ts : List (Event Op Res))
    (h : (Prog.replay TrafficLog.next still (ts.map .answer)
      (p.processTraffic (unfilteredConfig true), {})).any
        (fun c => roundTest status events c.1 c.2) = true) :
    ∃ log : TrafficLog, log.events.length = events ∧ ∀ logs status',
      TrafficRounds (unfilteredConfig true) status logs status' →
        TrafficRounds (unfilteredConfig true) p.motorStatus (log :: logs) status' := by
  obtain ⟨x, log, hreaches, htest⟩ := Prog.exists_reaches_of_replay_test TrafficLog.next still
    (ts.map .answer) (roundTest status events) h
  unfold roundTest at htest
  split at htest
  next q =>
    obtain ⟨rfl, hevents⟩ := of_decide_eq_true htest
    exact ⟨log, hevents, fun logs status' => .cons hreaches⟩
  next => cases htest

theorem station_traffic_truthful_iff_started : ∃ logs : List TrafficLog,
    logs.map (·.events.length) = [0, 1] ∧ (TruthfulFrom none logs ↔ MarkedFrom none logs) := by
  obtain ⟨first, hfirst, hrounds⟩ := exists_round knownProcessor 0 0
    awaitedScript (by decide +kernel)
  obtain ⟨second, hsecond, hrounds'⟩ := exists_round
    { knownProcessor with motorStatus := 0 } 1 1 startedScript (by decide +kernel)
  refine ⟨[first, second], by simp [hfirst, hsecond], ?_⟩
  exact station_traffic_truthful_iff (unfilteredConfig true) (hrounds _ _ (hrounds' _ _ (.nil 1)))

def motorOffFrame : Frame where
  type := .cmd
  cmd := 0x84
  payload := []
  length_lt := by decide
  accepted := by decide

def motorAckFrame : Frame where
  type := .ack
  cmd := 0x0B
  payload := [0]
  length_lt := by decide
  accepted := by decide

def infoRequestFrame : Frame where
  type := .cmd
  cmd := 0x94
  payload := []
  length_lt := by decide
  accepted := by decide

/-- The operator stops a motor of which nothing is known. -/
def unknownScript : List (Event Op Res) :=
  [⟨.wait 30000, ((.ok motorOffFrame : Wait), (0 : ℤ))⟩,
   ⟨.wait 1500, ((.ok motorAckFrame : Wait), (0 : ℤ))⟩, ⟨.heap, fun _ : ℕ => (0 : Byte)⟩,
   ⟨.wait 1500, ((.ok infoRequestFrame : Wait), (0 : ℤ))⟩,
   ⟨.wait 1500, ((.ok infoFrame : Wait), (0 : ℤ))⟩, ⟨.heap, fun _ : ℕ => (0 : Byte)⟩,
   ⟨.time, (0 : ℤ)⟩, ⟨.reportEvent (reportStationState [] 0 1 0 "HND"), ()⟩]

theorem station_traffic_truthful_false : ¬∀ (cfg : ProcessorConfig) (logs : List TrafficLog)
    (status : Byte), TrafficRounds cfg unknownStatus logs status → TruthfulFrom none logs := by
  intro hall
  obtain ⟨log, hevents, hrounds⟩ := exists_round knownProcessor 0 1
    unknownScript (by decide +kernel)
  have htruthful := (hall _ _ _ (hrounds [] 0 (.nil 0))).1
  unfold Truthful at htruthful
  split at htruthful
  next heq => cases heq
  next => simp [htruthful] at hevents

end Ritex
