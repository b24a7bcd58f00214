import Ritex.StationTraffic

/-! The events of type 10 of the motor commands of the server: they are made from the code of the
command, while the status byte of the station is taken over without one. -/
namespace Ritex
open Interaction

/-- A command of the motor command list, with the packet that is sent for it. -/
structure RemoteMotor (c : CustomCommand) (cmd : CmdExternal) : Prop where
  commandClass : c.parentCommand.commandClass = .external cmd
  template : cmd.template ∈ engineTemplates.map Prod.snd
  dataPacket : ∃ now, customCommandPacket (cmd.cmdId.setWidth 8) cmd.param1 cmd.param2 now =
    some c.dataPacket

/-- The status byte in the information that follows an acknowledgement with code 0. -/
def informedStatus : List Wait → Option Byte
  | [.ok ack, .ok info] =>
    if ack.HasCmd ackAck ∧ ack.status = 0 ∧ info.HasCmd ackInfo then some info.status else none
  | _ => none

/-- The command reports the change from the status before it, and nothing else. -/
def ReplyTruthful (old : Byte) (log : TrafficLog) : Prop :=
  match informedStatus log.waits with
  | some new =>
    if onBit new = onBit old then log.events = [] else ∃ e, log.events = [e] ∧ TellsChange e old new
  | none => log.events = []

/-- The change that a command reports under a write mode, by the new on-bit and the old one. -/
def assumedChange (cmdId : Word) (writeMode : BitVec 32) : Option (Byte × Byte) :=
  if writeMode.setWidth 8 ≠ (0 : Byte) then none
  else if cmdId = reqVdOn then some (1, 0)
  else if cmdId = reqVdOff then some (0, 1)
  else none

/-- The change that the command reports is the one that happens. -/
def AsAssumed (cmdId : Word) (writeMode : BitVec 32) (old new : Byte) : Prop :=
  match assumedChange cmdId writeMode with
  | some change => onBit new = change.1 ∧ onBit old = change.2
  | none => onBit new = onBit old

/-! ### The reply -/

/-- The events of `CmdExternal::SetReply` for a motor command and a packet with this label. -/
def replyEvents (filter : ParameterFilter) (cmd : CmdExternal) (now : ℤ) (label : Word) :
    List DBEventCommon :=
  if label = ackInfo then
    if cmd.cmdId = reqVdOn then [reportStationState filter 1 0 now cmd.source]
    else if cmd.cmdId = reqVdOff then [reportStationState filter 0 1 now cmd.source]
    else []
  else []

theorem motorReply_events (filter : ParameterFilter) (cmd : CmdExternal) (values : SettingValues)
    (now : ℤ) (packet : DataPacket) (memory : ℕ → Byte) :
    ((motorReply filter cmd values now packet).value memory).events =
      replyEvents filter cmd now packet.cmd := by
  unfold motorReply replyEvents
  split
  next hack =>
    have hother : packet.cmd ≠ ackInfo := by
      rw [hack]
      decide
    rw [if_neg hother]
    rfl
  next =>
    split <;> rfl

theorem engineTemplates_motor : ∀ t ∈ engineTemplates.map Prod.snd,
    t.cmd = reqVdOff ∨ t.cmd = reqVdOn ∨ t.cmd = reqVdRotation := by
  decide

theorem externalReply_motor {filter : ParameterFilter} {cmd : CmdExternal}
    (hcmd : cmd.template ∈ engineTemplates.map Prod.snd) (values : SettingValues) (now : ℤ)
    (packet : DataPacket) (memory : ℕ → Byte) :
    (externalReply filter cmd values now packet).value memory =
      some ((motorReply filter cmd values now packet).value memory) := by
  have hset : cmd.cmdId ≠ reqSettingSet := engineTemplates_cmd _ hcmd
  have hmotor : cmd.cmdId = reqVdOff ∨ cmd.cmdId = reqVdOn ∨ cmd.cmdId = reqVdRotation :=
    engineTemplates_motor _ hcmd
  unfold externalReply
  rw [if_neg hset, if_pos hmotor]
  rfl

theorem reportEvents_logs {events : List DBEventCommon} (h : ∀ e ∈ events, e.typeId = 10)
    (waits : List Wait) (before : List DBEventCommon) :
    Logs (Processor.reportEvents events) (fun _ log => log = ⟨waits, before ++ events⟩)
      ⟨waits, before⟩ := by
  induction events generalizing before with
  | nil =>
    rw [List.append_nil]
    exact rfl
  | cons event events ih =>
    have hevent : event.typeId = 10 := h event List.mem_cons_self
    refine op_logs fun _ log hlog => ?_
    simp only [TrafficLog.next, if_pos hevent, Option.some.injEq] at hlog
    subst hlog
    refine (ih (fun e he => h e (List.mem_cons_of_mem _ he)) _).mono ?_
    rintro _ _ rfl
    rw [List.append_assoc]
    rfl

theorem replyEvents_typeId (filter : ParameterFilter) (cmd : CmdExternal) (now : ℤ) (label : Word) :
    ∀ e ∈ replyEvents filter cmd now label, e.typeId = 10 := by
  unfold replyEvents
  split_ifs <;> simp [reportStationState]

theorem replyEvents_other {filter : ParameterFilter} {cmd : CmdExternal} {now : ℤ}
    {label : Word} (h : getCmd label ≠ ackInfo) : replyEvents filter cmd now label = [] := by
  have hlabel : label ≠ ackInfo := by
    rintro rfl
    exact h (by decide)
  rw [replyEvents, if_neg hlabel]

namespace Processor

theorem notifyResultReady_aside (c : CustomCommand) (rawResult : String) :
    (notifyResultReady c rawResult).Only Op.Aside :=
  notifyResultReady_only (fun _ _ => by simp [Op.Aside]) c rawResult

theorem command_aside (event : CommandEvent) : (command event).Only Op.Aside :=
  perform_aside (by simp [Op.Aside])

theorem applyReply_logs (p : Processor) (c : CustomCommand) (reply : ExternalReply)
    (h : ∀ e ∈ reply.events, e.typeId = 10) (waits : List Wait) :
    Logs (p.applyReply c (some reply)) (fun _ log => log = ⟨waits, reply.events⟩) ⟨waits, []⟩ := by
  refine (reportEvents_logs h waits []).bind ?_
  rintro _ _ rfl
  refine (aside_logs (notifyResultReady_aside c _) (Prog.ensures_trivial _) _).bind ?_
  rintro _ _ ⟨-, rfl⟩
  exact rfl

/-- The reply to a packet. -/
theorem setReply_logs (cfg : ProcessorConfig) (p : Processor) {c : CustomCommand} {cmd : CmdExternal}
    (hc : RemoteMotor c cmd) (packet : DataPacket) (waits : List Wait) :
    Logs (p.setReply cfg c (some packet) .noError)
      (fun _ log => ∃ now, log = ⟨waits, replyEvents cfg.filter cmd now packet.cmd⟩) ⟨waits, []⟩ := by
  unfold setReply
  rw [hc.commandClass]
  refine (aside_logs (command_aside _) (Prog.ensures_trivial _) _).bind ?_
  rintro _ _ ⟨-, rfl⟩
  refine (aside_logs time_aside (Prog.ensures_trivial _) _).bind ?_
  rintro now _ ⟨-, rfl⟩
  refine op_logs fun beyond log hlog => ?_
  cases hlog
  show Logs (p.applyReply c ((externalReply cfg.filter cmd p.settings now packet).value _)) _ _
  rw [externalReply_motor hc.template]
  refine (p.applyReply_logs c _ ?_ waits).mono ?_
  · rw [motorReply_events]
    exact replyEvents_typeId _ _ _ _
  · rintro _ _ rfl
    exact ⟨now, by rw [motorReply_events]⟩

theorem setReply_error (cfg : ProcessorConfig) (p : Processor) {c : CustomCommand} {cmd : CmdExternal}
    (hc : RemoteMotor c cmd) (packet : Option DataPacket) {status : ErrorCode}
    (hstatus : status ≠ .noError) : (p.setReply cfg c packet status).Only Op.Aside := by
  unfold setReply
  rw [hc.commandClass]
  refine (command_aside _).bind fun _ => time_aside.bind fun now => ?_
  rw [if_neg hstatus]
  exact (notifyResultReady_aside c _).bind fun _ => trivial

/-- A reply that is no information. -/
theorem setReply_other (cfg : ProcessorConfig) (p : Processor) {c : CustomCommand} {cmd : CmdExternal}
    (hc : RemoteMotor c cmd) {packet : DataPacket} (h : getCmd packet.cmd ≠ ackInfo)
    (status : ErrorCode) (waits : List Wait) :
    Logs (p.setReply cfg c (some packet) status) (fun _ log => log = ⟨waits, []⟩) ⟨waits, []⟩ := by
  by_cases hstatus : status = .noError
  · rw [hstatus]
    refine (p.setReply_logs cfg hc packet waits).mono ?_
    rintro _ _ ⟨now, rfl⟩
    rw [replyEvents_other h]
  · refine (aside_logs (p.setReply_error cfg hc _ hstatus) (Prog.ensures_trivial _) _).mono ?_
    rintro _ _ ⟨-, rfl⟩
    rfl

end Processor

/-! ### The exchange -/

/-- What an exchange hands over to the reply, and the log of it. -/
inductive Exchanged (c : CustomCommand) (writeMode : BitVec 32) : Received → TrafficLog → Prop
  | informed {ack info : Frame} {time : ℤ} (hack : ack.HasCmd ackAck) (hcode : ack.status = 0) :
      Exchanged c writeMode (some (info.packet writeMode time),
        Processor.checkReply c.dataPacket (info.packet writeMode time)) ⟨[.ok ack, .ok info], []⟩
  | other {waits : List Wait} {packet : DataPacket} {status : ErrorCode}
      (hwaits : informedStatus waits = none) (h : getCmd packet.cmd ≠ ackInfo) :
      Exchanged c writeMode (some packet, status) ⟨waits, []⟩
  | failed {waits : List Wait} {packet : Option DataPacket} {status : ErrorCode}
      (hwaits : informedStatus waits = none) (h : status ≠ .noError) :
      Exchanged c writeMode (packet, status) ⟨waits, []⟩

def CommandTold (filter : ParameterFilter) (cmd : CmdExternal) (label : Word) (log : TrafficLog) :
    Prop :=
  match informedStatus log.waits with
  | some _ => ∃ now, log.events = replyEvents filter cmd now label
  | none => log.events = []

section Exchange

variable {filter : ParameterFilter} {c : CustomCommand} {cmd : CmdExternal}

theorem commandTold_none {label : Word} {waits : List Wait} (h : informedStatus waits = none) :
    CommandTold filter cmd label ⟨waits, []⟩ := by
  unfold CommandTold
  rw [h]

theorem commandTold_some {label : Word} {waits : List Wait} {status : Byte}
    (h : informedStatus waits = some status) (now : ℤ) :
    CommandTold filter cmd label ⟨waits, replyEvents filter cmd now label⟩ := by
  unfold CommandTold
  rw [h]
  exact ⟨now, rfl⟩

theorem customCommandPacket_cmd {cmd p1 : Byte} {p2 : Word} {now : ℤ} {packet : DataPacket}
    (h : customCommandPacket cmd p1 p2 now = some packet) : packet.cmd = cmd.setWidth 16 := by
  unfold customCommandPacket at h
  split_ifs at h <;> cases h <;> rfl

/-- The packet that is sent for a motor command is one. -/
theorem RemoteMotor.isMotorCommand (hc : RemoteMotor c cmd) :
    Processor.isMotorCommand (getCmd c.dataPacket.cmd) = true := by
  have hmotor : ∀ t ∈ engineTemplates.map Prod.snd,
      Processor.isMotorCommand (getCmd ((t.cmd.setWidth 8 : Byte).setWidth 16)) = true := by
    decide
  obtain ⟨now, hpacket⟩ := hc.dataPacket
  rw [customCommandPacket_cmd hpacket]
  exact hmotor _ hc.template

theorem checkReply_info {request reply : DataPacket} (h : getCmd reply.cmd = ackInfo) :
    Processor.checkReply request reply = .noError := by
  refine Processor.checkReply_noError ?_
  -- Information is neither command 0 nor command 1.
  by_contra hlt
  have hcmd : reply.cmd = BitVec.ofNat 16 reply.cmd.toNat := by
    rw [BitVec.ofNat_toNat, BitVec.setWidth_eq]
  rw [hcmd] at h
  interval_cases reply.cmd.toNat <;> exact absurd h (by decide)

theorem WaitError.code_ne (e : WaitError) : e.code ≠ .noError := by
  cases e <;> simp [WaitError.code]

theorem informedStatus_eq {ack info : Frame} (hack : ack.HasCmd ackAck) (hcode : ack.status = 0)
    (hinfo : info.HasCmd ackInfo) : informedStatus [.ok ack, .ok info] = some info.status :=
  if_pos ⟨hack, hcode, hinfo⟩

namespace Processor

/-- The reply to a request for information. -/
theorem informedReply_told (cfg : ProcessorConfig) (p : Processor) (hc : RemoteMotor c cmd)
    {ack info : Frame} (hack : ack.HasCmd ackAck) (hcode : ack.status = 0) (writeMode : BitVec 32)
    (time : ℤ) :
    Logs (p.setReply cfg c (some (info.packet writeMode time))
        (checkReply c.dataPacket (info.packet writeMode time)))
      (fun _ log => CommandTold cfg.filter cmd (longCmd writeMode 0x64) log)
      ⟨[.ok ack, .ok info], []⟩ := by
  by_cases hinfo : info.HasCmd ackInfo
  · have hcmd : info.cmd = 0x64 := by
      have hlsb := congrArg lsb hinfo
      rwa [lsb_setWidth] at hlsb
    rw [checkReply_info ((info.getCmd_packet _ _).trans hinfo)]
    refine (p.setReply_logs cfg hc _ _).mono ?_
    rintro _ _ ⟨now, rfl⟩
    have hlabel : (info.packet writeMode time).cmd = longCmd writeMode 0x64 :=
      congrArg (longCmd writeMode) hcmd
    rw [hlabel]
    exact commandTold_some (informedStatus_eq hack hcode hinfo) now
  · have hother : getCmd (info.packet writeMode time).cmd ≠ ackInfo := by
      rw [info.getCmd_packet]
      exact hinfo
    refine (p.setReply_other cfg hc hother _ _).mono ?_
    rintro _ _ rfl
    exact commandTold_none (if_neg fun h => hinfo h.2.2)

theorem motorInfo_exchanged (p : Processor) (c : CustomCommand) {ack : Frame}
    (hack : ack.HasCmd ackAck) (hcode : ack.status = 0) :
    Logs (p.motorInfo c) (fun r log => Exchanged c p.writeMode r.1 log) ⟨[.ok ack], []⟩ := by
  have hrequest : requestCurrentData.Only Op.Aside :=
    time_aside.bind fun _ => perform_aside (by simp [Op.Aside])
  refine (aside_logs hrequest (Prog.ensures_trivial _) _).bind ?_
  rintro _ _ ⟨-, rfl⟩
  refine op_logs ?_
  rintro ⟨w, now⟩ _ hlog
  cases hlog
  cases w with
  | error e => cases e <;> exact Exchanged.failed rfl (WaitError.code_ne _)
  | ok info =>
    refine hasCmd_logs info ackInfo p.writeMode now (fun hinfo => ?_) fun _ =>
      Exchanged.informed hack hcode
    exact readStatus_logs hinfo (by decide) p.writeMode now (Exchanged.informed hack hcode)

theorem commandReply_exchanged (p : Processor) (hc : RemoteMotor c cmd) (w : Wait) (now : ℤ) :
    Logs (p.commandReply c (w.received p.writeMode now).1 (w.received p.writeMode now).2)
      (fun r log => Exchanged c p.writeMode r.1 log) ⟨[w], []⟩ := by
  cases w with
  | error e =>
    show Logs (p.commandReply c none e.code) _ _
    rw [commandReply, if_neg e.code_ne]
    exact Exchanged.failed rfl e.code_ne
  | ok ack =>
    show Logs (if isMotorCommand (getCmd c.dataPacket.cmd) = true then _ else _) _ _
    rw [if_pos hc.isMotorCommand]
    refine hasCmd_logs ack ackAck p.writeMode now (fun hack => ?_) fun _ =>
      Exchanged.failed rfl (by simp)
    refine readStatus_logs hack (by decide) p.writeMode now ?_
    split
    next hcode => exact p.motorInfo_exchanged c hack hcode
    next =>
      have hother : getCmd (ack.packet p.writeMode now).cmd ≠ ackInfo := by
        rw [ack.getCmd_packet, hack]
        decide
      exact Exchanged.other rfl hother

theorem processCommand_told (cfg : ProcessorConfig) (p : Processor) (hc : RemoteMotor c cmd) :
    Logs (p.processCommand cfg c)
      (fun _ log => CommandTold cfg.filter cmd (longCmd p.writeMode 0x64) log) {} := by
  have haside : ∀ {α : Type} {x : ProcessorM α} {f : α → ProcessorM Processor}
      {Q : Processor → TrafficLog → Prop} {log : TrafficLog}, x.Only Op.Aside →
      (∀ a, Logs (f a) Q log) → Logs (x.bind f) Q log := by
    intro α x f Q log hx hf
    refine (aside_logs hx (Prog.ensures_trivial _) log).bind ?_
    rintro a _ ⟨-, rfl⟩
    exact hf a
  refine haside (perform_aside (by simp [Op.Aside])) fun _ => ?_
  refine op_logs ?_
  rintro ⟨w, now⟩ _ hlog
  cases hlog
  refine (p.commandReply_exchanged hc w now).bind ?_
  rintro ⟨⟨packet, status⟩, q⟩ log hexchanged
  cases hexchanged with
  | informed hack hcode => exact q.informedReply_told cfg hc hack hcode _ _
  | other hwaits h =>
    refine (q.setReply_other cfg hc h _ _).mono ?_
    rintro _ _ rfl
    exact commandTold_none hwaits
  | failed hwaits h =>
    refine (aside_logs (q.setReply_error cfg hc _ h) (Prog.ensures_trivial _) _).mono ?_
    rintro _ _ ⟨-, rfl⟩
    exact commandTold_none hwaits

end Processor

/-! ### Truth -/

theorem longCmd_info_eq (writeMode : BitVec 32) :
    longCmd writeMode 0x64 = ackInfo ↔ writeMode.setWidth 8 = (0 : Byte) := by
  rw [longCmd, if_pos (by decide)]
  constructor
  · intro h
    apply BitVec.eq_of_getLsbD_eq
    intro i hi
    have hbit := congrArg (·.getLsbD (i + 8)) h
    have hinfo : ∀ i < 8, ackInfo.getLsbD (i + 8) = false := by decide
    have hword : ∀ i < 8, (0x64 : Byte).getLsbD (i + 8) = false := by decide
    have h16 : i + 8 < 16 := by omega
    have h32 : i + 8 < 32 := by omega
    simp only [hinfo i hi, hword i hi, BitVec.getLsbD_setWidth, BitVec.getLsbD_or,
      BitVec.getLsbD_shiftLeft, h16, h32] at hbit
    simpa [hi] using hbit
  · intro h
    apply BitVec.eq_of_getLsbD_eq
    intro i hi
    have hmode : ∀ i < 8, writeMode.getLsbD i = false := by
      intro i hi
      have hbit := congrArg (·.getLsbD i) h
      simpa [hi] using hbit
    have hbyte : ∀ i < 16, ((0x64 : Byte).setWidth 32).getLsbD i = ackInfo.getLsbD i := by decide
    have hshifted : (writeMode <<< 8).getLsbD i = false := by
      rw [BitVec.getLsbD_shiftLeft]
      by_cases h8 : i < 8
      · simp [h8]
      · simp [hmode (i - 8) (by omega)]
    rw [BitVec.getLsbD_setWidth, BitVec.getLsbD_or, hshifted, hbyte i hi]
    simp [hi]

theorem replyEvents_eq (cmd : CmdExternal) (now : ℤ) (writeMode : BitVec 32) :
    replyEvents filter cmd now (longCmd writeMode 0x64) =
      match assumedChange cmd.cmdId writeMode with
      | some change =>
        [reportStationState filter change.1.toNat change.2.toNat now cmd.source]
      | none => [] := by
  unfold replyEvents assumedChange
  by_cases hmode : writeMode.setWidth 8 = (0 : Byte)
  · rw [if_pos ((longCmd_info_eq writeMode).mpr hmode), if_neg (not_not.mpr hmode)]
    split_ifs <;> rfl
  · rw [if_neg fun h => hmode ((longCmd_info_eq writeMode).mp h), if_pos hmode]

theorem assumedChange_ne {cmdId : Word} {writeMode : BitVec 32} {change : Byte × Byte}
    (h : assumedChange cmdId writeMode = some change) :
    (change.1 = 0 ∨ change.1 = 1) ∧ (change.2 = 0 ∨ change.2 = 1) ∧ change.1 ≠ change.2 := by
  unfold assumedChange at h
  split_ifs at h <;> cases h <;> decide

theorem onBit_cases : ∀ status : Byte, onBit status = 0 ∨ onBit status = 1 := by decide

theorem itoa_bit_inj {a b : Byte} (ha : a = 0 ∨ a = 1) (hb : b = 0 ∨ b = 1) :
    itoa a.toNat = itoa b.toNat ↔ a = b := by
  rcases ha with rfl | rfl <;> rcases hb with rfl | rfl <;> decide

theorem tellsChange_iff (filter : ParameterFilter) {a b : Byte} (ha : a = 0 ∨ a = 1)
    (hb : b = 0 ∨ b = 1) (now : ℤ) (source : String) (old new : Byte) :
    TellsChange (reportStationState filter a.toNat b.toNat now source) old new ↔
      onBit new = a ∧ onBit old = b := by
  rw [eq_comm, eq_comm (a := onBit old), ← itoa_bit_inj ha (onBit_cases new),
    ← itoa_bit_inj hb (onBit_cases old)]
  exact ⟨fun h => ⟨h.argument1, h.argument2⟩, fun h => ⟨h.1, h.2⟩⟩

theorem CommandTold.truthful_iff {writeMode : BitVec 32} {log : TrafficLog}
    (h : CommandTold filter cmd (longCmd writeMode 0x64) log) (old : Byte) :
    ReplyTruthful old log ↔
      ∀ new, informedStatus log.waits = some new → AsAssumed cmd.cmdId writeMode old new := by
  unfold CommandTold at h
  unfold ReplyTruthful
  cases hstatus : informedStatus log.waits with
  | none =>
    rw [hstatus] at h
    simp [h]
  | some new =>
    rw [hstatus] at h
    obtain ⟨now, hevents⟩ := h
    rw [replyEvents_eq] at hevents
    simp only [Option.some.injEq, forall_eq', AsAssumed]
    cases hchange : assumedChange cmd.cmdId writeMode with
    | none =>
      rw [hchange] at hevents
      simp [hevents]
    | some change =>
      obtain ⟨hnew, hold, hne⟩ := assumedChange_ne hchange
      rw [hchange] at hevents
      dsimp only at hevents ⊢
      have htells := tellsChange_iff filter hnew hold now cmd.source old new
      by_cases hsame : onBit new = onBit old
      · rw [if_pos hsame, hevents]
        refine ⟨fun hnil => (List.cons_ne_nil _ _ hnil).elim, fun ⟨h₁, h₂⟩ => (hne ?_).elim⟩
        rw [← h₁, ← h₂, hsame]
      · rw [if_neg hsame, hevents, ← htells]
        refine ⟨fun ⟨e, he, htold⟩ => ?_, fun htold => ⟨_, rfl, htold⟩⟩
        cases he
        exact htold

/-- A motor command tells the truth about the station, if what it tells by its code is what
happens. -/
theorem remote_motor_truthful_iff (cfg : ProcessorConfig) (p : Processor) {q : Processor}
    (hc : RemoteMotor c cmd) {log : TrafficLog}
    (h : trafficEnv.Reaches (p.processCommand cfg c, {}) (.ret q, log)) :
    ReplyTruthful p.motorStatus log ↔ ∀ new, informedStatus log.waits = some new →
      AsAssumed cmd.cmdId p.writeMode p.motorStatus new := by
  have htold := (p.processCommand_told cfg hc).returns
    (fun _ _ _ hd => (trafficEnv_drift hd).elim) h
  exact htold.truthful_iff p.motorStatus

end Exchange

def startCommand : CmdExternal := ⟨⟨reqVdOn, vdOnStart⟩, 0, "1", "2", by decide⟩

def resetCommand : CmdExternal := ⟨⟨reqVdOn, vdOnReset⟩, 0, "1", "2", by decide⟩

def motorOnPacket (param : Byte) : DataPacket :=
  ⟨.cmd, ksuAddress, reqVdOn, 0, [param], one_length_lt param⟩

def remoteCommand (cmd : CmdExternal) : CustomCommand :=
  ⟨motorOnPacket cmd.param1, ⟨.external cmd, []⟩⟩

/-- The command is acknowledged and reported as carried out. -/
def remoteScript (cmd : CmdExternal) (info : Frame) : List (Event Op Res) :=
  [⟨.write .processCommand (motorOnPacket cmd.param1), ()⟩,
   ⟨.wait 1500, ((.ok motorAckFrame : Wait), (0 : ℤ))⟩, ⟨.heap, fun _ : ℕ => (0 : Byte)⟩,
   ⟨.time, (0 : ℤ)⟩, ⟨.write .requestCurrentData (requestCurrentDataPacket 0), ()⟩,
   ⟨.wait 1500, ((.ok info : Wait), (0 : ℤ))⟩, ⟨.heap, fun _ : ℕ => (0 : Byte)⟩,
   ⟨.command (.setReply (remoteCommand cmd) (some (info.packet 0 0)) .noError), ()⟩, ⟨.time, (0 : ℤ)⟩,
   ⟨.heap, fun _ : ℕ => (0 : Byte)⟩, ⟨.reportEvent (reportStationState [] 1 0 0 cmd.source), ()⟩,
   ⟨.command (.deleted (remoteCommand cmd)), ()⟩]

def stoppedProcessor : Processor := { knownProcessor with motorStatus := 0 }

def remoteTest (status : Byte) (x : ProcessorM Processor) (log : TrafficLog) : Bool :=
  match x with
  | .ret _ => informedStatus log.waits = some status ∧ log.events.length = 1
  | _ => false

theorem exists_remote (cmd : CmdExternal) (info : Frame) (status : Byte)
    (h : (Prog.replay TrafficLog.next still ((remoteScript cmd info).map .answer)
      (stoppedProcessor.processCommand (unfilteredConfig true) (remoteCommand cmd), {})).any
        (fun c => remoteTest status c.1 c.2) = true) :
    ∃ q log, trafficEnv.Reaches
      (stoppedProcessor.processCommand (unfilteredConfig true) (remoteCommand cmd), {})
        (.ret q, log) ∧ informedStatus log.waits = some status ∧ log.events.length = 1 := by
  obtain ⟨x, log, hreaches, htest⟩ := Prog.exists_reaches_of_replay_test TrafficLog.next still
    ((remoteScript cmd info).map .answer) (remoteTest status) h
  unfold remoteTest at htest
  split at htest
  next q => exact ⟨q, log, hreaches, of_decide_eq_true htest⟩
  next => cases htest

theorem remoteCommand_motor {cmd : CmdExternal} (htemplate : cmd.template ∈ engineTemplates.map Prod.snd)
    (hcmd : cmd.cmdId = reqVdOn) : RemoteMotor (remoteCommand cmd) cmd := by
  refine ⟨rfl, htemplate, 0, ?_⟩
  rw [hcmd]
  rfl

theorem remote_motor_truthful_iff_start : ∃ log : TrafficLog, log.events.length = 1 ∧
    (ReplyTruthful 0 log ↔
      ∀ new, informedStatus log.waits = some new → AsAssumed reqVdOn 0 0 new) := by
  obtain ⟨q, log, hreaches, -, hevents⟩ := exists_remote startCommand onInfoFrame
    1 (by decide +kernel)
  exact ⟨log, hevents, remote_motor_truthful_iff (unfilteredConfig true) stoppedProcessor
    (remoteCommand_motor (by decide) rfl) hreaches⟩

/-- A reset leaves the motor stopped. -/
theorem remote_motor_truthful_false : ¬∀ (cfg : ProcessorConfig) (p q : Processor)
    (c : CustomCommand) (cmd : CmdExternal) (log : TrafficLog), RemoteMotor c cmd →
    trafficEnv.Reaches (p.processCommand cfg c, {}) (.ret q, log) →
    ReplyTruthful p.motorStatus log := by
  intro hall
  obtain ⟨q, log, hreaches, hstatus, hevents⟩ := exists_remote resetCommand infoFrame
    0 (by decide +kernel)
  have htruthful := hall _ _ _ _ _ _ (remoteCommand_motor (by decide) rfl) hreaches
  unfold ReplyTruthful at htruthful
  rw [hstatus] at htruthful
  rw [show log.events = [] from htruthful] at hevents
  cases hevents

end Ritex
