import Ritex.MatchedReplies
import Ritex.ModeTracking
import Ritex.OperatorMode

/-! What a client is told of its command: over whole runs the text says success exactly where the
station has acknowledged the command. -/
namespace Ritex
open Interaction

/-- The queue gets commands as `TestDevice` and `ExecuteCustomCommand` make them. -/
def CustomCommand.Made (c : CustomCommand) : Prop :=
  match c.parentCommand.commandClass with
  | .testDevice => ∃ now, c.dataPacket = testDevicePacket now
  | .external cmd => ∃ now,
      customCommandPacket (cmd.cmdId.setWidth 8) cmd.param1 cmd.param2 now = some c.dataPacket

/-- The command that was handed over last, and what has been waited for since. -/
structure CommandExchange where
  command : Option CustomCommand
  waits : List Wait

def CommandExchange.next (x : CommandExchange) : Event Op Res → CommandExchange
  | ⟨.command (.handedOver c), _⟩ => ⟨some c, []⟩
  | ⟨.wait _, r⟩ => { x with waits := x.waits ++ [r.1] }
  | _ => x

def commandExchange (h : History) : CommandExchange := h.foldl CommandExchange.next ⟨none, []⟩

/-- The replies of a station that has done what it was asked for. Where it answers with information,
the mode that the operator has selected has to be the first. -/
inductive Acknowledged (mode : Option Byte) : CommandClass → List Wait → Prop
  | test {info : Frame} (hinfo : info.HasCmd ackInfo) (hmode : mode = some 0) :
      Acknowledged mode .testDevice [.ok info]
  | setting {cmd : CmdExternal} {settings : Frame} (hcmd : cmd.cmdId = reqSettingSet)
      (hsettings : settings.HasCmd ackAllSettings) : Acknowledged mode (.external cmd) [.ok settings]
  | motor {cmd : CmdExternal} {ack info : Frame} (hcmd : cmd.cmdId ≠ reqSettingSet)
      (hdone : CarriedOut ack info) (hmode : mode = some 0) :
      Acknowledged mode (.external cmd) [.ok ack, .ok info]

/-- A change of a setting is followed by a packet that is no answer to it. -/
inductive Overheard : CommandClass → List Wait → Prop
  | mk {cmd : CmdExternal} {other : Frame} (hcmd : cmd.cmdId = reqSettingSet)
      (hack : ¬other.HasCmd ackAck) (hsettings : ¬other.HasCmd ackAllSettings) :
      Overheard (.external cmd) [.ok other]

structure TruthfulAnswer (command : CommandClass) (mode : Option Byte) (waits : List Wait)
    (text : String) : Prop where
  success : text.toList.head? = some '8' ↔ Acknowledged mode command waits
  silence : text = "" ↔ Overheard command waits
  failure : ¬Acknowledged mode command waits → ¬Overheard command waits →
    text.toList.head? = some '7'

/-- An answer to a command that was made by the device goes to the command that was handed over last
and is truthful. -/
def TellsTruth (before : History) (e : Event Op Res) : Prop :=
  ∀ c listener text, e.1 = .command (.onResultReady c listener text) → c.Made →
    (commandExchange before).command = some c ∧
      TruthfulAnswer c.parentCommand.commandClass (modeTrack before).adopted
        (commandExchange before).waits text

def AllTruthful (h : History) : Prop := ∀ before e after, h = before ++ e :: after → TellsTruth before e

/-! ### Texts -/

theorem head_append {s : String} {c : Char} (h : s.toList.head? = some c) (t : String) :
    (s ++ t).toList.head? = some c := by
  rw [String.toList_append, List.head?_append, h]
  rfl

theorem commonReply_head (status : ErrorCode) : (commonReply status).toList.head? = some '7' := by
  cases status with
  | badCrc | timeout => decide
  | _ => exact head_append (head_append (by decide) _) _

theorem errorReply_head (code : Byte) : (errorReply code).toList.head? = some '7' :=
  head_append (head_append (head_append (head_append (by decide) _) _) _) _

section Truthful

variable {command : CommandClass} {mode : Option Byte} {waits : List Wait} {text : String}

theorem Acknowledged.not_overheard (h : Acknowledged mode command waits) : ¬Overheard command waits := by
  intro hover
  cases hover with
  | mk hcmd hack hsettings =>
    cases h with
    | setting _ h => exact hsettings h

theorem ne_empty {c : Char} (h : text.toList.head? = some c) : text ≠ "" := by
  rintro rfl
  cases h

theorem TruthfulAnswer.of_success (htext : text.toList.head? = some '8')
    (h : Acknowledged mode command waits) : TruthfulAnswer command mode waits text :=
  ⟨iff_of_true htext h, iff_of_false (ne_empty htext) h.not_overheard, fun hnot => absurd h hnot⟩

theorem TruthfulAnswer.of_failure (htext : text.toList.head? = some '7')
    (h : ¬Acknowledged mode command waits) (hover : ¬Overheard command waits) :
    TruthfulAnswer command mode waits text := by
  refine ⟨iff_of_false ?_ h, iff_of_false (ne_empty htext) hover, fun _ _ => htext⟩
  rw [htext]
  decide

theorem TruthfulAnswer.of_silence (h : Overheard command waits) :
    TruthfulAnswer command mode waits "" :=
  ⟨iff_of_false (by decide) fun hack => hack.not_overheard h, iff_of_true rfl h,
    fun _ hnot => absurd h hnot⟩

end Truthful

/-! ### Replies -/

/-- What `SetReply` may tell the listeners of a command that it hands this reply. -/
inductive Says : CommandClass → Received → String → Prop
  | failed {command : CommandClass} {packet : Option DataPacket} {status : ErrorCode}
      (h : status ≠ .noError) : Says command (packet, status) (commonReply status)
  | test (packet : DataPacket) (memory : ℕ → Byte) :
      Says .testDevice (some packet, .noError) ((testDeviceReply packet).value memory)
  | external {filter : ParameterFilter} {cmd : CmdExternal} {values : SettingValues} {now : ℤ}
      {packet : DataPacket} {memory : ℕ → Byte} {reply : ExternalReply}
      (h : (externalReply filter cmd values now packet).value memory = some reply) :
      Says (.external cmd) (some packet, .noError) reply.rawResult

/-- Whatever is told upon the reply is truthful. -/
def Settled (c : CustomCommand) (mode : Byte) (waits : List Wait) (received : Received) : Prop :=
  c.Made → ∀ text, Says c.parentCommand.commandClass received text →
    TruthfulAnswer c.parentCommand.commandClass (some mode) waits text

theorem Frame.packet_cmd_iff (f : Frame) {cmd : Word} (hcmd : getCmd cmd = cmd) (hinfo : cmd ≠ ackInfo)
    (writeMode : BitVec 32) (now : ℤ) : (f.packet writeMode now).cmd = cmd ↔ f.HasCmd cmd := by
  constructor
  · intro h
    rw [Frame.HasCmd, ← f.getCmd_packet writeMode now, h, hcmd]
  · intro h
    have hother : f.cmd.setWidth 16 ≠ ackInfoMode 0 := by
      rw [h]
      exact hinfo
    show longCmd writeMode f.cmd = cmd
    rw [longCmd, if_neg hother]
    exact h

theorem Frame.packet_info_iff (f : Frame) (mode : Byte) (now : ℤ) :
    (f.packet (mode.setWidth 32) now).cmd = ackInfo ↔ f.HasCmd ackInfo ∧ mode = 0 := by
  have hmode : ((mode.setWidth 32 : BitVec 32).setWidth 8 : Byte) = mode := by simp
  constructor
  · intro h
    have hinfo : f.HasCmd ackInfo := by
      rw [Frame.HasCmd, ← f.getCmd_packet (mode.setWidth 32) now, h]
      decide
    have hcmd : f.cmd = 0x64 := by
      have hlsb := congrArg lsb hinfo
      rwa [lsb_setWidth] at hlsb
    have hlabel : longCmd (mode.setWidth 32) 0x64 = ackInfo := hcmd ▸ h
    exact ⟨hinfo, hmode ▸ (longCmd_info_eq _).mp hlabel⟩
  · rintro ⟨hinfo, rfl⟩
    have hcmd : f.cmd = 0x64 := by
      have hlsb := congrArg lsb hinfo
      rwa [lsb_setWidth] at hlsb
    show longCmd _ f.cmd = ackInfo
    rw [hcmd]
    exact (longCmd_info_eq _).mpr hmode

def CommandClass.IsMotor : CommandClass → Prop
  | .external cmd => cmd.cmdId ≠ reqSettingSet
  | .testDevice => False

theorem templates_motor : ∀ t ∈ (settingTemplates ++ engineTemplates).map Prod.snd,
    Processor.isMotorCommand (getCmd ((t.cmd.setWidth 8 : Byte).setWidth 16)) = true ↔
      t.cmd ≠ reqSettingSet := by
  decide +kernel

theorem CustomCommand.Made.isMotorCommand {c : CustomCommand} (h : c.Made) :
    Processor.isMotorCommand (getCmd c.dataPacket.cmd) = true ↔
      c.parentCommand.commandClass.IsMotor := by
  unfold CustomCommand.Made at h
  split at h
  next hclass =>
    obtain ⟨now, hpacket⟩ := h
    rw [hclass, hpacket]
    show Processor.isMotorCommand (getCmd reqInfoRequestMode0) = true ↔ False
    decide
  next cmd hclass =>
    obtain ⟨now, hpacket⟩ := h
    rw [hclass, customCommandPacket_cmd hpacket]
    exact templates_motor _ cmd.template_mem

section Settled

variable {c : CustomCommand} {mode : Byte} {waits : List Wait}

theorem settled_failed {packet : Option DataPacket} {status : ErrorCode} (hstatus : status ≠ .noError)
    (hack : c.Made → ¬Acknowledged (some mode) c.parentCommand.commandClass waits)
    (hover : c.Made → ¬Overheard c.parentCommand.commandClass waits) :
    Settled c mode waits (packet, status) := by
  intro hmade text hsays
  generalize c.parentCommand.commandClass = command at hsays hack hover
  cases hsays with
  | failed _ => exact .of_failure (commonReply_head status) (hack hmade) (hover hmade)
  | test | external => exact absurd rfl hstatus

theorem externalReply_setting {filter : ParameterFilter} {cmd : CmdExternal} {values : SettingValues}
    {now : ℤ} {packet : DataPacket} {memory : ℕ → Byte} {reply : ExternalReply}
    (hcmd : cmd.cmdId = reqSettingSet)
    (h : (externalReply filter cmd values now packet).value memory = some reply) :
    (packet.cmd = ackAck ∧ reply.rawResult.toList.head? = some '7') ∨
      (packet.cmd = ackAllSettings ∧ reply.rawResult.toList.head? = some '8') ∨
      (packet.cmd ≠ ackAck ∧ packet.cmd ≠ ackAllSettings ∧ reply.rawResult = "") := by
  rw [externalReply, if_pos hcmd] at h
  split at h
  next hack =>
    cases h
    exact .inl ⟨hack, errorReply_head _⟩
  next hack =>
    split at h
    next hsettings =>
      refine .inr (.inl ⟨hsettings, ?_⟩)
      change settingReply filter cmd values now = some reply at h
      rw [settingReply] at h
      obtain ⟨⟨oldValue, values'⟩, -, h⟩ := Option.bind_eq_some_iff.mp h
      cases oldValue with
      | none =>
        cases h
        show ("8;Уставка изменена\n" : String).toList.head? = _
        decide
      | some oldValue =>
        obtain ⟨name, -, h⟩ := Option.bind_eq_some_iff.mp h
        cases h
        show ("8;Уставка изменена\n" : String).toList.head? = _
        decide
    next hsettings =>
      cases h
      exact .inr (.inr ⟨hack, hsettings, rfl⟩)

theorem motorReply_head (filter : ParameterFilter) (cmd : CmdExternal) (values : SettingValues)
    (now : ℤ) (packet : DataPacket) (memory : ℕ → Byte) :
    ((motorReply filter cmd values now packet).value memory).rawResult.toList.head? =
      some (if packet.cmd = ackInfo then '8' else '7') := by
  unfold motorReply
  split
  next hack =>
    rw [if_neg (by rw [hack]; decide)]
    exact errorReply_head _
  next =>
    split
    next =>
      show ("8;Прием без ошибок\n" : String).toList.head? = _
      decide
    next =>
      show ("7;Получен неизвестный ответ\n" : String).toList.head? = _
      decide

theorem testDeviceReply_head (packet : DataPacket) (memory : ℕ → Byte) :
    ((testDeviceReply packet).value memory).toList.head? =
      some (if packet.cmd = ackInfo then '8' else '7') := by
  unfold testDeviceReply
  split
  next hinfo =>
    rw [if_pos (show packet.cmd = ackInfo from hinfo)]
    exact head_append (head_append (by decide) _) _
  next hinfo =>
    rw [if_neg (show packet.cmd ≠ ackInfo from hinfo)]
    show ("7|Получен неизвестный ответ\n" : String).toList.head? = _
    decide

theorem engineTemplate_of_motor {cmd : CmdExternal} (h : cmd.cmdId ≠ reqSettingSet) :
    cmd.template ∈ engineTemplates.map Prod.snd := by
  have hmem := cmd.template_mem
  rw [List.map_append, List.mem_append] at hmem
  rcases hmem with hset | hengine
  · have hsetting : ∀ t ∈ settingTemplates.map Prod.snd, t.cmd = reqSettingSet := by
      simp [settingTemplates]
    exact absurd (hsetting _ hset) h
  · exact hengine

theorem externalReply_motor_head {filter : ParameterFilter} {cmd : CmdExternal} {values : SettingValues}
    {now : ℤ} {packet : DataPacket} {memory : ℕ → Byte} {reply : ExternalReply}
    (hcmd : cmd.cmdId ≠ reqSettingSet)
    (h : (externalReply filter cmd values now packet).value memory = some reply) :
    reply.rawResult.toList.head? = some (if packet.cmd = ackInfo then '8' else '7') := by
  rw [externalReply_motor (engineTemplate_of_motor hcmd)] at h
  cases h
  exact motorReply_head filter cmd values now packet memory

theorem not_acknowledged_error {command : CommandClass} {waits : List Wait} {e : WaitError}
    (h : .error e ∈ waits) : ¬Acknowledged (some mode) command waits := by
  intro hack
  cases hack <;> simp at h

theorem not_overheard_error {command : CommandClass} {waits : List Wait} {e : WaitError}
    (h : .error e ∈ waits) : ¬Overheard command waits := by
  intro hover
  cases hover
  simp at h

theorem settled_error {e : WaitError} (h : .error e ∈ waits) : Settled c mode waits (none, e.code) :=
  settled_failed e.code_ne (fun _ => not_acknowledged_error h) fun _ => not_overheard_error h

/-- The one reply to a command that moves no motor. -/
theorem settled_reply (f : Frame) (now : ℤ) (hmotor : ¬Processor.isMotorCommand (getCmd c.dataPacket.cmd)) :
    Settled c mode [.ok f] (some (f.packet (mode.setWidth 32) now), .noError) := by
  intro hmade text hsays
  rw [hmade.isMotorCommand] at hmotor
  generalize c.parentCommand.commandClass = command at hsays hmotor
  cases hsays with
  | failed h => exact absurd rfl h
  | test _ memory =>
    have htext := testDeviceReply_head (f.packet (mode.setWidth 32) now) memory
    split at htext
    next hinfo =>
      obtain ⟨hf, rfl⟩ := (f.packet_info_iff mode now).mp hinfo
      exact .of_success htext (.test hf rfl)
    next hinfo =>
      refine .of_failure htext (fun h => hinfo ?_) fun h => nomatch h
      cases h with
      | test h hmode => exact (f.packet_info_iff mode now).mpr ⟨h, Option.some.inj hmode⟩
  | @external filter cmd values _ _ memory reply h =>
    have hcmd : cmd.cmdId = reqSettingSet := not_not.mp hmotor
    have hack : (f.packet (mode.setWidth 32) now).cmd = ackAck ↔ f.HasCmd ackAck :=
      f.packet_cmd_iff (by decide) (by decide) _ now
    have hsettings : (f.packet (mode.setWidth 32) now).cmd = ackAllSettings ↔
        f.HasCmd ackAllSettings := f.packet_cmd_iff (by decide) (by decide) _ now
    rcases externalReply_setting hcmd h with ⟨hf, htext⟩ | ⟨hf, htext⟩ | ⟨hf, hf', htext⟩
    · have hf' := hack.mp hf
      refine .of_failure htext (fun h => ?_) fun h => ?_
      · cases h with
        | setting _ h =>
          rw [Frame.HasCmd, hf'] at h
          revert h
          decide
      · cases h with
        | mk _ h => exact h hf'
    · exact .of_success htext (.setting hcmd (hsettings.mp hf))
    · rw [htext]
      exact .of_silence (.mk hcmd (fun h => hf (hack.mpr h)) fun h => hf' (hsettings.mpr h))

/-- A motor command that is turned down, or answered by something else. -/
theorem settled_refused {f : Frame} (hmotor : Processor.isMotorCommand (getCmd c.dataPacket.cmd) = true)
    (now : ℤ) {status : ErrorCode} (hstatus : status = .noError → f.HasCmd ackAck) :
    Settled c mode [.ok f] (some (f.packet (mode.setWidth 32) now), status) := by
  intro hmade text hsays
  rw [hmade.isMotorCommand] at hmotor
  generalize c.parentCommand.commandClass = command at hsays hmotor
  have hack : ¬Acknowledged (some mode) command [.ok f] := by
    intro h
    cases h with
    | test => exact hmotor
    | setting hcmd _ => exact hmotor hcmd
  have hover : ¬Overheard command [.ok f] := by
    intro h
    cases h with
    | mk hcmd => exact hmotor hcmd
  refine .of_failure ?_ hack hover
  cases hsays with
  | failed _ => exact commonReply_head status
  | test => exact hmotor.elim
  | external h =>
    have hf : (f.packet (mode.setWidth 32) now).cmd = ackAck :=
      (f.packet_cmd_iff (by decide) (by decide) _ now).mpr (hstatus rfl)
    rw [externalReply_motor_head hmotor h, if_neg (by rw [hf]; decide)]

/-- The information that follows the acknowledgement of a motor command. -/
theorem settled_informed {ack info : Frame} (hack : ack.HasCmd ackAck) (hcode : ack.status = 0)
    (hmotor : Processor.isMotorCommand (getCmd c.dataPacket.cmd) = true) (now : ℤ) :
    Settled c mode [.ok ack, .ok info] (some (info.packet (mode.setWidth 32) now), .noError) := by
  intro hmade text hsays
  rw [hmade.isMotorCommand] at hmotor
  generalize c.parentCommand.commandClass = command at hsays hmotor
  cases hsays with
  | failed h => exact absurd rfl h
  | test => exact hmotor.elim
  | external h =>
    have htext := externalReply_motor_head hmotor h
    split at htext
    next hinfo =>
      obtain ⟨hf, rfl⟩ := (info.packet_info_iff mode now).mp hinfo
      exact .of_success htext (.motor hmotor ⟨hack, hcode, hf⟩ rfl)
    next hinfo =>
      refine .of_failure htext (fun h => hinfo ?_) fun h => nomatch h
      cases h with
      | motor _ hdone hmode =>
        exact (info.packet_info_iff mode now).mpr ⟨hdone.isInfo, Option.some.inj hmode⟩

end Settled

/-! ### Histories of truthful answers -/

abbrev Truthfully {α : Type} (x : ProcessorM α) (Q : α → History → Prop) (h : History) : Prop :=
  x.Safe (historyEnv Op Res) AllTruthful Q h

/-- An operation that tells nobody a result. -/
def Op.Mute (o : Op) : Prop := ∀ c listener text, o ≠ .command (.onResultReady c listener text)

/-- A mute operation that does not ask for the settings that a mode is adopted from. -/
def Op.Unheard : Op → Prop
  | .write .setPassword _ => False
  | .command (.onResultReady _ _ _) => False
  | _ => True

/-- An operation that has no part in the exchange of a command either. -/
def Op.Inert : Op → Prop
  | .wait _ => False
  | .write .setPassword _ => False
  | .command (.handedOver _) => False
  | .command (.onResultReady _ _ _) => False
  | _ => True

/-- The answers so far are truthful, and this is the mode adopted last. -/
structure Telling (mode : Option Byte) (h : History) : Prop where
  truthful : AllTruthful h
  adopted : Adopted mode h

/-- The command was handed over last and these were the waits since. -/
structure Handling (c : CustomCommand) (mode : Byte) (waits : List Wait) (h : History) : Prop where
  telling : Telling (some mode) h
  exchange : commandExchange h = ⟨some c, waits⟩

theorem commandExchange_snoc (h : History) (e : Event Op Res) :
    commandExchange (h ++ [e]) = (commandExchange h).next e := by
  rw [commandExchange, List.foldl_append]
  rfl

theorem Op.Inert.next {o : Op} (ho : o.Inert) (x : CommandExchange) (r : Res o) :
    x.next ⟨o, r⟩ = x := by
  cases o with
  | wait timeout => exact ho.elim
  | command event =>
    cases event with
    | handedOver c => exact ho.elim
    | _ => rfl
  | _ => rfl

theorem Op.Inert.unheard {o : Op} (ho : o.Inert) : o.Unheard := by
  cases o with
  | write writer packet =>
    cases writer with
    | setPassword => exact ho.elim
    | _ => trivial
  | command event =>
    cases event with
    | onResultReady => exact ho.elim
    | _ => trivial
  | _ => trivial

theorem Op.Unheard.mute {o : Op} (ho : o.Unheard) : o.Mute := by
  rintro c listener text rfl
  exact ho

theorem Op.Unheard.notAsking {o : Op} (ho : o.Unheard) : o.NotAsking := by
  rintro packet rfl
  exact ho

theorem Op.Ordinary.unheard (o : Op) (ho : o.Ordinary) : o.Unheard := by
  cases o with
  | write | command => exact ho.1.elim
  | _ => trivial

section Histories

variable {h : History} {mode : Option Byte} {α : Type}

theorem AllTruthful.snoc (hh : AllTruthful h) {o : Op} (ho : o.Mute) (r : Res o) :
    AllTruthful (h ++ [⟨o, r⟩]) :=
  (forall_split_snoc h _).mpr ⟨hh, fun c listener text heq => absurd heq (ho c listener text)⟩

theorem Telling.snoc (hh : Telling mode h) {o : Op} (ho : o.Unheard) (r : Res o) :
    Telling mode (h ++ [⟨o, r⟩]) :=
  ⟨hh.truthful.snoc ho.mute r, hh.adopted.snoc ho.notAsking r⟩

theorem Telling.only (hh : Telling mode h) {x : ProcessorM α} (hx : x.Only Op.Unheard) :
    Truthfully x (fun _ h' => Telling mode h') h :=
  hx.safe_history (fun _ hh => hh.truthful) (fun _ ho _ hh r => hh.snoc ho r) hh

variable {c : CustomCommand} {m : Byte} {waits : List Wait}

theorem Handling.snoc (hh : Handling c m waits h) {o : Op} (ho : o.Inert) (r : Res o) :
    Handling c m waits (h ++ [⟨o, r⟩]) :=
  ⟨hh.telling.snoc ho.unheard r, by rw [commandExchange_snoc, ho.next, hh.exchange]⟩

theorem Handling.only (hh : Handling c m waits h) {x : ProcessorM α} (hx : x.Only Op.Inert) :
    Truthfully x (fun _ h' => Handling c m waits h') h :=
  hx.safe_history (fun _ hh => hh.telling.truthful) (fun _ ho _ hh r => hh.snoc ho r) hh

theorem Handling.heard (hh : Handling c m waits h) (timeout : ℕ) (w : Wait) (now : ℤ) :
    Handling c m (waits ++ [w]) (h ++ [⟨.wait timeout, (w, now)⟩]) := by
  refine ⟨hh.telling.snoc (o := .wait timeout) trivial _, ?_⟩
  rw [commandExchange_snoc, hh.exchange]
  rfl

theorem Telling.handed (hh : Telling (some m) h) (c : CustomCommand) (r : Unit) :
    Handling c m [] (h ++ [⟨.command (.handedOver c), r⟩]) :=
  ⟨hh.snoc (o := .command (.handedOver c)) trivial r,
    commandExchange_snoc h _⟩

/-- A listener is told the truth. -/
theorem Handling.tells (hh : Handling c m waits h) {text : String}
    (htext : c.Made → TruthfulAnswer c.parentCommand.commandClass (some m) waits text)
    (listener : ℕ) (r : Unit) :
    Handling c m waits (h ++ [⟨.command (.onResultReady c listener text), r⟩]) := by
  have htells : TellsTruth h ⟨.command (.onResultReady c listener text), r⟩ := by
    intro c' listener' text' heq hmade
    cases heq
    rw [hh.telling.adopted.adopted, hh.exchange]
    exact ⟨rfl, htext hmade⟩
  refine ⟨⟨(forall_split_snoc h _).mpr ⟨hh.telling.truthful, htells⟩, ?_⟩, ?_⟩
  · exact hh.telling.adopted.snoc (o := .command (.onResultReady c listener text))
      (by simp [Op.NotAsking]) r
  · rw [commandExchange_snoc, hh.exchange]
    rfl

end Histories

/-! ### Commands -/

namespace Processor

variable {h : History} {c : CustomCommand} {m : Byte} {waits : List Wait}

theorem time_inert : time.Only Op.Inert :=
  ⟨trivial, fun _ => trivial⟩

theorem readData_inert {α : Type} (packet : DataPacket) (x : PayloadReader α) :
    (readData packet x).Only Op.Inert :=
  ⟨trivial, fun _ => trivial⟩

theorem reportEvents_inert (events : List DBEventCommon) : (reportEvents events).Only Op.Inert := by
  induction events with
  | nil => trivial
  | cons event events ih =>
    exact ⟨trivial, fun _ => ih⟩

theorem notifyListeners_answers (hh : Handling c m waits h) {text : String}
    (htext : c.Made → TruthfulAnswer c.parentCommand.commandClass (some m) waits text)
    (listeners : List ℕ) :
    Truthfully (notifyListeners c text listeners) (fun _ h' => Handling c m waits h') h := by
  induction listeners generalizing h with
  | nil => exact hh
  | cons listener listeners ih =>
    refine Prog.safe_history_op fun r => ?_
    have hh' := hh.tells htext listener r
    exact ⟨hh'.telling.truthful, ih hh'⟩

theorem notifyResultReady_answers (hh : Handling c m waits h) {text : String}
    (htext : c.Made → TruthfulAnswer c.parentCommand.commandClass (some m) waits text) :
    Truthfully (notifyResultReady c text) (fun _ h' => Handling c m waits h') h := by
  refine (notifyListeners_answers hh htext _).bind fun _ h₁ hh₁ => hh₁.only ?_
  exact ⟨trivial, fun _ => trivial⟩

theorem setExternalReply_answers (cfg : ProcessorConfig) (p : Processor) {cmd : CmdExternal}
    (hclass : c.parentCommand.commandClass = .external cmd) (hh : Handling c m waits h)
    {packet : Option DataPacket} {status : ErrorCode} (hreplied : Replied (packet, status))
    (hsettled : Settled c m waits (packet, status)) :
    Truthfully (p.setExternalReply cfg c cmd packet status) (fun _ h' => Handling c m waits h') h := by
  unfold setExternalReply
  refine (hh.only time_inert).bind fun now h₁ hh₁ => ?_
  split
  next hstatus =>
    obtain ⟨q, rfl, hq⟩ := deref_eq (hreplied hstatus)
    subst hstatus
    rw [hq]
    refine Prog.safe_history_op fun beyond => ?_
    have hh₂ := hh₁.snoc (o := .heap) trivial beyond
    refine ⟨hh₂.telling.truthful, ?_⟩
    obtain ⟨reply, hreply⟩ := Option.isSome_iff_exists.mp
      (externalReply_isSome cfg.filter cmd p.settings now q (q.memory beyond))
    show Truthfully (p.applyReply c (PayloadReader.value _ _)) _ _
    rw [hreply]
    refine (hh₂.only (reportEvents_inert _)).bind fun _ h₃ hh₃ => ?_
    refine (notifyResultReady_answers hh₃ fun hmade => hsettled hmade _ ?_).bind fun _ _ hh₄ => hh₄
    rw [hclass]
    exact .external hreply
  next hstatus =>
    refine (notifyResultReady_answers hh₁ fun hmade => ?_).bind fun _ _ hh₂ => hh₂
    exact hsettled hmade _ (.failed hstatus)

theorem setTestReply_answers (hclass : c.parentCommand.commandClass = .testDevice)
    (hh : Handling c m waits h) {packet : Option DataPacket} {status : ErrorCode}
    (hreplied : Replied (packet, status)) (hsettled : Settled c m waits (packet, status)) :
    Truthfully (setTestReply c packet status) (fun _ h' => Handling c m waits h') h := by
  unfold setTestReply
  split
  next hstatus =>
    obtain ⟨q, rfl, hq⟩ := deref_eq (hreplied hstatus)
    subst hstatus
    rw [hq]
    refine Prog.safe_history_op fun beyond => ?_
    have hh₁ := hh.snoc (o := .heap) trivial beyond
    refine ⟨hh₁.telling.truthful, notifyResultReady_answers hh₁ fun hmade => hsettled hmade _ ?_⟩
    rw [hclass]
    exact .test q (q.memory beyond)
  next hstatus =>
    exact notifyResultReady_answers hh fun hmade => hsettled hmade _ (.failed hstatus)

theorem setReply_answers (cfg : ProcessorConfig) (p : Processor) (hh : Handling c m waits h)
    {packet : Option DataPacket} {status : ErrorCode} (hreplied : Replied (packet, status))
    (hsettled : Settled c m waits (packet, status)) :
    Truthfully (p.setReply cfg c packet status) (fun _ h' => Handling c m waits h') h := by
  unfold setReply
  refine (hh.only (x := command (.setReply c packet status))
    ⟨trivial, fun _ => trivial⟩).bind
    fun _ h₁ hh₁ => ?_
  split
  next cmd hclass => exact setExternalReply_answers cfg p hclass hh₁ hreplied hsettled
  next hclass =>
    exact (setTestReply_answers hclass hh₁ hreplied hsettled).bind fun _ _ hh₂ => hh₂

/-! ### The exchange -/

theorem write_inert {writer : Writer} (hw : writer ≠ .setPassword) (packet : DataPacket) :
    (write writer packet).Only Op.Inert := by
  cases writer with
  | setPassword => exact absurd rfl hw
  | _ => exact ⟨trivial, fun _ => trivial⟩

/-- What is told upon the reply is truthful after the waits so far. -/
def RepliesTo (c : CustomCommand) (m : Byte) (received : Received) (h : History) : Prop :=
  ∃ waits, Handling c m waits h ∧ Settled c m waits received

theorem motorInfo_answers {p : Processor} (hp : p.writeMode = m.setWidth 32) {ack : Frame}
    (hack : ack.HasCmd ackAck) (hcode : ack.status = 0)
    (hmotor : isMotorCommand (getCmd c.dataPacket.cmd) = true) (hh : Handling c m [.ok ack] h) :
    Truthfully (p.motorInfo c) (fun r h' => RepliesTo c m r.1 h') h := by
  unfold motorInfo requestCurrentData
  refine (hh.only (time_inert.bind fun now => write_inert (by simp) _)).bind fun _ h₁ hh₁ => ?_
  refine Prog.safe_history_op fun (w, now) => ?_
  have hh₂ := hh₁.heard ksuInactivityTimeout w now
  refine ⟨hh₂.telling.truthful, ?_⟩
  cases w with
  | error e =>
    have hsettled : Settled c m [.ok ack, .error e] (none, e.code) := settled_error (by simp)
    cases e <;> exact ⟨_, hh₂, hsettled⟩
  | ok info =>
    have hsettled : Settled c m [.ok ack, .ok info]
        (some (info.packet (m.setWidth 32) now), .noError) := settled_informed hack hcode hmotor now
    have hcheck : checkReply c.dataPacket (info.packet p.writeMode now) = .noError :=
      checkReply_frame info p.writeMode now
    rw [← hp, ← hcheck] at hsettled
    show Truthfully (if getCmd (info.packet p.writeMode now).cmd = ackInfo then _ else _) _ _
    split
    · exact (hh₂.only (readData_inert _ _)).bind fun status h₃ hh₃ => ⟨_, hh₃, hsettled⟩
    · exact ⟨_, hh₂, hsettled⟩

theorem commandReply_answers {p : Processor} (hp : p.writeMode = m.setWidth 32) (w : Wait) (now : ℤ)
    (hh : Handling c m [w] h) :
    Truthfully (p.commandReply c (w.received p.writeMode now).1 (w.received p.writeMode now).2)
      (fun r h' => RepliesTo c m r.1 h') h := by
  cases w with
  | error e =>
    have hsettled : Settled c m [.error e] (none, e.code) := settled_error (by simp)
    cases e <;> exact ⟨_, hh, hsettled⟩
  | ok f =>
    show Truthfully (if isMotorCommand (getCmd c.dataPacket.cmd) = true then
      p.motorCommand c (f.packet p.writeMode now) else _) _ h
    split
    next hmotor =>
      have hrefused {status : ErrorCode} (hstatus : status = .noError → f.HasCmd ackAck) :
          Settled c m [.ok f] (some (f.packet p.writeMode now), status) := by
        rw [hp]
        exact settled_refused hmotor now hstatus
      unfold motorCommand
      split
      next hcmd =>
        have hack : f.HasCmd ackAck := (f.getCmd_packet p.writeMode now).symm.trans hcmd
        refine Prog.safe_history_op fun beyond => ?_
        have hh₁ := hh.snoc (o := .heap) trivial beyond
        refine ⟨hh₁.telling.truthful, ?_⟩
        have hstatus := f.memory_status hack (by decide) p.writeMode now beyond
        show Truthfully (if (f.packet p.writeMode now).memory beyond 0 = 0 then _ else _) _ _
        split
        next hcode => exact motorInfo_answers hp hack (hstatus.symm.trans hcode) hmotor hh₁
        next => exact ⟨_, hh₁, hrefused fun _ => hack⟩
      next => exact ⟨_, hh, hrefused fun h => by cases h⟩
    next hmotor =>
      have hsettled : Settled c m [.ok f] (some (f.packet (m.setWidth 32) now), .noError) :=
        settled_reply f now hmotor
      have hcheck : checkReply c.dataPacket (f.packet p.writeMode now) = .noError :=
        checkReply_frame f p.writeMode now
      rw [← hp, ← hcheck] at hsettled
      exact ⟨_, hh, hsettled⟩

theorem processCommand_answers (cfg : ProcessorConfig) {p : Processor}
    (hp : p.writeMode = m.setWidth 32) (hh : Handling c m [] h) :
    Truthfully (p.processCommand cfg c) (fun _ h' => Telling (some m) h') h := by
  unfold processCommand
  have hwrite : (write .processCommand c.dataPacket).Only Op.Inert := write_inert (by simp) _
  refine (hh.only hwrite).bind fun _ h₁ hh₁ => ?_
  refine Prog.safe_history_op fun (w, now) => ?_
  have hh₂ := hh₁.heard ksuInactivityTimeout w now
  refine ⟨hh₂.telling.truthful, ?_⟩
  have hensures := commandReply_ensures p c (replied_wait p.writeMode now w)
  refine ((commandReply_answers hp w now hh₂).ensures hensures).bind ?_
  rintro ⟨⟨packet, status⟩, q⟩ h₃ ⟨hreplied, waits, hh₃, hsettled⟩
  exact (setReply_answers cfg q hh₃ hreplied hsettled).mono fun _ _ hh₄ => hh₄.telling

/-! ### The thread -/

/-- The processor labels with the mode adopted last. -/
structure Labels (m : Byte) (p : Processor) (h : History) : Prop where
  writeMode : p.writeMode = m.setWidth 32
  telling : Telling (some m) h

theorem drain_answers (cfg : ProcessorConfig) (fuel : ℕ) {p : Processor} (hp : Labels m p h) :
    Truthfully (Prog.loop (fun p : Processor => p.drainRound cfg) fuel p)
      (fun _ h' => Telling (some m) h') h := by
  refine Prog.Safe.loop (J := Labels m) (fun q h hq => ?_) fuel hp
  unfold drainRound
  refine (hq.telling.only (x := Prog.perform Op.lockCmd) ⟨trivial, fun _ => trivial⟩).bind
    fun _ h₁ hh₁ => ?_
  refine (hh₁.only (x := Prog.perform Op.popFront) ⟨trivial, fun _ => trivial⟩).bind
    fun pending h₂ hh₂ => ?_
  refine (hh₂.only (x := Prog.perform Op.unlockCmd) ⟨trivial, fun _ => trivial⟩).bind
    fun _ h₃ hh₃ => ?_
  cases pending with
  | none => exact hh₃
  | some c =>
    have hsame := processCommand_sameModes cfg q c
    refine Prog.safe_history_op fun r => ?_
    have hhanded := hh₃.handed c r
    refine ⟨hhanded.telling.truthful, ?_⟩
    refine ((processCommand_answers cfg hq.writeMode hhanded).ensures hsame).bind ?_
    rintro q' h₄ ⟨hq', hh₄⟩
    refine (hh₄.only (x := command (.returned c)) ⟨trivial, fun _ => trivial⟩).bind
      fun _ h₅ hh₅ => ?_
    exact ⟨hq'.writeMode.trans hq.writeMode, hh₅⟩

theorem captured_answers (cfg : ProcessorConfig) (fuel : ℕ) (p : Processor) {f : Frame}
    (hf : f.cmd.setWidth 16 = ackAllSettings) (writeMode : BitVec 32) (now : ℤ)
    (hm : f.payload.getD writeModeOffset 0 = m) (hh : Telling (some m) h) :
    Truthfully (p.captured cfg fuel (f.packet writeMode now)) (fun _ h' => Telling (some m) h') h := by
  have hsettings : (f.packet writeMode now).cmd = ackAllSettings :=
    longCmd_eq_of_getCmd ((f.getCmd_packet writeMode now).trans hf)
  unfold captured
  refine Prog.safe_history_op fun beyond => ?_
  have hh₁ := hh.snoc (o := .heap) trivial beyond
  refine ⟨hh₁.truthful, ?_⟩
  have hmode := f.memory_writeMode hf writeMode now beyond
  show Truthfully ((checkSettings cfg
    { p with writeMode := ((f.packet writeMode now).memory beyond writeModeOffset).setWidth 32 }
    (f.packet writeMode now)).bind _) _ _
  rw [hmode, hm]
  have hcheck := checkSettings_only Op.Ordinary.unheard cfg { p with writeMode := m.setWidth 32 }
    hsettings
  refine ((hh₁.only hcheck).ensures (checkSettings_sameModes cfg _ _)).bind ?_
  rintro q h₂ ⟨hq, hh₂⟩
  refine (drain_answers cfg fuel ⟨hq.writeMode, hh₂⟩).bind fun q h₃ hh₃ => ?_
  refine (hh₃.only (time_only Op.Ordinary.unheard)).bind fun now h₄ hh₄ => ?_
  split
  · have hcycle := modeCycle_only Op.Ordinary.unheard trivial
      (fun _ _ => trivial)
      (fun _ => trivial) cfg q [1, 2, 3, 4, 5, 6, 7]
    refine (hh₄.only hcycle).bind fun _ h₅ hh₅ => ?_
    exact (hh₅.only (time_only Op.Ordinary.unheard)).bind fun _ _ hh₆ => hh₆
  · exact hh₄

theorem processCapture_answers (cfg : ProcessorConfig) (fuel : ℕ) (p : Processor)
    {mode : Option Byte} (hh : Telling mode h) :
    Truthfully (p.processCapture cfg fuel) (fun _ h' => ∃ mode, Telling mode h') h := by
  unfold processCapture
  refine (hh.only (captureDevice_only Op.Ordinary.unheard (fun _ => trivial) p)).bind
    fun isCaptured h₁ hh₁ => ?_
  split
  · refine (hh₁.only (getPasswords_only Op.Ordinary.unheard (fun _ => trivial) p)).bind
      fun passwords h₂ hh₂ => ?_
    cases passwords with
    | none => exact ⟨mode, hh₂⟩
    | some passwords =>
      have hmute : Truthfully (p.setPassword (passwords.1.setWidth 16 <<< 8 ||| passwords.2.setWidth 16))
          (fun _ h' => AllTruthful h') h₂ :=
        (setPassword_only (fun o ho => (Op.Ordinary.unheard o ho).mute) p _ (by simp [Op.Mute])).safe_history
          (fun _ hh => hh) (fun _ ho _ hh r => hh.snoc ho r) hh₂.truthful
      refine (hmute.and (setPassword_tracked p _ hh₂.adopted)).bind ?_
      rintro r h₃ ⟨htruthful, ⟨⟨b, rfl⟩, hadopted⟩ | ⟨f, now, rfl, hf, hadopted⟩⟩
      · cases b <;> exact ⟨mode, htruthful, hadopted⟩
      · refine (captured_answers cfg fuel p hf p.writeMode now rfl ⟨htruthful, hadopted⟩).mono ?_
        exact fun _ _ hh₄ => ⟨_, hh₄⟩
  · exact ⟨mode, hh₁⟩

/-- The answers so far are truthful, and no settings are awaited. -/
def Between (h : History) : Prop := ∃ mode, Telling mode h

theorem Between.only (hh : Between h) {α : Type} {x : ProcessorM α} (hx : x.Only Op.Unheard) :
    Truthfully x (fun _ h' => Between h') h := by
  obtain ⟨mode, hh⟩ := hh
  exact (hh.only hx).mono fun _ _ hh' => ⟨mode, hh'⟩

theorem runRound_answers (cfg : ProcessorConfig) (fuel : ℕ) (p : Processor) (hh : Between h) :
    Truthfully (p.runRound cfg fuel) (fun _ h' => Between h') h := by
  unfold runRound
  refine (hh.only (x := Prog.perform Op.loopTest) ⟨trivial, fun _ => trivial⟩).bind
    fun doRun h₁ hh₁ => ?_
  split
  · refine (hh₁.only (x := Prog.perform (Op.enter p.nextState)) ⟨trivial, fun _ => trivial⟩).bind
      fun _ h₂ hh₂ => ?_
    have hstate : Truthfully (Processor.processState cfg fuel { p with state := p.nextState })
        (fun _ h' => Between h') h₂ := by
      unfold processState
      split
      · exact hh₂.only (processTraffic_only Op.Ordinary.unheard trivial cfg _)
      · obtain ⟨mode, hh₂⟩ := hh₂
        exact processCapture_answers cfg fuel _ hh₂
    refine hstate.bind fun q h₃ hh₃ => ?_
    split
    · exact (hh₃.only (x := setDoRun true) ⟨trivial, fun _ => trivial⟩).bind fun _ _ hh₄ => hh₄
    · refine (hh₃.only (x := queueEmpty) ⟨trivial, fun _ => trivial⟩).bind fun empty h₄ hh₄ => ?_
      exact (hh₄.only (x := setDoRun _) ⟨trivial, fun _ => trivial⟩).bind fun _ _ hh₅ => hh₅
  · exact hh₁

theorem run_tells (cfg : ProcessorConfig) (fuel : ℕ) (p : Processor) :
    Truthfully (p.run cfg fuel) (fun _ h' => Between h') [] := by
  have hstart : Between [] := by
    refine ⟨none, fun before e after h => ?_, rfl, rfl⟩
    simp at h
  unfold run
  refine (hstart.only (waitForStart_only trivial trivial trivial trivial trivial cfg fuel)).bind
    fun _ h₁ hh₁ => ?_
  refine (hh₁.only (time_only Op.Ordinary.unheard)).bind fun now h₂ hh₂ => ?_
  refine (Prog.Safe.loop (J := fun _ => Between) (Q := fun _ => Between) (fun p h hh => ?_) fuel
    hh₂).bind fun _ h₃ hh₃ => ?_
  · exact (runRound_answers cfg fuel p hh).mono fun x _ hh' => by cases x <;> exact hh'
  refine hh₃.only (Prog.Only.bind ⟨trivial, fun _ => trivial⟩ fun _ => ?_)
  refine (Prog.Only.loop (fun _ => clearRound_only trivial) fuel ()).bind fun _ => ?_
  exact ⟨trivial, fun _ => ⟨trivial, fun _ => trivial⟩⟩

end Processor

/-- Whatever the station answers, a client is told success exactly where the station has acknowledged
its command since the command was handed over, and failure otherwise; only a change of a setting that
is followed by a packet of another exchange is answered by an empty text. -/
theorem run_truthful (cfg : ProcessorConfig) (fuel : ℕ) (p : Processor) {x : ProcessorM Unit}
    {h : History} (hreaches : (historyEnv Op Res).Reaches (p.run cfg fuel, []) (x, h))
    {before after : History} {c : CustomCommand} {listener : ℕ} {text : String} {r : Unit}
    (hanswer : h = before ++ ⟨.command (.onResultReady c listener text), r⟩ :: after) (hmade : c.Made) :
    (commandExchange before).command = some c ∧
      TruthfulAnswer c.parentCommand.commandClass (modeTrack before).adopted
        (commandExchange before).waits text := by
  have htruthful : AllTruthful h := (Processor.run_tells cfg fuel p).reaches
    (fun _ _ _ heq => by simp at heq) (fun _ _ _ hd => (historyEnv_drift hd).elim) hreaches
  exact htruthful before _ after hanswer c listener text rfl hmade

/-- Information answers the test of a device. -/
def answeredScript : List (Event Op Res) :=
  [⟨.lockCmd, ()⟩, ⟨.popFront, some testCommand⟩, ⟨.unlockCmd, ()⟩,
   ⟨.command (.handedOver testCommand), ()⟩, ⟨.write .processCommand testCommand.dataPacket, ()⟩,
   ⟨.wait 1500, ((.ok infoFrame : Wait), (0 : ℤ))⟩,
   ⟨.command (.setReply testCommand (some (infoFrame.packet 0 0)) .noError), ()⟩,
   ⟨.heap, fun _ : ℕ => (0 : Byte)⟩]

def answeredText : String := "8|Ответ получен. Наработка 0 часов\n"

theorem run_truthful_tested :
    (commandExchange (noticeScript ++ captureScript ++ answeredScript)).command = some testCommand ∧
      TruthfulAnswer .testDevice (modeTrack (noticeScript ++ captureScript ++ answeredScript)).adopted
        (commandExchange (noticeScript ++ captureScript ++ answeredScript)).waits answeredText := by
  obtain ⟨x, hreaches⟩ := Prog.exists_reaches_of_answers
    (noticeScript ++ captureScript ++ answeredScript ++
      [⟨.command (.onResultReady testCommand 0 answeredText), ()⟩]) (h := [])
    (p := knownProcessor.run (unfilteredConfig true) 2) (by decide +kernel)
  exact run_truthful (unfilteredConfig true) 2 knownProcessor hreaches rfl ⟨0, rfl⟩

end Ritex
