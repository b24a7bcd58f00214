import Ritex.DeviceCommands
import Ritex.StationCommands

/-! What a remote motor command gives away of the write mode that the operator has selected: two
runs with the same replies of the station, the same clock and the same memory are compared. -/
namespace Ritex
open Interaction

/-- The replies that the station still has to give, and what the command has brought about. -/
structure RemoteWorld where
  waits : List Wait
  ticks : ℕ := 0
  texts : List String := []
  events : List DBEventCommon := []

namespace RemoteWorld

/-- Every look at the clock finds its next reading; no other reply comes than those of the station. -/
def handle (clock : ℕ → ℤ) (heap : ℕ → Byte) : (o : Op) → RemoteWorld → Option (Res o) × RemoteWorld
  | .time, s => (some (clock s.ticks), { s with ticks := s.ticks + 1 })
  | .wait _, s =>
    match s.waits with
    | w :: waits => (some (w, clock s.ticks), { s with waits := waits, ticks := s.ticks + 1 })
    | [] => (none, s)
  | .heap, s => (some heap, s)
  | .write _ _, s => (some (), s)
  | .reportEvent event, s => (some (), { s with events := s.events ++ [event] })
  | .command (.onResultReady _ _ rawResult), s =>
    (some (), { s with texts := s.texts ++ [rawResult] })
  | .command _, s => (some (), s)
  | _, s => (none, s)

end RemoteWorld

/-- The replies of a station that carries a motor command out. -/
structure CarriedOut (ack info : Frame) : Prop where
  isAck : ack.HasCmd ackAck
  code : ack.status = 0
  isInfo : info.HasCmd ackInfo

section RemoteResult

variable (cfg : ProcessorConfig) (p : Processor) (c : CustomCommand) (ack info : Frame)
  (clock : ℕ → ℤ) (heap : ℕ → Byte)

/-- The texts that the listeners get and the events that are reported. -/
def remoteResult : List String × List DBEventCommon :=
  let world := ((p.processCommand cfg c).eval (RemoteWorld.handle clock heap) ⟨[.ok ack, .ok info], 0, [], []⟩).2
  (world.texts, world.events)

/-- The write mode makes no difference to the result, and the result is a success. -/
def ModeHidden (w₁ w₂ : BitVec 32) : Prop :=
  remoteResult cfg { p with writeMode := w₁ } c ack info clock heap =
      remoteResult cfg { p with writeMode := w₂ } c ack info clock heap ∧
    ∃ rest, (remoteResult cfg { p with writeMode := w₁ } c ack info clock heap).1 = ["8;" ++ rest]

end RemoteResult

/-- The text for information under this label. -/
def replyText (label : Word) : String :=
  if label = ackInfo then "8;Прием без ошибок\n" else "7;Получен неизвестный ответ\n"

theorem motorReply_rawResult (filter : ParameterFilter) (cmd : CmdExternal) (values : SettingValues)
    (now : ℤ) {packet : DataPacket} (hinfo : getCmd packet.cmd = ackInfo) (memory : ℕ → Byte) :
    ((motorReply filter cmd values now packet).value memory).rawResult = replyText packet.cmd := by
  have hack : packet.cmd ≠ ackAck := by
    intro hack
    rw [hack] at hinfo
    revert hinfo
    decide
  unfold motorReply replyText
  rw [if_neg hack]
  split <;> rfl

section Remote

variable {cfg : ProcessorConfig} {p : Processor} {cmd : CmdExternal} {packet : DataPacket}
  {ack info : Frame} {clock : ℕ → ℤ} {heap : ℕ → Byte}

theorem commandReply_eval (c : CustomCommand)
    (hmotor : Processor.isMotorCommand (getCmd c.dataPacket.cmd) = true) (h : CarriedOut ack info)
    (now : ℤ) (ticks : ℕ) :
    (p.commandReply c (some (ack.packet p.writeMode now)) .noError).eval
        (RemoteWorld.handle clock heap) ⟨[.ok info], ticks, [], []⟩ =
      (some ((some (info.packet p.writeMode (clock (ticks + 1))), .noError),
        { p with motorStatus := info.status }), ⟨[], ticks + 2, [], []⟩) := by
  have hack : getCmd (ack.packet p.writeMode now).cmd = ackAck :=
    (ack.getCmd_packet _ _).trans h.isAck
  have hcode : (ack.packet p.writeMode now).memory heap 0 = 0 :=
    (ack.memory_status h.isAck (by decide) _ _ _).trans h.code
  have hinfo : getCmd (info.packet p.writeMode (clock (ticks + 1))).cmd = ackInfo :=
    (info.getCmd_packet _ _).trans h.isInfo
  have hstatus : (info.packet p.writeMode (clock (ticks + 1))).memory heap vdStatusOffset =
      info.status := info.memory_status h.isInfo (by decide) _ _ _
  show (if Processor.isMotorCommand (getCmd c.dataPacket.cmd) = true then
    p.motorCommand c (ack.packet p.writeMode now) else _ : ProcessorM _).eval _ _ = _
  rw [if_pos hmotor, Processor.motorCommand, if_pos hack]
  show (if (ack.packet p.writeMode now).memory heap 0 = 0 then p.motorInfo c else _ :
    ProcessorM _).eval _ _ = _
  rw [if_pos hcode]
  show (if getCmd (info.packet p.writeMode (clock (ticks + 1))).cmd = ackInfo then _ else _ :
    ProcessorM _).eval _ (⟨[], ticks + 2, [], []⟩ : RemoteWorld) = _
  have hnoError : Processor.checkReply c.dataPacket (info.packet p.writeMode (clock (ticks + 1))) =
      .noError := checkReply_info hinfo
  rw [if_pos hinfo, ← hstatus, ← hnoError]
  rfl

theorem reportEvents_eval (events : List DBEventCommon) (s : RemoteWorld) :
    (Processor.reportEvents events).eval (RemoteWorld.handle clock heap) s =
      (some (), { s with events := s.events ++ events }) := by
  induction events generalizing s with
  | nil =>
    rw [List.append_nil]
    rfl
  | cons event events ih =>
    have hrest := ih { s with events := s.events ++ [event] }
    rw [List.append_assoc] at hrest
    exact hrest

/-- The reply to a command as the server queues it. -/
theorem setReply_eval (cfg : ProcessorConfig) (p : Processor) (clock : ℕ → ℤ) (heap : ℕ → Byte)
    (hengine : cmd.template ∈ engineTemplates.map Prod.snd) (packet : DataPacket) {reply : DataPacket}
    (hinfo : getCmd reply.cmd = ackInfo) (s : RemoteWorld) :
    ∃ q, (p.setReply cfg (customCommand (.external cmd) packet) (some reply) .noError).eval
        (RemoteWorld.handle clock heap) s =
      (some q, { s with
        ticks := s.ticks + 1
        texts := s.texts ++ [replyText reply.cmd]
        events := s.events ++ replyEvents cfg.filter cmd (clock s.ticks) reply.cmd }) := by
  have hreply : (externalReply cfg.filter cmd p.settings (clock s.ticks) reply).value _ = _ :=
    externalReply_motor hengine p.settings (clock s.ticks) reply (reply.memory heap)
  have htext := motorReply_rawResult cfg.filter cmd p.settings (clock s.ticks) hinfo (reply.memory heap)
  have hevents := motorReply_events cfg.filter cmd p.settings (clock s.ticks) reply (reply.memory heap)
  generalize (motorReply cfg.filter cmd p.settings (clock s.ticks) reply).value (reply.memory heap) =
    told at hreply htext hevents
  refine ⟨{ p with settings := told.values }, ?_⟩
  show (p.applyReply _ ((externalReply cfg.filter cmd p.settings (clock s.ticks) reply).value
    (reply.memory heap))).eval (RemoteWorld.handle clock heap) { s with ticks := s.ticks + 1 } = _
  rw [hreply, Processor.applyReply, Prog.bind_eq, Prog.eval_bind, reportEvents_eval, hevents, ← htext]
  rfl

theorem remoteResult_eq (hengine : cmd.template ∈ engineTemplates.map Prod.snd) {now : ℤ}
    (hpacket : customCommandPacket (cmd.cmdId.setWidth 8) cmd.param1 cmd.param2 now = some packet)
    (h : CarriedOut ack info) :
    remoteResult cfg p (customCommand (.external cmd) packet) ack info clock heap =
      ([replyText (longCmd p.writeMode 0x64)],
        replyEvents cfg.filter cmd (clock 3) (longCmd p.writeMode 0x64)) := by
  have hc : RemoteMotor (customCommand (.external cmd) packet) cmd := ⟨rfl, hengine, now, hpacket⟩
  have hinfo : getCmd (info.packet p.writeMode (clock 2)).cmd = ackInfo :=
    (info.getCmd_packet _ _).trans h.isInfo
  have hlabel : (info.packet p.writeMode (clock 2)).cmd = longCmd p.writeMode 0x64 := by
    have hbyte := congrArg lsb h.isInfo
    rw [lsb_setWidth] at hbyte
    exact congrArg (longCmd p.writeMode) hbyte
  obtain ⟨q, hreply⟩ := setReply_eval cfg { p with motorStatus := info.status } clock heap hengine
    packet hinfo ⟨[], 3, [], []⟩
  rw [hlabel] at hreply
  have hrun : (p.processCommand cfg (customCommand (.external cmd) packet)).eval
      (RemoteWorld.handle clock heap) ⟨[.ok ack, .ok info], 0, [], []⟩ =
      (some q, ⟨[], 4, [replyText (longCmd p.writeMode 0x64)],
        replyEvents cfg.filter cmd (clock 3) (longCmd p.writeMode 0x64)⟩) := by
    show ((p.commandReply _ (some (ack.packet p.writeMode (clock 0))) .noError).bind _).eval _
      (⟨[.ok info], 1, [], []⟩ : RemoteWorld) = _
    rw [Prog.eval_bind, commandReply_eval _ hc.isMotorCommand h]
    exact hreply
  rw [remoteResult, hrun]

theorem replyText_success_iff (label : Word) :
    (∃ rest, replyText label = "8;" ++ rest) ↔ label = ackInfo := by
  constructor
  · rintro ⟨rest, htext⟩
    by_contra hlabel
    rw [replyText, if_neg hlabel] at htext
    have hlist := congrArg String.toList htext
    rw [String.toList_append] at hlist
    have hhead : '7' = '8' := congrArg (fun l => l.headD ' ') hlist
    exact absurd hhead (by decide)
  · rintro rfl
    exact ⟨"Прием без ошибок\n", by decide⟩

/-- The result of a command that the station carries out does not tell of the write mode if and only
if neither mode is anything but 0. -/
theorem modeHidden_iff (cfg : ProcessorConfig) (p : Processor)
    (hengine : cmd.template ∈ engineTemplates.map Prod.snd) {now : ℤ}
    (hpacket : customCommandPacket (cmd.cmdId.setWidth 8) cmd.param1 cmd.param2 now = some packet)
    (h : CarriedOut ack info) (clock : ℕ → ℤ) (heap : ℕ → Byte) (w₁ w₂ : BitVec 32) :
    ModeHidden cfg p (customCommand (.external cmd) packet) ack info clock heap w₁ w₂ ↔
      w₁.setWidth 8 = (0 : Byte) ∧ w₂.setWidth 8 = (0 : Byte) := by
  rw [ModeHidden, remoteResult_eq hengine hpacket h, remoteResult_eq hengine hpacket h,
    ← longCmd_info_eq, ← longCmd_info_eq]
  simp only [List.cons.injEq, and_true, replyText_success_iff, Prod.mk.injEq]
  constructor
  · rintro ⟨⟨htext, -⟩, h₁⟩
    have hsuccess := (replyText_success_iff (longCmd w₁ 0x64)).mpr h₁
    rw [htext] at hsuccess
    exact ⟨h₁, (replyText_success_iff _).mp hsuccess⟩
  · rintro ⟨h₁, h₂⟩
    rw [h₁, h₂]
    exact ⟨⟨rfl, rfl⟩, rfl⟩

end Remote

/-! ### The start of the motor -/

theorem motorAckFrame_carriedOut : CarriedOut motorAckFrame onInfoFrame := ⟨rfl, rfl, rfl⟩

theorem modeHidden_zero : ModeHidden (unfilteredConfig true) knownProcessor
    (customCommand (.external startCommand) (motorOnPacket startCommand.param1)) motorAckFrame
    onInfoFrame (fun _ => 0) (fun _ => 0) 0 0 := by
  have hpacket : customCommandPacket (startCommand.cmdId.setWidth 8) startCommand.param1
      startCommand.param2 0 = some (motorOnPacket startCommand.param1) := rfl
  exact (modeHidden_iff (unfilteredConfig true) knownProcessor (by decide) hpacket
    motorAckFrame_carriedOut (fun _ => 0) (fun _ => 0) 0 0).mpr ⟨by decide, by decide⟩

/-- With mode 1 selected the same replies of the station make another result. -/
theorem modeHidden_false : ¬ModeHidden (unfilteredConfig true) knownProcessor
    (customCommand (.external startCommand) (motorOnPacket startCommand.param1)) motorAckFrame
    onInfoFrame (fun _ => 0) (fun _ => 0) 0 1 := by
  rintro ⟨htold, -⟩
  have hlength := congrArg (fun r => r.2.length) htold
  revert hlength
  decide +kernel

end Ritex
