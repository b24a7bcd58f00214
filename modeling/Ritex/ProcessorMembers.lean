import Ritex.ProcessorEffects
import Ritex.LoopRounds

/-! What the functions of the processor make of its members, whatever they are answered: the write
mode, the automatic mode and the next state. -/
namespace Ritex
open Interaction

namespace Processor

/-! ### Commands and settings -/

/-- The members that only a change of the mode or of the state sets. -/
structure SameModes (p q : Processor) : Prop where
  writeMode : q.writeMode = p.writeMode
  isAutoMode : q.isAutoMode = p.isAutoMode
  nextState : q.nextState = p.nextState

theorem SameModes.refl (p : Processor) : p.SameModes p := ⟨rfl, rfl, rfl⟩

theorem SameModes.trans {p q r : Processor} (h : p.SameModes q) (h' : q.SameModes r) :
    p.SameModes r :=
  ⟨h'.writeMode.trans h.writeMode, h'.isAutoMode.trans h.isAutoMode,
    h'.nextState.trans h.nextState⟩

theorem ensures_then {α β : Type} {Q : β → Prop} (x : ProcessorM α) {f : α → ProcessorM β}
    (hf : ∀ a, (f a).Ensures Q) : (x.bind f).Ensures Q :=
  x.ensures_trivial.bind fun a _ => hf a

theorem setExternalReply_sameModes (cfg : ProcessorConfig) (p : Processor) (c : CustomCommand)
    (cmd : CmdExternal) (packet : Option DataPacket) (status : ErrorCode) :
    (p.setExternalReply cfg c cmd packet status).Ensures p.SameModes := by
  unfold setExternalReply
  refine ensures_then _ fun now => ?_
  split
  · refine ensures_then _ fun packet => ensures_then _ fun reply => ?_
    cases reply with
    | none => exact fun _ => trivial
    | some reply => exact ensures_then _ fun _ => ensures_then _ fun _ => ⟨rfl, rfl, rfl⟩
  · exact ensures_then _ fun _ => .refl p

theorem setReply_sameModes (cfg : ProcessorConfig) (p : Processor) (c : CustomCommand)
    (packet : Option DataPacket) (status : ErrorCode) :
    (p.setReply cfg c packet status).Ensures p.SameModes := by
  unfold setReply
  refine ensures_then _ fun _ => ?_
  split
  · exact setExternalReply_sameModes cfg p c _ packet status
  · exact ensures_then _ fun _ => .refl p

theorem motorInfo_sameModes (p : Processor) (c : CustomCommand) :
    (p.motorInfo c).Ensures fun r => p.SameModes r.2 := by
  unfold motorInfo
  refine ensures_then _ fun _ => ensures_then _ fun received => ?_
  dsimp only
  split
  · exact .refl p
  · refine ensures_then _ fun info => ?_
    split
    · exact ensures_then _ fun _ => ⟨rfl, rfl, rfl⟩
    · exact .refl p

theorem commandReply_sameModes (p : Processor) (c : CustomCommand) (packet : Option DataPacket)
    (error : ErrorCode) : (p.commandReply c packet error).Ensures fun r => p.SameModes r.2 := by
  unfold commandReply
  split
  · refine ensures_then _ fun reply => ?_
    split
    · unfold motorCommand
      split
      · refine ensures_then _ fun code => ?_
        split
        · exact motorInfo_sameModes p c
        · exact .refl p
      · exact .refl p
    · exact .refl p
  · exact .refl p

theorem processCommand_sameModes (cfg : ProcessorConfig) (p : Processor) (c : CustomCommand) :
    (p.processCommand cfg c).Ensures p.SameModes := by
  unfold processCommand
  refine ensures_then _ fun _ => ensures_then _ fun received => ?_
  refine (commandReply_sameModes p c _ _).bind fun r hr => ?_
  exact (setReply_sameModes cfg _ c _ _).mono fun q hq => hr.trans hq

theorem drainRound_sameModes (cfg : ProcessorConfig) (p : Processor) :
    (p.drainRound cfg).Ensures (Sum.elim p.SameModes p.SameModes) := by
  unfold drainRound
  refine ensures_then _ fun _ => ensures_then _ fun pending => ensures_then _ fun _ => ?_
  cases pending with
  | some c =>
    refine ensures_then _ fun _ => ?_
    exact (processCommand_sameModes cfg p c).bind fun _ hq => ensures_then _ fun _ => hq
  | none => exact .refl p

theorem drain_sameModes (cfg : ProcessorConfig) (n : ℕ) (p : Processor) :
    (Prog.loop (fun p : Processor => p.drainRound cfg) n p).Ensures p.SameModes := by
  refine Prog.Ensures.loop (J := p.SameModes) (fun q hq => ?_) n (.refl p)
  refine (drainRound_sameModes cfg q).mono fun x hx => ?_
  cases x with
  | inl r => exact hq.trans hx
  | inr r => exact hq.trans hx

theorem checkSettings_sameModes (cfg : ProcessorConfig) (p : Processor) (packet : DataPacket) :
    (p.checkSettings cfg packet).Ensures p.SameModes := by
  unfold checkSettings
  split
  · exact ensures_then _ fun _ => ensures_then _ fun _ => ensures_then _ fun _ => ⟨rfl, rfl, rfl⟩
  · exact fun _ => trivial

/-! ### Traffic -/

abbrev SameWriteMode (p q : Processor) : Prop := q.writeMode = p.writeMode

theorem checkPacket_sameModes (cfg : ProcessorConfig) (p : Processor) (packet : DataPacket) :
    (p.checkPacket cfg packet).Ensures p.SameModes := by
  unfold checkPacket
  refine ensures_then _ fun fault => ensures_then _ fun _ => ensures_then _ fun _ => ?_
  exact ensures_then _ fun _ => ensures_then _ fun _ => ensures_then _ fun _ => ⟨rfl, rfl, rfl⟩

theorem captureData_sameModes (cfg : ProcessorConfig) (p : Processor) (packet : DataPacket) :
    (p.captureData cfg packet).Ensures p.SameModes := by
  unfold captureData
  split
  · split
    · exact ensures_then _ fun _ => ⟨rfl, rfl, rfl⟩
    · exact ⟨rfl, rfl, rfl⟩
  · exact .refl p

theorem reportPacket_sameModes (cfg : ProcessorConfig) (p : Processor) (packet : DataPacket) :
    ((p.checkPacket cfg packet).bind fun q => q.captureData cfg packet).Ensures p.SameModes :=
  (checkPacket_sameModes cfg p packet).bind fun q hq =>
    (captureData_sameModes cfg q packet).mono fun _ hq' => hq.trans hq'

theorem captureOrReport_sameWriteMode (cfg : ProcessorConfig) (p : Processor)
    (packet : DataPacket) {q : Processor} (hq : p.SameWriteMode q) :
    (q.captureOrReport cfg packet).Ensures p.SameWriteMode := by
  unfold captureOrReport
  refine ensures_then _ fun need => ?_
  split
  · exact hq
  · exact (reportPacket_sameModes cfg q packet).mono fun _ hq' => hq'.writeMode.trans hq

theorem trafficInfo_sameWriteMode (cfg : ProcessorConfig) (p : Processor) (packet : DataPacket) :
    (p.trafficInfo cfg packet).Ensures p.SameWriteMode := by
  unfold trafficInfo
  refine ensures_then _ fun status => ?_
  split
  · refine ensures_then _ fun _ => captureOrReport_sameWriteMode cfg p packet ?_
    rfl
  · refine captureOrReport_sameWriteMode cfg p packet ?_
    rfl

/-- A command of the operator changes nothing but the status of the motor. -/
theorem processMotorCmd_ensures (cfg : ProcessorConfig) (p : Processor) {Q : Processor → Prop}
    (hQ : ∀ status, Q { p with motorStatus := status }) : (p.processMotorCmd cfg).Ensures Q := by
  have hp : Q p := hQ p.motorStatus
  have hstatus : (p.motorStatusReply cfg).Ensures Q := by
    unfold motorStatusReply
    refine ensures_then _ fun received => ?_
    dsimp only
    split
    · refine ensures_then _ fun packet => ?_
      split
      · exact ensures_then _ fun status => ensures_then _ fun _ => hQ status
      · exact hp
    · exact hp
  unfold processMotorCmd
  refine ensures_then _ fun received => ?_
  dsimp only
  split
  · refine ensures_then _ fun packet => ?_
    split
    · refine ensures_then _ fun code => ?_
      split
      · refine ensures_then _ fun received => ?_
        split
        · refine ensures_then _ fun packet => ?_
          split
          · exact hstatus
          · exact hp
        · exact hp
      · exact hp
    · exact hp
  · exact hp

theorem trafficMotor_ensures (cfg : ProcessorConfig) (p : Processor) (packet : DataPacket)
    {Q : Processor → Prop} (hQ : ∀ status, Q { p with motorStatus := status }) :
    (p.trafficMotor cfg packet).Ensures Q := by
  unfold trafficMotor
  split
  · exact ensures_then _ fun _ => processMotorCmd_ensures cfg p hQ
  · exact processMotorCmd_ensures cfg p hQ

theorem processTraffic_sameWriteMode (cfg : ProcessorConfig) (p : Processor) :
    (p.processTraffic cfg).Ensures p.SameWriteMode := by
  unfold processTraffic
  refine ensures_then _ fun received => ?_
  dsimp only
  split
  · refine ensures_then _ fun packet => ?_
    split
    · exact trafficInfo_sameWriteMode cfg p packet
    · split
      · exact (checkSettings_sameModes cfg p packet).mono fun _ hq => hq.writeMode
      · split
        · exact trafficMotor_ensures cfg p packet fun _ => rfl
        · exact rfl
  · exact rfl

end Processor

end Ritex
