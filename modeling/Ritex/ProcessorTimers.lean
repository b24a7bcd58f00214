import Ritex.ProcessorMembers

/-! Which functions of the processor leave the time of the next cycle and the count of the information
packets alone, whatever they are answered. -/
namespace Ritex
open Interaction

namespace Processor

structure SameTimers (p q : Processor) : Prop where
  nextModeLoopCycle : q.nextModeLoopCycle = p.nextModeLoopCycle
  dataCapturePeriod : q.dataCapturePeriod = p.dataCapturePeriod

theorem SameTimers.refl (p : Processor) : p.SameTimers p := ⟨rfl, rfl⟩

theorem SameTimers.trans {p q r : Processor} (h : p.SameTimers q) (h' : q.SameTimers r) :
    p.SameTimers r :=
  ⟨h'.nextModeLoopCycle.trans h.nextModeLoopCycle, h'.dataCapturePeriod.trans h.dataCapturePeriod⟩

/-! ### Commands and settings -/

theorem setReply_sameTimers (cfg : ProcessorConfig) (p : Processor) (c : CustomCommand)
    (packet : Option DataPacket) (status : ErrorCode) :
    (p.setReply cfg c packet status).Ensures p.SameTimers := by
  unfold setReply
  refine ensures_then _ fun _ => ?_
  split
  · unfold setExternalReply
    refine ensures_then _ fun now => ?_
    split
    · refine ensures_then _ fun packet => ensures_then _ fun reply => ?_
      cases reply with
      | none => exact fun _ => trivial
      | some reply => exact ensures_then _ fun _ => ensures_then _ fun _ => ⟨rfl, rfl⟩
    · exact ensures_then _ fun _ => .refl p
  · exact ensures_then _ fun _ => .refl p

theorem motorInfo_sameTimers (p : Processor) (c : CustomCommand) :
    (p.motorInfo c).Ensures fun r => p.SameTimers r.2 := by
  unfold motorInfo
  refine ensures_then _ fun _ => ensures_then _ fun received => ?_
  dsimp only
  split
  · exact .refl p
  · refine ensures_then _ fun info => ?_
    split
    · exact ensures_then _ fun _ => ⟨rfl, rfl⟩
    · exact .refl p

theorem commandReply_sameTimers (p : Processor) (c : CustomCommand) (packet : Option DataPacket)
    (error : ErrorCode) : (p.commandReply c packet error).Ensures fun r => p.SameTimers r.2 := by
  unfold commandReply
  split
  · refine ensures_then _ fun reply => ?_
    split
    · unfold motorCommand
      split
      · refine ensures_then _ fun code => ?_
        split
        · exact motorInfo_sameTimers p c
        · exact .refl p
      · exact .refl p
    · exact .refl p
  · exact .refl p

theorem processCommand_sameTimers (cfg : ProcessorConfig) (p : Processor) (c : CustomCommand) :
    (p.processCommand cfg c).Ensures p.SameTimers := by
  unfold processCommand
  refine ensures_then _ fun _ => ensures_then _ fun received => ?_
  refine (commandReply_sameTimers p c _ _).bind fun r hr => ?_
  exact (setReply_sameTimers cfg _ c _ _).mono fun q hq => hr.trans hq

theorem drain_sameTimers (cfg : ProcessorConfig) (n : ℕ) (p : Processor) :
    (Prog.loop (fun p : Processor => p.drainRound cfg) n p).Ensures p.SameTimers := by
  refine Prog.Ensures.loop (J := p.SameTimers) (fun q hq => ?_) n (.refl p)
  unfold drainRound
  refine ensures_then _ fun _ => ensures_then _ fun pending => ensures_then _ fun _ => ?_
  cases pending with
  | some c =>
    refine ensures_then _ fun _ => ?_
    exact (processCommand_sameTimers cfg q c).bind fun _ hr => ensures_then _ fun _ => hq.trans hr
  | none => exact hq

theorem checkSettings_sameTimers (cfg : ProcessorConfig) (p : Processor) (packet : DataPacket) :
    (p.checkSettings cfg packet).Ensures p.SameTimers := by
  unfold checkSettings
  split
  · exact ensures_then _ fun _ => ensures_then _ fun _ => ensures_then _ fun _ => ⟨rfl, rfl⟩
  · exact fun _ => trivial

/-! ### Traffic -/

/-- The time of the next cycle. -/
abbrev SameCycle (p q : Processor) : Prop := q.nextModeLoopCycle = p.nextModeLoopCycle

/-- The count of the information packets. -/
abbrev SameCount (p q : Processor) : Prop := q.dataCapturePeriod = p.dataCapturePeriod

theorem captured_sameCount (cfg : ProcessorConfig) (fuel : ℕ) (p : Processor)
    (settings : DataPacket) : (p.captured cfg fuel settings).Ensures p.SameCount := by
  unfold captured
  refine ensures_then _ fun writeMode => ?_
  refine (checkSettings_sameTimers cfg _ settings).bind fun q hq => ?_
  refine (drain_sameTimers cfg fuel q).bind fun r hr => ensures_then _ fun now => ?_
  have hcount : p.SameCount r := hr.dataCapturePeriod.trans hq.dataCapturePeriod
  split
  · exact ensures_then _ fun _ => ensures_then _ fun _ => hcount
  · exact hcount

theorem processCapture_sameCount (cfg : ProcessorConfig) (fuel : ℕ) (p : Processor) :
    (p.processCapture cfg fuel).Ensures p.SameCount := by
  unfold processCapture
  refine ensures_then _ fun result => ?_
  split
  · refine ensures_then _ fun passwords => ?_
    cases passwords with
    | none => rfl
    | some passwords =>
      refine ensures_then _ fun r => ?_
      dsimp only
      split
      · cases r.2 with
        | none => rfl
        | some settings => exact captured_sameCount cfg fuel p settings
      · rfl
  · rfl

end Processor

end Ritex
