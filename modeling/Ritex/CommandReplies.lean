import Ritex.ProcessorEffects

/-! What `ProcessCommand` makes of the replies to a command: it always returns, and it reports
success only with a packet. -/
namespace Ritex
open Interaction

namespace Processor

theorem time_finishes : time.Finishes := fun _ => trivial

theorem write_finishes (writer : Writer) (packet : DataPacket) :
    (write writer packet).Finishes := fun _ => trivial

theorem readData_finishes {α : Type} (packet : DataPacket) (x : PayloadReader α) :
    (readData packet x).Finishes := fun _ => trivial

theorem reportEvents_finishes (events : List DBEventCommon) : (reportEvents events).Finishes := by
  induction events with
  | nil => trivial
  | cons event events ih => exact fun _ => ih

theorem notifyListeners_finishes (c : CustomCommand) (rawResult : String) (listeners : List ℕ) :
    (notifyListeners c rawResult listeners).Finishes := by
  induction listeners with
  | nil => trivial
  | cons listener listeners ih => exact fun _ => ih

theorem notifyResultReady_finishes (c : CustomCommand) (rawResult : String) :
    (notifyResultReady c rawResult).Finishes :=
  (notifyListeners_finishes c rawResult _).then fun _ _ => trivial

theorem waitForKsuActivity_finishes (p : Processor) (timeout : ℕ) :
    (p.waitForKsuActivity timeout).Finishes := fun _ => trivial

/-! ### `SetReply` -/

theorem setExternalReply_finishes (cfg : ProcessorConfig) (p : Processor) (c : CustomCommand)
    (cmd : CmdExternal) {packet : Option DataPacket} {status : ErrorCode}
    (h : Replied (packet, status)) : (p.setExternalReply cfg c cmd packet status).Finishes := by
  unfold setExternalReply
  refine time_finishes.then fun now => ?_
  split
  next hstatus =>
    obtain ⟨q, -, hq⟩ := deref_eq (h hstatus)
    rw [hq]
    intro beyond
    -- No assertion fails in the reply to a command that is made from a template.
    obtain ⟨reply, hreply⟩ := Option.isSome_iff_exists.mp
      (externalReply_isSome cfg.filter cmd p.settings now q (q.memory beyond))
    show (p.applyReply c (PayloadReader.value _ _)).Finishes
    rw [hreply]
    exact (reportEvents_finishes _).then fun _ => (notifyResultReady_finishes c _).then fun _ => trivial
  next => exact (notifyResultReady_finishes c _).then fun _ => trivial

theorem setTestReply_finishes (c : CustomCommand) {packet : Option DataPacket} {status : ErrorCode}
    (h : Replied (packet, status)) : (setTestReply c packet status).Finishes := by
  unfold setTestReply
  split
  next hstatus =>
    obtain ⟨q, -, hq⟩ := deref_eq (h hstatus)
    rw [hq]
    exact (readData_finishes q _).then fun _ => notifyResultReady_finishes c _
  next => exact notifyResultReady_finishes c _

theorem setReply_finishes (cfg : ProcessorConfig) (p : Processor) (c : CustomCommand)
    {packet : Option DataPacket} {status : ErrorCode} (h : Replied (packet, status)) :
    (p.setReply cfg c packet status).Finishes := by
  unfold setReply
  intro _
  split
  next => exact setExternalReply_finishes cfg p c _ h
  next => exact (setTestReply_finishes c h).then fun _ => trivial

/-! ### The exchange -/

theorem requestCurrentData_finishes : requestCurrentData.Finishes :=
  time_finishes.then fun _ => write_finishes _ _

theorem motorInfo_finishes (p : Processor) (c : CustomCommand) : (p.motorInfo c).Finishes := by
  unfold motorInfo
  refine requestCurrentData_finishes.then fun _ => ?_
  refine (waitForKsuActivity_finishes p _).bind (waitForKsuActivity_ensures p _) ?_
  rintro ⟨packet, error⟩ h
  dsimp only
  split
  next => trivial
  next herror =>
    obtain ⟨q, -, hq⟩ := deref_eq (h (not_not.mp herror))
    rw [hq]
    show (if getCmd q.cmd = ackInfo then _ else _ : ProcessorM _).Finishes
    split
    · exact (readData_finishes q _).then fun _ => trivial
    · trivial

theorem commandReply_finishes (p : Processor) (c : CustomCommand) {packet : Option DataPacket}
    {error : ErrorCode} (h : Replied (packet, error)) : (p.commandReply c packet error).Finishes := by
  unfold commandReply
  split
  next herror =>
    obtain ⟨q, -, hq⟩ := deref_eq (h herror)
    rw [hq]
    show (if isMotorCommand _ = true then p.motorCommand c q else _ : ProcessorM _).Finishes
    split
    · unfold motorCommand
      split
      · refine (readData_finishes q _).then fun code => ?_
        split
        · exact motorInfo_finishes p c
        · trivial
      · trivial
    · trivial
  next => trivial

/-- Whatever the station answers, `ProcessCommand` returns: it follows no null pointer and fails no
assertion. -/
theorem processCommand_finishes (cfg : ProcessorConfig) (p : Processor) (c : CustomCommand) :
    (p.processCommand cfg c).Finishes := by
  unfold processCommand
  refine (write_finishes .processCommand c.dataPacket).then fun _ => ?_
  refine (waitForKsuActivity_finishes p _).bind (waitForKsuActivity_ensures p _) ?_
  rintro ⟨packet, error⟩ h
  refine (commandReply_finishes p c h).bind (commandReply_ensures p c h) ?_
  rintro ⟨⟨packet, error⟩, p⟩ h
  exact setReply_finishes cfg p c h

end Processor

end Ritex
