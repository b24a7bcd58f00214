import Ritex.CommandReplies
import Ritex.StationTraffic

/-! The replies that commands are given. The test of a reply negates the acknowledgement that is
expected and so never fails, whatever packet was overheard instead of the reply. -/
namespace Ritex
open Interaction

def waitsOf (h : History) : List Wait :=
  h.filterMap fun
    | ⟨.wait _, (r : Wait × ℤ)⟩ => some r.1
    | _ => none

/-- The command byte is the primary or the alternate acknowledgement of the request. -/
def Acknowledges (request : DataPacket) (cmd : Word) : Prop :=
  ((getCmd cmd).toNat : ℤ) = getAckForCmd (getCmd request.cmd) true ∨
    ((getCmd cmd).toNat : ℤ) = getAckForCmd (getCmd request.cmd) false

/-- The first reply to a motor command is an acknowledgement with an error code. -/
def TurnsDown (request : DataPacket) (waits : List Wait) (reply : DataPacket) : Prop :=
  Processor.isMotorCommand (getCmd request.cmd) = true ∧ waits.length = 1 ∧
    getCmd reply.cmd = ackAck ∧ reply.data.getD 0 0 ≠ 0

/-- Success is told with a packet that answers the request only, and any other packet is told to be
unexpected. -/
def ReplyMatched (request : DataPacket) (waits : List Wait) (reply : Option DataPacket × ErrorCode) :
    Prop :=
  ∀ packet, reply.1 = some packet →
    (reply.2 = .noError → Acknowledges request packet.cmd ∨ TurnsDown request waits packet) ∧
    (¬(Acknowledges request packet.cmd ∨ TurnsDown request waits packet) →
      reply.2 = .unexpectedPacket)

/-- The last packet read is an acknowledgement of the request, unless it is the first reply to a
motor command. -/
def OnlyAcknowledged (request : DataPacket) : List Wait → Prop
  | [.ok f] => Processor.isMotorCommand (getCmd request.cmd) = true ∨
      Acknowledges request (f.cmd.setWidth 16)
  | [.ok _, .ok f] => Acknowledges request (f.cmd.setWidth 16)
  | _ => True

/-- Should the event hand a reply over, it is matched if and only if only acknowledgements were read. -/
def HandsMatched (request : DataPacket) (before : History) (e : Event Op Res) : Prop :=
  ∀ c packet status, e.1 = .command (.setReply c packet status) →
    (ReplyMatched request (waitsOf before) (packet, status) ↔
      OnlyAcknowledged request (waitsOf before))

def MatchedIff (request : DataPacket) (h : History) : Prop :=
  ∀ before e after, h = before ++ e :: after → HandsMatched request before e

/-! ### The log of the exchange -/

def Op.NoReply (o : Op) : Prop := ∀ c packet status, o ≠ .command (.setReply c packet status)

theorem Op.Ordinary.noReply (o : Op) (ho : o.Ordinary) : o.NoReply := by
  rintro c packet status rfl
  exact ho.1

theorem waitsOf_snoc (h : History) {o : Op} (ho : ∀ timeout, o ≠ .wait timeout) (r : Res o) :
    waitsOf (h ++ [⟨o, r⟩]) = waitsOf h := by
  rw [waitsOf, List.filterMap_append]
  cases o with
  | wait timeout => exact absurd rfl (ho timeout)
  | _ => exact List.append_nil _

theorem waitsOf_wait (h : History) (timeout : ℕ) (w : Wait) (now : ℤ) :
    waitsOf (h ++ [⟨.wait timeout, (w, now)⟩]) = waitsOf h ++ [w] :=
  List.filterMap_append ..

section Exchange

variable {request : DataPacket} {waits : List Wait} {h : History} {α : Type}

theorem matchedIff_nil : MatchedIff request [] := by
  intro before e after heq
  simp at heq

theorem MatchedIff.noReply (hm : MatchedIff request h) {o : Op} (ho : o.NoReply) (r : Res o) :
    MatchedIff request (h ++ [⟨o, r⟩]) :=
  (forall_split_snoc h _).mpr ⟨hm, fun c packet status heq => absurd heq (ho c packet status)⟩

/-- A part of the exchange, all histories of which keep the promise. -/
abbrev Matching (request : DataPacket) (x : ProcessorM α) (Q : α → History → Prop) (h : History) :
    Prop :=
  x.Safe (historyEnv Op Res) (MatchedIff request) Q h

theorem MatchedIff.only (hm : MatchedIff request h) {x : ProcessorM α} (hx : x.Only Op.NoReply) :
    Matching request x (fun _ => MatchedIff request) h :=
  hx.safe_history (fun _ hm => hm) (fun _ ho _ hm r => hm.noReply ho r) hm

/-- The promise is kept so far and these were the waits. -/
structure Exchanging (request : DataPacket) (waits : List Wait) (h : History) : Prop where
  matched : MatchedIff request h
  waits : waitsOf h = waits

/-- An operation of the exchange beside its waits. -/
theorem Exchanging.op (hx : Exchanging request waits h) {o : Op} {k : Res o → ProcessorM α}
    {Q : α → History → Prop} (ho : o.NoReply) (hwait : ∀ timeout, o ≠ .wait timeout)
    (hk : ∀ r h', Exchanging request waits h' → Matching request (k r) Q h') :
    Matching request (.op o k) Q h := by
  refine Prog.safe_history_op fun r => ⟨hx.matched.noReply ho r, ?_⟩
  exact hk r _ ⟨hx.matched.noReply ho r, (waitsOf_snoc h hwait r).trans hx.waits⟩

theorem Exchanging.wait (hx : Exchanging request waits h) (p : Processor) (timeout : ℕ)
    {f : Received → ProcessorM α} {Q : α → History → Prop}
    (hf : ∀ (w : Wait) now h', Exchanging request (waits ++ [w]) h' →
      Matching request (f (w.received p.writeMode now)) Q h') :
    Matching request ((p.waitForKsuActivity timeout).bind f) Q h := by
  refine Prog.safe_history_op fun (w, now) => ?_
  have hm : MatchedIff request (h ++ [⟨.wait timeout, (w, now)⟩]) :=
    hx.matched.noReply (by simp [Op.NoReply]) _
  refine ⟨hm, hf w now _ ⟨hm, ?_⟩⟩
  rw [waitsOf_wait, hx.waits]

/-! ### Matched replies -/

theorem acknowledges_packet (f : Frame) (writeMode : BitVec 32) (now : ℤ) :
    Acknowledges request (f.packet writeMode now).cmd ↔ Acknowledges request (f.cmd.setWidth 16) := by
  have hbyte : getCmd (f.cmd.setWidth 16) = f.cmd.setWidth 16 := by rw [getCmd_eq, lsb_setWidth]
  rw [Acknowledges, Acknowledges, f.getCmd_packet, hbyte]

theorem replyMatched_none (status : ErrorCode) : ReplyMatched request waits (none, status) := by
  intro packet hpacket
  cases hpacket

theorem replyMatched_unexpected (packet : Option DataPacket) :
    ReplyMatched request waits (packet, .unexpectedPacket) :=
  fun _ _ => ⟨fun h => absurd h (by simp), fun _ => rfl⟩

theorem replyMatched_noError_iff (packet : DataPacket) :
    ReplyMatched request waits (some packet, .noError) ↔
      Acknowledges request packet.cmd ∨ TurnsDown request waits packet := by
  constructor
  · intro h
    exact (h packet rfl).1 rfl
  · intro h packet' hpacket
    cases hpacket
    exact ⟨fun _ => h, fun hnot => absurd h hnot⟩

/-- No frame has command 0 or 1. -/
theorem checkReply_frame (f : Frame) (writeMode : BitVec 32) (now : ℤ) :
    Processor.checkReply request (f.packet writeMode now) = .noError := by
  refine Processor.checkReply_noError ?_
  have hrows : ∀ row ∈ cmdParams ++ ackParams, 2 ≤ (getCmd row.cmd).toNat := by decide
  obtain ⟨row, hrow, hcmd, -⟩ := f.exists_row
  have hbyte : 2 ≤ (getCmd (f.packet writeMode now).cmd).toNat := by
    rw [f.getCmd_packet, ← hcmd]
    exact hrows row hrow
  have hle : (getCmd (f.packet writeMode now).cmd).toNat ≤ (f.packet writeMode now).cmd.toNat := by
    rw [getCmd]
    exact (Nat.shiftRight_le _ _).trans (by rw [BitVec.toNat_and]; exact Nat.and_le_left)
  omega

/-- What the exchange hands over is matched if and only if only acknowledgements were read. -/
def Handed (request : DataPacket) (received : Received) (h : History) : Prop :=
  ∃ waits, Exchanging request waits h ∧
    (ReplyMatched request waits received ↔ OnlyAcknowledged request waits)

end Exchange

namespace Processor

variable {h : History}

theorem motorInfo_handed (p : Processor) (c : CustomCommand) {ack : Frame}
    (hx : Exchanging c.dataPacket [.ok ack] h) :
    Matching c.dataPacket (p.motorInfo c) (fun r h' => Handed c.dataPacket r.1 h') h := by
  refine hx.op (by simp [Op.NoReply]) (by simp) fun now h₁ hx₁ => ?_
  refine hx₁.op (by simp [Op.NoReply]) (by simp) fun _ h₂ hx₂ => ?_
  refine hx₂.wait p _ fun w received h₃ hx₃ => ?_
  cases w with
  | error e =>
    cases e <;> exact ⟨_, hx₃, iff_of_true (replyMatched_none _) trivial⟩
  | ok info =>
    have hmatched : ReplyMatched c.dataPacket [.ok ack, .ok info]
        (some (info.packet p.writeMode received), checkReply c.dataPacket (info.packet p.writeMode received))
          ↔ OnlyAcknowledged c.dataPacket [.ok ack, .ok info] := by
      rw [checkReply_frame, replyMatched_noError_iff, acknowledges_packet]
      simp [TurnsDown, OnlyAcknowledged]
    show Matching c.dataPacket
      (if getCmd (info.packet p.writeMode received).cmd = ackInfo then _ else _) _ h₃
    split
    · exact hx₃.op (by simp [Op.NoReply]) (by simp) fun _ h₄ hx₄ => ⟨_, hx₄, hmatched⟩
    · exact ⟨_, hx₃, hmatched⟩

theorem commandReply_handed (p : Processor) (c : CustomCommand) (w : Wait) (now : ℤ)
    (hx : Exchanging c.dataPacket [w] h) :
    Matching c.dataPacket
      (p.commandReply c (w.received p.writeMode now).1 (w.received p.writeMode now).2)
      (fun r h' => Handed c.dataPacket r.1 h') h := by
  cases w with
  | error e => cases e <;> exact ⟨_, hx, iff_of_true (replyMatched_none _) trivial⟩
  | ok reply =>
    show Matching c.dataPacket (if isMotorCommand (getCmd c.dataPacket.cmd) = true then
      p.motorCommand c (reply.packet p.writeMode now) else _) _ h
    split
    next hmotor =>
      unfold motorCommand
      split
      next hack =>
        refine hx.op (by simp [Op.NoReply]) (by simp) fun beyond h₁ hx₁ => ?_
        show Matching c.dataPacket (if (reply.packet p.writeMode now).memory beyond 0 = 0 then _ else _)
          _ h₁
        split
        next hcode => exact p.motorInfo_handed c hx₁
        next hcode =>
          refine ⟨_, hx₁, iff_of_true ?_ (Or.inl hmotor)⟩
          rw [reply.getCmd_packet] at hack
          have hstatus : reply.status ≠ 0 := fun hzero =>
            hcode ((reply.memory_status hack (by decide) p.writeMode now beyond).trans hzero)
          refine (replyMatched_noError_iff _).mpr (Or.inr ⟨hmotor, rfl, ?_, hstatus⟩)
          rw [reply.getCmd_packet, hack]
      next => exact ⟨_, hx, iff_of_true (replyMatched_unexpected _) (Or.inl hmotor)⟩
    next hmotor =>
      refine ⟨_, hx, ?_⟩
      show ReplyMatched _ _ (some (reply.packet p.writeMode now), checkReply _ _) ↔ _
      rw [checkReply_frame, replyMatched_noError_iff, acknowledges_packet]
      simp [TurnsDown, OnlyAcknowledged, hmotor]

theorem setReply_matched (cfg : ProcessorConfig) (p : Processor) (c : CustomCommand)
    {received : Received} (hreplied : Replied received) (hh : Handed c.dataPacket received h) :
    Matching c.dataPacket (p.setReply cfg c received.1 received.2)
      (fun _ => MatchedIff c.dataPacket) h := by
  obtain ⟨waits, hx, hiff⟩ := hh
  unfold setReply
  refine Prog.safe_history_op fun r => ?_
  have hm : MatchedIff c.dataPacket
      (h ++ [⟨.command (.setReply c received.1 received.2), r⟩]) := by
    refine (forall_split_snoc h _).mpr ⟨hx.matched, fun c' packet status heq => ?_⟩
    cases heq
    rw [hx.waits]
    exact hiff
  have hending : ∀ event : CommandEvent, event.Ending → (Op.command event).NoReply := by
    rintro event hending c' packet status heq
    cases heq
    exact hending
  refine ⟨hm, ?_⟩
  dsimp only [Prog.bind_eq, Prog.ret_bind]
  split
  · exact hm.only (setExternalReply_only Op.Ordinary.noReply hending cfg p c _ hreplied)
  · exact hm.only ((setTestReply_only Op.Ordinary.noReply hending c hreplied).bind fun _ => trivial)

theorem processCommand_matched (cfg : ProcessorConfig) (p : Processor) (c : CustomCommand) :
    Matching c.dataPacket (p.processCommand cfg c) (fun _ => MatchedIff c.dataPacket) [] := by
  have hstart : Exchanging c.dataPacket [] [] := ⟨matchedIff_nil, rfl⟩
  refine hstart.op (by simp [Op.NoReply]) (by simp) fun _ h₁ hx₁ => ?_
  refine hx₁.wait p _ fun w now h₂ hx₂ => ?_
  have hreplied := commandReply_ensures p c (replied_wait p.writeMode now w)
  refine ((p.commandReply_handed c w now hx₂).ensures hreplied).bind ?_
  rintro ⟨⟨packet, status⟩, q⟩ h₃ ⟨hreplied, hhanded⟩
  exact q.setReply_matched cfg c hreplied hhanded

end Processor

/-- Whenever `SetReply` is called, it is told what the reply is worth if and only if only
acknowledgements were read. -/
theorem replies_matched_iff (cfg : ProcessorConfig) (p : Processor) (c : CustomCommand)
    {x : ProcessorM Processor} {h : History}
    (hreaches : (historyEnv Op Res).Reaches (p.processCommand cfg c, []) (x, h))
    {before after : History} {c' : CustomCommand} {packet : Option DataPacket} {status : ErrorCode}
    {r : Unit} (hreply : h = before ++ ⟨.command (.setReply c' packet status), r⟩ :: after) :
    ReplyMatched c.dataPacket (waitsOf before) (packet, status) ↔
      OnlyAcknowledged c.dataPacket (waitsOf before) := by
  have hmatched : MatchedIff c.dataPacket h :=
    (p.processCommand_matched cfg c).reaches matchedIff_nil
      (fun _ _ _ hd => (historyEnv_drift hd).elim) hreaches
  exact hmatched before _ after hreply c' packet status rfl

/-! ### A packet that is overheard -/

def replyScript (f : Frame) : List (Event Op Res) :=
  [⟨.write .processCommand testCommand.dataPacket, ()⟩,
   ⟨.wait 1500, ((.ok f : Wait), (0 : ℤ))⟩,
   ⟨.command (.setReply testCommand (some (f.packet 0 0)) .noError), ()⟩]

/-- Information answers the test of a device. -/
theorem replies_matched_iff_info :
    ReplyMatched testCommand.dataPacket [.ok infoFrame] (some (infoFrame.packet 0 0), .noError) ↔
      OnlyAcknowledged testCommand.dataPacket [.ok infoFrame] := by
  obtain ⟨x, hreaches⟩ := Prog.exists_reaches_of_answers (replyScript infoFrame) (h := [])
    (p := knownProcessor.processCommand (unfilteredConfig true) testCommand) (by decide +kernel)
  have hreply : [] ++ replyScript infoFrame = (replyScript infoFrame).take 2 ++
      ⟨.command (.setReply testCommand (some (infoFrame.packet 0 0)) .noError), ()⟩ :: [] := rfl
  exact replies_matched_iff (unfilteredConfig true) knownProcessor testCommand hreaches hreply

/-- Passwords that another device asked for are taken for an answer to the test of a device. -/
theorem replies_matched_false : ¬∀ (cfg : ProcessorConfig) (p : Processor) (c : CustomCommand)
    (x : ProcessorM Processor) (h before after : History) (c' : CustomCommand)
    (packet : Option DataPacket) (status : ErrorCode) (r : Unit),
    (historyEnv Op Res).Reaches (p.processCommand cfg c, []) (x, h) →
    h = before ++ ⟨.command (.setReply c' packet status), r⟩ :: after →
    ReplyMatched c.dataPacket (waitsOf before) (packet, status) := by
  intro hall
  obtain ⟨x, hreaches⟩ := Prog.exists_reaches_of_answers (replyScript passwordsFrame) (h := [])
    (p := knownProcessor.processCommand (unfilteredConfig true) testCommand) (by decide +kernel)
  have hmatched := hall (unfilteredConfig true) knownProcessor testCommand x _
    ((replyScript passwordsFrame).take 2) [] testCommand (some (passwordsFrame.packet 0 0)) .noError ()
    hreaches rfl
  rcases (hmatched _ rfl).1 rfl with hack | hdown
  · rw [Acknowledges] at hack
    revert hack
    decide
  · exact absurd hdown.1 (by decide)

end Ritex
