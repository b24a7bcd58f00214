import Ritex.CommandQueue

/-! In every run of the processor the commands are handed over in the order in which they were
queued, and every call of `ProcessCommand` replies once. -/
namespace Ritex
open Interaction

namespace Processor

/-! ### One call -/

def Notified (c : CustomCommand) (packet : Option DataPacket) (status : ErrorCode)
    (s : CommandWorld) : Prop :=
  ∃ rawResult, Within c ([.handedOver c, .setReply c packet status] ++ notification c rawResult) s

theorem reply_handles (cfg : ProcessorConfig) (p : Processor) (c : CustomCommand)
    {packet : Option DataPacket} {status : ErrorCode} (hr : Replied (packet, status))
    {s : CommandWorld} (h : Within c [.handedOver c] s) :
    Handles (p.setReply cfg c packet status) (fun _ => Notified c packet status) s := by
  have hcall : ([.handedOver c] ++ [.setReply c packet status] : List CommandEvent) <+:
      Call.events ⟨c, packet, status, "", hr⟩ := ⟨_, rfl⟩
  have hnotify : ∀ rawResult s', Within c [.handedOver c, .setReply c packet status] s' →
      Handles (notifyResultReady c rawResult) (fun _ => Notified c packet status) s' :=
    fun rawResult s' h' => (notifyResultReady_handles ⟨c, packet, status, rawResult, hr⟩ h').mono
      fun _ _ h => ⟨rawResult, h⟩
  have honly : ∀ {α : Type} {x : ProcessorM α}, x.Only KeepsCommands → ∀ s',
      Within c [.handedOver c, .setReply c packet status] s' →
      Handles x (fun _ s' => Within c [.handedOver c, .setReply c packet status] s') s' :=
    fun {α x} hx s' h' =>
      (h'.only ⟨c, packet, status, "", hr⟩ hcall hx x.ensures_trivial).mono fun _ _ h => h.2
  unfold setReply
  refine (h.command ⟨c, packet, status, "", hr⟩ hcall).bind fun _ s₁ h₁ => ?_
  split
  next cmd =>
    unfold setExternalReply
    refine (honly (time_only keepsCommands_ordinary) s₁ h₁).bind fun now s₂ h₂ => ?_
    split
    next hstatus =>
      obtain ⟨q, -, hq⟩ := deref_eq (hr hstatus)
      rw [hq]
      refine (honly (readData_only keepsCommands_ordinary q _) s₂ h₂).bind fun reply s₃ h₃ => ?_
      cases reply with
      | none => exact h₃.crash ⟨c, packet, status, "", hr⟩ hcall
      | some reply =>
        refine (honly (reportEvents_only keepsCommands_ordinary _) s₃ h₃).bind fun _ s₄ h₄ => ?_
        exact (hnotify _ s₄ h₄).bind fun _ _ h => h
    next => exact (hnotify _ s₂ h₂).bind fun _ _ h => h
  next =>
    unfold setTestReply
    split
    next hstatus =>
      obtain ⟨q, -, hq⟩ := deref_eq (hr hstatus)
      rw [hq]
      refine Prog.Safe.bind (Q := fun _ => Notified c packet status) ?_ fun _ _ h => h
      exact (honly (readData_only keepsCommands_ordinary q _) s₁ h₁).bind fun _ s₂ h₂ => hnotify _ s₂ h₂
    next => exact (hnotify _ s₁ h₁).bind fun _ _ h => h

/-- A call replies once and notifies once before it returns. -/
theorem processCommand_handles (cfg : ProcessorConfig) (p : Processor) (c : CustomCommand)
    {s : CommandWorld} (h : Within c [.handedOver c] s) :
    Handles (p.processCommand cfg c) (fun _ s' => ∃ call : Call, call.command = c ∧
      Within c call.untilReturn s') s := by
  have hfirst : [.handedOver c] <+:
      Call.events ⟨c, none, .timeout, "", fun h => by cases h⟩ := ⟨_, rfl⟩
  have honly : ∀ {α : Type} {x : ProcessorM α}, x.Only KeepsCommands → ∀ {Q : α → Prop},
      x.Ensures Q → ∀ s', Within c [.handedOver c] s' →
      Handles x (fun a s' => Q a ∧ Within c [.handedOver c] s') s' :=
    fun {α x} hx {Q} hq s' h' => h'.only ⟨c, none, .timeout, "", fun h => by cases h⟩ hfirst hx hq
  have hwrite : ∀ writer packet, KeepsCommands (.write writer packet) :=
    fun _ _ => keepsCommands_of (by simp) (by simp) (by simp)
  unfold processCommand
  refine (honly (x := write .processCommand c.dataPacket) ⟨hwrite _ _, fun _ => trivial⟩
    (Prog.ensures_trivial _) s h).bind fun _ s₁ h₁ => ?_
  refine (honly (waitForKsuActivity_only keepsCommands_ordinary p _)
    (waitForKsuActivity_ensures p _) s₁ h₁.2).bind ?_
  rintro ⟨packet, error⟩ s₂ ⟨hr₂, h₂⟩
  refine (honly (commandReply_only keepsCommands_ordinary (fun _ => hwrite _ _) p c hr₂)
    (commandReply_ensures p c hr₂) s₂ h₂).bind ?_
  rintro ⟨⟨packet, error⟩, p⟩ s₃ ⟨hr₃, h₃⟩
  refine (reply_handles cfg p c hr₃ h₃).mono ?_
  rintro _ s₄ ⟨rawResult, h₄⟩
  exact ⟨⟨c, packet, error, rawResult, hr₃⟩, rfl, h₄⟩

/-! ### The thread -/

theorem perform_handles {o : Op} (ho : KeepsCommands o) {s : CommandWorld} (h : Between s) :
    Handles (Prog.perform o) (fun _ => Between) s :=
  Between.only (x := Prog.perform o) ⟨ho, fun _ => trivial⟩ h

def Taken (pending : Option CustomCommand) (s : CommandWorld) : Prop :=
  match pending with
  | some c => Within c [] s
  | none => Between s

theorem popFront_handles {s : CommandWorld} (h : Between s) :
    Handles (Prog.perform Op.popFront) Taken s := by
  intro s₁ hd r s₂ ha
  obtain ⟨calls, hlog, hpushed⟩ : Between s₁ :=
    Prog.drift_invariant (fun _ _ h hp => h.push hp) hd h
  obtain ⟨rfl, rfl⟩ := CommandWorld.takeFront_eq_some ha
  cases hqueue : s₁.queue with
  | nil =>
    rw [hqueue] at hpushed
    have hbetween : Between { s₁ with queue := ([] : List CustomCommand).tail } :=
      ⟨calls, hlog, hpushed⟩
    exact ⟨hbetween.clearing.inv, hbetween⟩
  | cons c rest =>
    rw [hqueue] at hpushed
    have hwithin : Within c [] { s₁ with queue := (c :: rest).tail } :=
      ⟨calls, by rw [hlog, List.append_nil], hpushed⟩
    obtain ⟨call, rfl⟩ := exists_call c
    exact ⟨hwithin.inv (List.nil_prefix), hwithin⟩

theorem drainRound_handles (cfg : ProcessorConfig) (p : Processor) {s : CommandWorld}
    (h : Between s) : Handles (p.drainRound cfg) (fun _ => Between) s := by
  unfold drainRound
  refine (perform_handles (keepsCommands_of (by simp) (by simp) (by simp)) h).bind fun _ s₁ h₁ => ?_
  refine (popFront_handles h₁).bind fun pending s₂ h₂ => ?_
  cases pending with
  | none =>
    refine (perform_handles (keepsCommands_of (by simp) (by simp) (by simp)) h₂).bind fun _ s₃ h₃ => ?_
    exact h₃
  | some c =>
    have hunlock : Handles (Prog.perform Op.unlockCmd) (fun _ => Within c []) s₂ := by
      obtain ⟨call, rfl⟩ := exists_call c
      exact (Within.only call h₂ List.nil_prefix (x := Prog.perform Op.unlockCmd)
        ⟨(keepsCommands_of (by simp) (by simp) (by simp)), fun _ => trivial⟩ (Prog.ensures_trivial _)).mono fun _ _ h => h.2
    refine hunlock.bind fun _ s₃ h₃ => ?_
    refine Prog.Safe.bind (Within.command ⟨c, none, .timeout, "", fun h => by cases h⟩ h₃ ⟨_, rfl⟩)
      fun _ s₄ h₄ => ?_
    refine (processCommand_handles cfg p c h₄).bind ?_
    rintro p s₅ ⟨call, rfl, h₅⟩
    refine (h₅.command call ⟨[], ?_⟩).bind fun _ s₆ h₆ => Within.done call ?_
    · rw [List.append_nil, call.events_eq]
    · rwa [call.events_eq]

theorem keepsCommands_write (writer : Writer) (packet : DataPacket) :
    KeepsCommands (.write writer packet) :=
  keepsCommands_of (by simp) (by simp) (by simp)

theorem captured_handles (cfg : ProcessorConfig) (fuel : ℕ) (p : Processor)
    {settings : DataPacket} (hsettings : settings.cmd = ackAllSettings) {s : CommandWorld}
    (h : Between s) : Handles (p.captured cfg fuel settings) (fun _ => Between) s := by
  unfold captured
  refine (Between.only (readData_only keepsCommands_ordinary settings _) h).bind
    fun writeMode s₁ h₁ => ?_
  refine (Between.only (checkSettings_only keepsCommands_ordinary cfg _ hsettings) h₁).bind
    fun p s₂ h₂ => ?_
  refine (Prog.Safe.loop (J := fun _ => Between) (Q := fun _ => Between) (fun p s h =>
    (drainRound_handles cfg p h).mono fun x _ h => ?_) fuel h₂).bind fun p s₃ h₃ => ?_
  · cases x <;> exact h
  refine (Between.only (time_only keepsCommands_ordinary) h₃).bind fun now s₄ h₄ => ?_
  split
  · refine (Between.only (modeCycle_only keepsCommands_ordinary
      (keepsCommands_local _ trivial) (fun _ _ => keepsCommands_write _ _)
      (fun _ => keepsCommands_write _ _) cfg p _) h₄).bind fun _ s₅ h₅ => ?_
    exact (Between.only (time_only keepsCommands_ordinary) h₅).bind fun _ _ h => h
  · exact h₄

theorem processCapture_handles (cfg : ProcessorConfig) (fuel : ℕ) (p : Processor)
    {s : CommandWorld} (h : Between s) :
    Handles (p.processCapture cfg fuel) (fun _ => Between) s := by
  unfold processCapture
  refine (Between.only (captureDevice_only keepsCommands_ordinary (fun _ => keepsCommands_write _ _) p) h).bind
    fun result s₁ h₁ => ?_
  split
  · refine (Between.only (getPasswords_only keepsCommands_ordinary (fun _ => keepsCommands_write _ _) p) h₁).bind
      fun passwords s₂ h₂ => ?_
    cases passwords with
    | none => exact h₂
    | some passwords =>
      refine (Between.only_ensures (setPassword_only keepsCommands_ordinary p _
        fun _ => keepsCommands_write _ _) (setPassword_ensures p _) h₂).bind fun r s₃ h₃ => ?_
      obtain ⟨result, settings⟩ := r
      obtain ⟨hsettings, h₃⟩ := h₃
      dsimp only
      split
      · cases settings with
        | none => exact h₃
        | some settings => exact captured_handles cfg fuel p (hsettings _ rfl) h₃
      · exact h₃
  · exact h₁

theorem processState_handles (cfg : ProcessorConfig) (fuel : ℕ) (p : Processor)
    {s : CommandWorld} (h : Between s) :
    Handles (p.processState cfg fuel) (fun _ => Between) s := by
  unfold processState
  split
  · refine Between.only (processTraffic_only keepsCommands_ordinary ?_ cfg p) h
    exact keepsCommands_of (by simp) (by simp) (by simp)
  · exact processCapture_handles cfg fuel p h

theorem runRound_handles (cfg : ProcessorConfig) (fuel : ℕ) (p : Processor) {s : CommandWorld}
    (h : Between s) : Handles (p.runRound cfg fuel) (fun _ => Between) s := by
  have hkeep : ∀ {o : Op}, o ≠ .popFront → o ≠ .deleteFront → (∀ event, o ≠ .command event) →
      ∀ {s}, Between s → Handles (Prog.perform o) (fun _ => Between) s :=
    fun hpop hdelete hcommand _ h => perform_handles (keepsCommands_of hpop hdelete hcommand) h
  unfold runRound
  refine (hkeep (by simp) (by simp) (by simp) h).bind fun doRun s₁ h₁ => ?_
  split
  · refine (hkeep (by simp) (by simp) (by simp) h₁).bind fun _ s₂ h₂ => ?_
    refine (processState_handles cfg fuel _ h₂).bind fun p s₃ h₃ => ?_
    split
    · exact (hkeep (by simp) (by simp) (by simp) h₃).bind fun _ _ h => h
    · refine (hkeep (by simp) (by simp) (by simp) h₃).bind fun empty s₄ h₄ => ?_
      exact (hkeep (by simp) (by simp) (by simp) h₄).bind fun _ _ h => h
  · exact h₁

theorem clearRound_handles {s : CommandWorld} (h : Clearing s) :
    Handles (clearRound ()) (fun _ => Clearing) s := by
  intro s₁ hd r s₂ ha
  obtain ⟨calls, hlog, hpushed⟩ : Clearing s₁ :=
    Prog.drift_invariant (fun _ _ h hp => h.push hp) hd h
  obtain ⟨-, rfl⟩ := CommandWorld.takeFront_eq_some ha
  have hclearing : Clearing { s₁ with queue := s₁.queue.tail } := ⟨calls, hlog, hpushed⟩
  cases r <;> exact ⟨hclearing.inv, hclearing⟩

theorem run_handles (cfg : ProcessorConfig) (fuel : ℕ) (p : Processor) :
    Handles (p.run cfg fuel) (fun _ => Clearing) .initial := by
  have hinitial : Between .initial := ⟨[], rfl, rfl⟩
  have hkeep : ∀ {o : Op}, o ≠ .popFront → o ≠ .deleteFront → (∀ event, o ≠ .command event) →
      KeepsCommands o := keepsCommands_of
  unfold run
  refine (Between.only (waitForStart_only (hkeep (by simp) (by simp) (by simp))
    (hkeep (by simp) (by simp) (by simp)) (hkeep (by simp) (by simp) (by simp))
    (hkeep (by simp) (by simp) (by simp)) (hkeep (by simp) (by simp) (by simp)) cfg fuel)
    hinitial).bind fun _ s₁ h₁ => ?_
  refine (Between.only (time_only keepsCommands_ordinary) h₁).bind fun now s₂ h₂ => ?_
  refine (Prog.Safe.loop (J := fun _ => Between) (Q := fun _ => Between) (fun p s h =>
    (runRound_handles cfg fuel p h).mono fun x _ h => ?_) fuel h₂).bind fun _ s₃ h₃ => ?_
  · cases x <;> exact h
  refine (perform_handles (keepsCommands_of (by simp) (by simp) (by simp)) h₃).bind fun _ s₄ h₄ => ?_
  refine (Prog.Safe.loop (J := fun _ => Clearing) (Q := fun _ => Clearing) (fun _ s h =>
    (clearRound_handles h).mono fun x _ h => ?_) fuel h₄.clearing).bind fun _ s₅ h₅ => ?_
  · cases x <;> exact h
  have hclearing : ∀ {o : Op}, KeepsCommands o → ∀ {s}, Clearing s →
      Handles (Prog.perform o) (fun _ => Clearing) s := fun {o} ho {s} h =>
    Prog.Only.safe (p := Prog.perform o) ⟨ho, fun _ => trivial⟩ (fun _ h => h.inv)
      (fun _ _ h hp => h.push hp) (fun _ ho s r s' h ha => h.keep ho s r s' ha) h
  refine (hclearing (keepsCommands_of (by simp) (by simp) (by simp)) h₅).bind fun _ s₆ h₆ => ?_
  exact (hclearing (hkeep (by simp) (by simp) (by simp)) h₆).bind fun _ _ h => h

end Processor

theorem run_commandInv (cfg : ProcessorConfig) (fuel : ℕ) (p : Processor)
    {c : ProcessorM Unit × CommandWorld}
    (h : commandEnv.Reaches (p.run cfg fuel, .initial) c) : CommandInv c.2 := by
  have hinitial : Between .initial := ⟨[], rfl, rfl⟩
  have hdrift : ∀ s s', CommandInv s → commandEnv.drift s s' → CommandInv s' := by
    intro s s' hinv hd
    obtain ⟨d, rfl⟩ := commandEnv_drift hd
    exact ⟨hinv.1.trans (List.prefix_append _ _), hinv.2⟩
  exact (Processor.run_handles cfg fuel p).reaches hinitial.clearing.inv hdrift h

/-- In every run, whatever the station does and whenever other threads queue commands, the commands
are handed over in the order in which they were queued, none twice; a call of `ProcessCommand` that
has returned has replied to its command once, with success only together with a packet, and notified
each listener once. Every call comes to its end. -/
theorem commands_replied (cfg : ProcessorConfig) (fuel : ℕ) (p : Processor)
    {c : ProcessorM Unit × CommandWorld}
    (h : commandEnv.Reaches (p.run cfg fuel, .initial) c) :
    handed c.2.log <+: c.2.pushed ∧ OneReplyEach c.2.log ∧ ReturnsReplied c.2.log ∧
      ∀ (p : Processor) (command : CustomCommand), (p.processCommand cfg command).Finishes := by
  obtain ⟨horder, hreplies⟩ := run_commandInv cfg fuel p h
  exact ⟨horder, hreplies, hreplies.returnsReplied,
    fun p command => Processor.processCommand_finishes cfg p command⟩

/-- A command was queued and the station has not answered it. -/
def unansweredWorld : CommandWorld where
  pushed := [testCommand]
  queue := []
  locked := false
  log := [.handedOver testCommand, .setReply testCommand none .timeout,
    .onResultReady testCommand 0 (commonReply .timeout), .deleted testCommand,
    .returned testCommand]

/-- The run gets there. -/
theorem commands_replied_unanswered : ∃ x : ProcessorM Unit,
    commandEnv.Reaches (knownProcessor.run (unfilteredConfig true) 2, .initial) (x, unansweredWorld) ∧
      handed unansweredWorld.log <+: unansweredWorld.pushed ∧ OneReplyEach unansweredWorld.log ∧
      ReturnsReplied unansweredWorld.log ∧ ∀ (p : Processor) (command : CustomCommand),
        (p.processCommand (unfilteredConfig true) command).Finishes := by
  obtain ⟨⟨x, s'⟩, hreaches, rfl⟩ := Prog.exists_reaches_of_replay CommandWorld.next CommandWorld.push
    (.move testCommand :: (noticeScript ++ (captureScript ++ unansweredScript)).map .answer)
    (c := (knownProcessor.run (unfilteredConfig true) 2, CommandWorld.initial)) id
    (t := unansweredWorld) (by decide +kernel)
  exact ⟨x, hreaches, commands_replied _ _ _ hreaches⟩

end Ritex
