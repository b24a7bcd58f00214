import Ritex.DaemonServer
import Ritex.History

/-! Which requests the server answers. -/
namespace Ritex
open Interaction Transition

/-! ### Answers -/

/-- The last request: whether it has no response yet, and whether its command was queued. -/
structure LastRequest where
  pending : Bool
  queued : Bool

def LastRequest.next (t : LastRequest) : ServerEvent → LastRequest
  | .request _ => ⟨true, false⟩
  | .response _ => { t with pending := false }
  | .queued _ => { t with queued := true }
  | _ => t

def lastRequest (log : List ServerEvent) : LastRequest := log.foldl LastRequest.next ⟨false, false⟩

/-- No request is read, no connection closed and no server ended before the last request has its
response, and the server waits for a command in the queue only. -/
def LastRequest.Fits (t : LastRequest) : ServerEvent → Prop
  | .request _ => t.pending = false
  | .closed => t.pending = false
  | .ended => t.pending = false
  | .waits => t.queued = true
  | _ => True

def Answers (log : List ServerEvent) : Prop :=
  ∀ before e after, log = before ++ e :: after → (lastRequest before).Fits e

theorem lastRequest_snoc (log : List ServerEvent) (e : ServerEvent) :
    lastRequest (log ++ [e]) = (lastRequest log).next e := by
  rw [lastRequest, List.foldl_append]
  rfl

@[simp] theorem lastRequest_response (log : List ServerEvent) (text : String) :
    (lastRequest (log ++ [.response text])).pending = false := by
  rw [lastRequest_snoc]
  rfl

@[simp] theorem lastRequest_queued (log : List ServerEvent) (c : CustomCommand) :
    (lastRequest (log ++ [.queued c])).queued = true := by
  rw [lastRequest_snoc]
  rfl

theorem answers_nil : Answers [] := by
  intro before e after h
  simp at h

theorem answers_snoc (log : List ServerEvent) (e : ServerEvent) :
    Answers (log ++ [e]) ↔ Answers log ∧ (lastRequest log).Fits e :=
  forall_split_snoc (P := fun before e => (lastRequest before).Fits e) log e

/-! ### The condition -/

def CommandAnswerable (device : DeviceState) (x : Circumstances) (cmd : CompiledCommand) : Prop :=
  match cmd.cmdLineCommandType with
  | .listCommands => True
  | .getMesurements => True
  | .testDevice => device.isRunning = false ∧ x.isOpened = true ∧ x.isCreated = true
  | .command => KnownCommand cmd
  | _ => False

/-- The line parses and compiles, and its command is answered. -/
def Answerable (lib : ServerLibrary) (device : DeviceState) (x : Circumstances)
    (data : List Byte) : Prop :=
  ∃ command cmd, parse lib.getopt (setCmdLine (cString (data ++ x.beyond))) = some command ∧
    command.compile additionalParameterMap x.fakeId = some cmd ∧ CommandAnswerable device x cmd

/-- What the steps of a run have to meet: every complete request is answerable, and the server is
not cancelled with a request in hand. -/
def Meets (lib : ServerLibrary) (s : ServerState) : ServerAction → Prop
  | .receive x (.request data) => Answerable lib s.device x data
  | .cancel => (lastRequest s.log).pending = false
  | _ => True

def orderlyServer (lib : ServerLibrary) (timeDiviation : ℤ) : System ServerState where
  init s := s = .initial timeDiviation
  step s s' := ∃ a, Meets lib s a ∧ s.act lib a = some s'

/-! ### One request -/

/-- The last request has its response, or its command is in the queue. -/
def Answered (s : ServerState) : Prop :=
  (lastRequest s.log).pending = false ∨ (lastRequest s.log).queued = true

def Fresh (s : ServerState) : Prop := lastRequest s.log = ⟨true, false⟩

theorem Fresh.not_answered {s : ServerState} (h : Fresh s) : ¬ Answered s := by
  unfold Answered
  rw [h]
  simp

theorem fresh_record (s : ServerState) (data : List Byte) : Fresh (s.record [.request data]) :=
  lastRequest_snoc s.log _

/-- Behind a fresh request only some events can come. -/
theorem Fresh.not_answers {s : ServerState} (h : Fresh s) {e : ServerEvent}
    (he : ¬ (⟨true, false⟩ : LastRequest).Fits e) : ¬ Answers (s.log ++ [e]) := by
  intro hanswers
  have hfits := ((answers_snoc s.log e).mp hanswers).2
  rw [h] at hfits
  exact he hfits

theorem finish_answered {s : ServerState} (h : Fresh s) (execution : Execution)
    (device : DeviceState) : Answered (s.finish execution device) ↔ execution ≠ .nothing := by
  cases execution with
  | failed => exact ⟨fun _ => by simp, fun _ => .inl (lastRequest_response s.log executionError)⟩
  | notified => exact ⟨fun _ => by simp, fun _ => .inl (lastRequest_response s.log "")⟩
  | queued c => exact ⟨fun _ => by simp, fun _ => .inr (lastRequest_queued s.log c)⟩
  | nothing => exact ⟨fun ha => absurd ha h.not_answered, fun hne => absurd rfl hne⟩

theorem stop_answered {s : ServerState} (h : Fresh s) : ¬ Answered s.stop := by
  have hlast : lastRequest s.stop.log = lastRequest s.log := lastRequest_snoc s.log .ended
  unfold Answered
  rw [hlast, h]
  simp

/-! ### The commands -/

theorem synchronised_isRunning (device : DeviceState) (cmd : CompiledCommand) :
    (device.synchronised cmd).isRunning = device.isRunning := by
  unfold DeviceState.synchronised
  split <;> rfl

theorem execute_testDevice (device : DeviceState) (x : Circumstances) (commport : Text)
    (speed : Option ℤ) : (execute device x (.testDevice commport speed)).1 ≠ .nothing ↔
      device.isRunning = false ∧ x.isOpened = true ∧ x.isCreated = true := by
  unfold execute testDevice DeviceState.create
  by_cases hrunning : device.isRunning = true
  · simp [hrunning]
  · by_cases hopened : x.isOpened = true
    · by_cases hcreated : x.isCreated = true <;> simp [hrunning, hopened, hcreated]
    · simp [hrunning, hopened]

theorem execute_startMeasurement (device : DeviceState) (x : Circumstances) (commport : Text)
    (speed : Option ℤ) : (execute device x (.startMeasurement commport speed)).1 ≠ .nothing := by
  unfold execute
  dsimp only
  split <;> simp

theorem execute_external (device : DeviceState) (x : Circumstances) (cmd : CmdExternal)
    (commport : Text) (speed : Option ℤ) :
    (execute device x (.external cmd commport speed)).1 ≠ .nothing := by
  unfold execute
  dsimp only
  split <;> simp

theorem perform_answered (lib : ServerLibrary) {s : ServerState} (h : Fresh s) (x : Circumstances)
    (cmd : CompiledCommand) :
    Answered (s.perform lib x cmd) ↔ CommandAnswerable s.device x cmd := by
  have hfinish : ∀ command, createCommand lib.atof cmd = .created command →
      (Answered (s.perform lib x cmd) ↔
        (execute (s.device.synchronised cmd) x command).1 ≠ .nothing) := by
    intro command hcommand
    unfold ServerState.perform
    rw [hcommand]
    exact finish_answered h _ _
  unfold CommandAnswerable
  cases htype : cmd.cmdLineCommandType with
  | exit =>
    have hnull : createCommand lib.atof cmd = .null := by
      unfold createCommand
      rw [htype]
    unfold ServerState.perform
    rw [hnull]
    exact ⟨fun ha => h.not_answered ha, False.elim⟩
  | showInfo | getConnectedDeviceInfo | getAdditionalParameterList =>
    rw [hfinish _ (by unfold createCommand; rw [htype])]
    exact ⟨fun hne => hne rfl, False.elim⟩
  | listCommands =>
    rw [hfinish _ (by unfold createCommand; rw [htype])]
    exact ⟨fun _ => trivial, fun _ => by simp [execute]⟩
  | getMesurements =>
    rw [hfinish _ (by unfold createCommand; rw [htype])]
    exact ⟨fun _ => trivial, fun _ => execute_startMeasurement _ _ _ _⟩
  | testDevice =>
    rw [hfinish _ (by unfold createCommand; rw [htype]), execute_testDevice, synchronised_isRunning]
  | command =>
    have hcreate : createCommand lib.atof cmd = createExternalCommand lib.atof cmd := by
      unfold createCommand
      rw [htype]
    rcases createExternalCommand_cases lib.atof cmd with ⟨hknown, c, hc⟩ | ⟨hunknown, hc⟩
    · rw [hfinish _ (hcreate.trans hc)]
      exact ⟨fun _ => hknown, fun _ => execute_external _ _ _ _ _⟩
    · unfold ServerState.perform
      rw [hcreate, hc]
      exact ⟨fun ha => absurd ha (stop_answered h), fun hk => absurd hk hunknown⟩

/-- A complete request is answered if and only if it is answerable. -/
theorem receive_answered (lib : ServerLibrary) (s : ServerState) (x : Circumstances)
    (data : List Byte) :
    Answered (s.receive lib x (.request data)) ↔ Answerable lib s.device x data := by
  have hfresh : Fresh (s.record [.request data]) := fresh_record s data
  show Answered ((s.record [.request data]).serve lib x data) ↔ _
  unfold ServerState.serve Answerable
  split
  next hparse => simp [hparse, hfresh.not_answered]
  next command hparse =>
    split
    next hcompile => simp [hparse, hcompile, hfresh.not_answered]
    next cmd hcompile =>
      rw [perform_answered lib hfresh]
      constructor
      · exact fun ha => ⟨command, cmd, hparse, hcompile, ha⟩
      · rintro ⟨command', cmd', hparse', hcompile', ha⟩
        cases hparse.symm.trans hparse'
        cases hcompile.symm.trans hcompile'
        exact ha

/-! ### Runs -/

/-- Between two requests the last one has its response; while the server may go on it has it too,
and while it has to wait its command is in the queue. -/
structure ServerInv (s : ServerState) : Prop where
  answers : Answers s.log
  reading : s.phase = .reading → (lastRequest s.log).pending = false
  free : s.canProcess = true → (lastRequest s.log).pending = false
  held : s.phase = .executed ∨ s.phase = .waiting → s.canProcess = false →
    (lastRequest s.log).queued = true

theorem receive_cases (lib : ServerLibrary) (s : ServerState) (x : Circumstances)
    (data : List Byte) :
    s.receive lib x (.request data) = s.record [.request data] ∨
    s.receive lib x (.request data) = (s.record [.request data]).stop ∨
    ∃ execution device,
      s.receive lib x (.request data) = (s.record [.request data]).finish execution device := by
  show (s.record [.request data]).serve lib x data = _ ∨
    (s.record [.request data]).serve lib x data = _ ∨
    ∃ execution device, (s.record [.request data]).serve lib x data = _
  unfold ServerState.serve
  split
  next => exact .inl rfl
  next =>
    split
    next => exact .inl rfl
    next cmd _ =>
      unfold ServerState.perform
      split
      next => exact .inl rfl
      next => exact .inr (.inl rfl)
      next command _ => exact .inr (.inr ⟨_, _, rfl⟩)

theorem answers_unmarked {log : List ServerEvent} (h : Answers log) {e : ServerEvent}
    (he : ∀ t : LastRequest, t.Fits e) : Answers (log ++ [e]) :=
  (answers_snoc log e).mpr ⟨h, he _⟩

theorem finish_inv {s : ServerState} (h : Answers s.log) {execution : Execution}
    (hne : execution ≠ .nothing) (device : DeviceState) :
    ServerInv (s.finish execution device) := by
  cases execution with
  | nothing => exact absurd rfl hne
  | failed =>
    have hlast := lastRequest_response s.log executionError
    exact ⟨answers_unmarked h fun _ => trivial, fun _ => hlast, fun _ => hlast,
      fun hphase => by simp [ServerState.finish] at hphase⟩
  | notified =>
    have hlast := lastRequest_response s.log ""
    exact ⟨answers_unmarked h fun _ => trivial, fun _ => hlast, fun _ => hlast,
      fun _ hheld => by simp [ServerState.finish] at hheld⟩
  | queued c =>
    have hlast := lastRequest_queued s.log c
    exact ⟨answers_unmarked h fun _ => trivial, fun hphase => by simp [ServerState.finish] at hphase,
      fun hfree => by simp [ServerState.finish] at hfree, fun _ _ => hlast⟩

theorem ServerInv.stop {s : ServerState} (h : Answers s.log)
    (hlast : (lastRequest s.log).pending = false) : ServerInv s.stop :=
  ⟨(answers_snoc s.log .ended).mpr ⟨h, hlast⟩, fun hphase => by simp [ServerState.stop] at hphase,
    fun _ => (congrArg LastRequest.pending (lastRequest_snoc s.log .ended)).trans hlast,
    fun hphase => by simp [ServerState.stop] at hphase⟩

theorem ServerInv.closed {s : ServerState} (h : ServerInv s) (hphase : s.phase = .reading) :
    ServerInv (s.record [.closed]) := by
  have hlast : (lastRequest (s.log ++ [.closed])).pending = false :=
    (congrArg LastRequest.pending (lastRequest_snoc s.log .closed)).trans (h.reading hphase)
  refine ⟨(answers_snoc s.log .closed).mpr ⟨h.answers, h.reading hphase⟩, fun _ => hlast,
    fun _ => hlast, fun hheld => ?_⟩
  have hphase' : (s.record [.closed]).phase = .reading := hphase
  rw [hphase'] at hheld
  simp at hheld

theorem ServerInv.response {s : ServerState} (h : ServerInv s) (hphase : s.phase = .reading)
    (text : String) : ServerInv (s.record [.response text]) := by
  have hlast := lastRequest_response s.log text
  refine ⟨answers_unmarked h.answers fun _ => trivial, fun _ => hlast, fun _ => hlast,
    fun hheld => ?_⟩
  have hphase' : (s.record [.response text]).phase = .reading := hphase
  rw [hphase'] at hheld
  simp at hheld

theorem ServerState.record_append (s : ServerState) (first second : List ServerEvent) :
    (s.record first).record second = s.record (first ++ second) := by
  simp [ServerState.record]

theorem receive_inv (lib : ServerLibrary) {s : ServerState} (h : ServerInv s)
    (hphase : s.phase = .reading) (x : Circumstances) (input : Input)
    (hmeets : Meets lib s (.receive x input)) : ServerInv (s.receive lib x input) := by
  cases input with
  | error => exact h.closed hphase
  | noLength =>
    have hinv := (h.response hphase wrongPacketLength).closed hphase
    rwa [ServerState.record_append] at hinv
  | badLength => exact .stop h.answers (h.reading hphase)
  | noContent =>
    have hinv := (h.response hphase wrongContentLength).closed hphase
    rwa [ServerState.record_append] at hinv
  | request data =>
    have hfresh := fresh_record s data
    have hanswered := (receive_answered lib s x data).mpr hmeets
    have hanswers : Answers (s.record [.request data]).log :=
      (answers_snoc s.log _).mpr ⟨h.answers, h.reading hphase⟩
    rcases receive_cases lib s x data with heq | heq | ⟨execution, device, heq⟩
    · rw [heq] at hanswered
      exact absurd hanswered hfresh.not_answered
    · rw [heq] at hanswered
      exact absurd hanswered (stop_answered hfresh)
    · rw [heq] at hanswered ⊢
      exact finish_inv hanswers ((finish_answered hfresh execution device).mp hanswered) device

theorem serverInv_act (lib : ServerLibrary) {s s' : ServerState} {a : ServerAction}
    (h : ServerInv s) (hmeets : Meets lib s a) (ha : s.act lib a = some s') : ServerInv s' := by
  cases a with
  | receive x input =>
    obtain ⟨hphase, hs'⟩ := Option.ite_none_right_eq_some.mp ha
    cases hs'
    exact receive_inv lib h hphase x input hmeets
  | wait =>
    obtain ⟨⟨hphase, hheld⟩, hs'⟩ := Option.ite_none_right_eq_some.mp ha
    cases hs'
    have hlast : lastRequest (s.log ++ [.waits]) = lastRequest s.log := lastRequest_snoc s.log .waits
    have hqueued := h.held (.inl hphase) hheld
    exact ⟨(answers_snoc s.log .waits).mpr ⟨h.answers, hqueued⟩, (fun hreading => by cases hreading),
      (fun hfree => absurd (hheld.symm.trans hfree) (by simp)),
      (fun _ _ => (congrArg LastRequest.queued hlast).trans hqueued)⟩
  | goOn =>
    obtain ⟨⟨-, hfree⟩, hs'⟩ := Option.ite_none_right_eq_some.mp ha
    cases hs'
    exact ⟨h.answers, fun _ => h.free hfree, h.free, fun hphase => by simp at hphase⟩
  | reply rawResult =>
    obtain ⟨-, hs'⟩ := Option.ite_none_right_eq_some.mp ha
    cases hs'
    have hlast := lastRequest_response s.log rawResult
    exact ⟨answers_unmarked h.answers fun _ => trivial, fun _ => hlast, fun _ => hlast,
      fun _ hheld => by cases hheld⟩
  | cancel =>
    obtain ⟨-, hs'⟩ := Option.ite_none_right_eq_some.mp ha
    cases hs'
    exact .stop h.answers hmeets

theorem serverInv_invariant (lib : ServerLibrary) (timeDiviation : ℤ) :
    (orderlyServer lib timeDiviation).Invariant ServerInv where
  init s hs := by
    cases hs
    exact ⟨answers_nil, fun _ => rfl, fun _ => rfl,
      fun hphase => by simp [ServerState.initial] at hphase⟩
  step s s' h hstep := by
    obtain ⟨a, hmeets, ha⟩ := hstep
    exact serverInv_act lib h hmeets ha

/-- What an unanswered request leads to: the next event is one that has to come after the response. -/
theorem exists_unanswered (lib : ServerLibrary) (timeDiviation : ℤ) {s : ServerState}
    (hphase : s.phase = .reading) (x : Circumstances) (data : List Byte)
    (hunanswered : ¬ Answered (s.receive lib x (.request data))) :
    ∃ s', Relation.ReflTransGen (orderlyServer lib timeDiviation).step
      (s.receive lib x (.request data)) s' ∧ ¬ Answers s'.log := by
  have hfresh := fresh_record s data
  rcases receive_cases lib s x data with heq | heq | ⟨execution, device, heq⟩
  · -- The request is passed over, and the client leaves.
    have hclosed : (s.record [.request data]).act lib (.receive x .error) =
        some ((s.record [.request data]).record [.closed]) := if_pos hphase
    exact ⟨_, .single ⟨.receive x .error, trivial, by rw [heq]; exact hclosed⟩,
      hfresh.not_answers (e := .closed) fun hfits => by cases hfits⟩
  · refine ⟨_, .refl, ?_⟩
    rw [heq]
    exact hfresh.not_answers (e := .ended) fun hfits => by cases hfits
  · -- The server waits for a command that nobody has.
    rw [heq] at hunanswered ⊢
    have hnothing : execution = .nothing := by
      by_contra hne
      exact hunanswered ((finish_answered hfresh execution device).mpr hne)
    subst hnothing
    have hwait : ((s.record [.request data]).finish .nothing device).act lib .wait = some
        { ((s.record [.request data]).finish .nothing device).record [.waits] with
          phase := .waiting } := by
      unfold ServerState.act
      exact if_pos ⟨rfl, rfl⟩
    exact ⟨_, .single ⟨.wait, trivial, hwait⟩,
      hfresh.not_answers (e := .waits) fun hfits => by cases hfits⟩

/-- In every run whose requests are all answerable and whose server is cancelled between two requests
only, each request has its response before the next one is read and the server waits for commands in
the queue only; and a request that is not answerable can be left without a response. -/
theorem requests_answered (lib : ServerLibrary) (timeDiviation : ℤ) :
    (∀ s, (orderlyServer lib timeDiviation).Reachable s → Answers s.log) ∧
    ∀ s x data, (orderlyServer lib timeDiviation).Reachable s → s.phase = .reading →
      ((∀ s', Relation.ReflTransGen (orderlyServer lib timeDiviation).step
        (s.receive lib x (.request data)) s' → Answers s'.log) ↔ Answerable lib s.device x data) := by
  have hrun : ∀ s, (orderlyServer lib timeDiviation).Reachable s → Answers s.log := fun s hs =>
    ((serverInv_invariant lib timeDiviation).reachable hs).answers
  refine ⟨hrun, fun s x data hs hphase => ⟨fun hanswers => ?_, fun hanswerable s' hs' => ?_⟩⟩
  · by_contra hno
    obtain ⟨s', hs', hviolated⟩ := exists_unanswered lib timeDiviation hphase x data
      fun ha => hno ((receive_answered lib s x data).mp ha)
    exact hviolated (hanswers s' hs')
  · have hstep : (orderlyServer lib timeDiviation).step s (s.receive lib x (.request data)) :=
      ⟨.receive x (.request data), hanswerable, if_pos hphase⟩
    exact hrun s' ((hs.step hstep).trans hs')

/-! ### A port that cannot be opened -/

/-- Options as `getopt_long_only` finds them in words none of which abbreviates another option. -/
def sampleOption (word : Text) : OptionToken :=
  if word = "-t".toList then .short 't'
  else if word = "-a".toList then .short 'a'
  else if word = "-cmd".toList then .long optIndexCmd
  else .argument word

def sampleLibrary : ServerLibrary := ⟨fun words => words.tail.map sampleOption, fun _ => 0⟩

def requestText (text : String) : List Byte := text.toList.map (fun c => BitVec.ofNat 8 c.toNat) ++ [0]

def testRequest : List Byte :=
  requestText "ritex -t -a comdevice /dev/ttySC0 -a baudrate 9600"

def noPort : Circumstances := ⟨1, 0, [], false, false⟩

theorem requests_answered_listCommands : ∀ s',
    Relation.ReflTransGen (orderlyServer sampleLibrary 0).step
      ((ServerState.initial 0).receive sampleLibrary noPort (.request (requestText "ritex -cmd"))) s' →
    Answers s'.log := by
  have hparse : parse sampleLibrary.getopt
      (setCmdLine (cString (requestText "ritex -cmd" ++ noPort.beyond))) =
        some { cmdLineCommandType := some .listCommands } := by
    decide +kernel
  exact ((requests_answered sampleLibrary 0).2 (.initial 0) noPort _ (.init rfl) rfl).mpr
    ⟨_, _, hparse, rfl, trivial⟩

/-- The test of a device whose port cannot be opened is not queued, and the server waits for it. -/
theorem testRequest_waits : (((ServerState.initial 0).receive sampleLibrary noPort
    (.request testRequest)).act sampleLibrary .wait).map ServerState.log =
      some [.request testRequest, .waits] := by
  decide +kernel

theorem requests_answered_false : ¬ ∀ lib timeDiviation s,
    (daemonServer lib timeDiviation).Reachable s → Answers s.log := by
  intro hall
  obtain ⟨s, hwait, hlog⟩ := Option.map_eq_some_iff.mp testRequest_waits
  have hreceived : (daemonServer sampleLibrary 0).Reachable
      ((ServerState.initial 0).receive sampleLibrary noPort (.request testRequest)) :=
    .step (.init rfl) ⟨.receive noPort (.request testRequest), rfl⟩
  have hanswers := hall sampleLibrary 0 s (hreceived.step ⟨.wait, hwait⟩)
  rw [hlog] at hanswers
  have hfits : (lastRequest [.request testRequest]).queued = true :=
    hanswers [.request testRequest] .waits [] rfl
  cases hfits

end Ritex
