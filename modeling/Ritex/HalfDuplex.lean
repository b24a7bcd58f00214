import Ritex.BusDiscipline
import Ritex.RelyGuarantee

/-! The bus is used half-duplex: over whole runs, the processor writes no frame while it has not waited for
the answer to the last one, and a capture of the station ends after a bounded number of frames. -/
namespace Ritex
open Interaction

def BusEvent.isFrame : BusEvent → Bool
  | .written .. => true
  | .received _ => false

/-- The state that was entered last, the bus before and since, and the commands taken since. -/
structure Session where
  state : Option KsuState
  earlier : List BusEvent
  bus : List BusEvent
  taken : ℕ

namespace Session

def wrote (s : Session) (writer : Writer) (packet : DataPacket) : Session :=
  { s with bus := s.bus ++ [.written writer packet] }

def heard (s : Session) (w : Wait) : Session := { s with bus := s.bus ++ [.received w] }

def next (s : Session) : Event Op Res → Session
  | ⟨.enter state, _⟩ => ⟨some state, s.earlier ++ s.bus, [], 0⟩
  | ⟨.write writer packet, _⟩ => s.wrote writer packet
  | ⟨.wait _, r⟩ => s.heard r.1
  | ⟨.popFront, r⟩ => { s with taken := s.taken + (r : Option CustomCommand).toList.length }
  | _ => s

def initial : Session := ⟨none, [], [], 0⟩

def frames (s : Session) : ℕ := s.bus.countP BusEvent.isFrame

/-- Three frames capture the station, a command takes two and every mode of the cycle two. -/
structure Orderly (s : Session) : Prop where
  halfDuplex : (s.earlier ++ s.bus).IsChain fun a b => a.isFrame = true → b.isFrame = false
  traffic : s.state ≠ some .captureDevice → ∀ e ∈ s.bus, e.isFrame = false
  capture : s.state = some .captureDevice → s.bus.IsChain fun a b => b.isFrame = !a.isFrame
  asksFirst : s.state = some .captureDevice → ∀ e ∈ s.bus.head?, e.isFrame = true
  bounded : s.frames ≤ 17 + 2 * s.taken

end Session

def session (h : History) : Session := h.foldl Session.next .initial

def halfDuplex : RelyGuarantee Op Res Session where
  next := Session.next
  relies _ _ := True
  guarantees := Session.Orderly

/-! ### What an exchange makes of a session -/

namespace Session

/-- Nothing is awaited. -/
def Answered (s : Session) : Prop := ∀ e ∈ (s.earlier ++ s.bus).getLast?, e.isFrame = false

theorem Answered.bus {s : Session} (h : s.Answered) : ∀ e ∈ s.bus.getLast?, e.isFrame = false := by
  intro e he
  refine h e ?_
  rw [List.getLast?_append, Option.mem_def.mp he]
  rfl

theorem answered_heard (s : Session) (w : Wait) : (s.heard w).Answered := by
  intro e he
  rw [heard, ← List.append_assoc, List.getLast?_concat] at he
  cases he
  rfl

/-- The station is captured, nothing is awaited and `n` more frames may be written. -/
structure Idle (n : ℕ) (s : Session) : Prop where
  state : s.state = some .captureDevice
  orderly : s.Orderly
  answered : s.Answered
  spare : s.frames + n ≤ 17 + 2 * s.taken

theorem Idle.mono {m n : ℕ} {s : Session} (h : s.Idle n) (hmn : m ≤ n) : s.Idle m :=
  ⟨h.state, h.orderly, h.answered, by have := h.spare; omega⟩

theorem frames_wrote (s : Session) (writer : Writer) (packet : DataPacket) :
    (s.wrote writer packet).frames = s.frames + 1 := by
  simp [frames, wrote, BusEvent.isFrame]

theorem frames_heard (s : Session) (w : Wait) : (s.heard w).frames = s.frames := by
  simp [frames, heard, BusEvent.isFrame]

theorem Idle.wrote {n : ℕ} {s : Session} (h : s.Idle (n + 1)) (writer : Writer) (packet : DataPacket) :
    (s.wrote writer packet).Orderly := by
  have hspare := h.spare
  constructor
  · rw [Session.wrote, ← List.append_assoc]
    refine h.orderly.halfDuplex.append (.singleton _) fun e he _ _ hframe => ?_
    rw [h.answered e he] at hframe
    cases hframe
  · exact fun hstate => absurd h.state hstate
  · intro _
    refine (h.orderly.capture h.state).append (.singleton _) fun e he x hx => ?_
    cases hx
    rw [h.answered.bus e he]
    rfl
  · intro _ e he
    rw [Session.wrote, List.head?_append] at he
    cases hbus : s.bus.head? with
    | none =>
      rw [hbus] at he
      cases he
      rfl
    | some first =>
      rw [hbus] at he
      exact h.orderly.asksFirst h.state e (hbus.trans he)
  · rw [frames_wrote]
    show s.frames + 1 ≤ 17 + 2 * s.taken
    omega

theorem Idle.exchange {n : ℕ} {s : Session} (h : s.Idle (n + 1)) (writer : Writer)
    (packet : DataPacket) (w : Wait) : ((s.wrote writer packet).heard w).Idle n := by
  have hwrote := h.wrote writer packet
  have hspare := h.spare
  refine ⟨h.state, ⟨?_, fun hstate => absurd h.state hstate, fun _ => ?_, fun _ e he => ?_, ?_⟩,
    answered_heard _ w, ?_⟩
  · rw [heard, ← List.append_assoc]
    refine hwrote.halfDuplex.append (.singleton _) fun _ _ x hx _ => ?_
    cases hx
    rfl
  · refine (hwrote.capture h.state).append (.singleton _) fun e he x hx => ?_
    cases hx
    rw [Session.wrote, List.getLast?_concat] at he
    cases he
    rfl
  · refine hwrote.asksFirst h.state e ?_
    rwa [heard, List.head?_append_of_ne_nil] at he
    simp [Session.wrote]
  · rw [frames_heard, frames_wrote]
    show s.frames + 1 ≤ 17 + 2 * s.taken
    omega
  · rw [frames_heard, frames_wrote]
    show s.frames + 1 + n ≤ 17 + 2 * s.taken
    omega

theorem Idle.taken {n : ℕ} {s : Session} (h : s.Idle n) (c : CustomCommand) :
    (s.next ⟨.popFront, some c⟩).Idle (n + 2) := by
  have hspare := h.spare
  have hbounded := h.orderly.bounded
  refine ⟨h.state, ⟨h.orderly.halfDuplex, h.orderly.traffic, h.orderly.capture, h.orderly.asksFirst, ?_⟩,
    h.answered, ?_⟩
  · show s.frames ≤ 17 + 2 * (s.taken + 1)
    omega
  · show s.frames + (n + 2) ≤ 17 + 2 * (s.taken + 1)
    omega

/-- The next visit may begin. -/
structure Between (s : Session) : Prop where
  orderly : s.Orderly
  answered : s.Answered

theorem Idle.between {n : ℕ} {s : Session} (h : s.Idle n) : s.Between := ⟨h.orderly, h.answered⟩

/-- The processor only listens. -/
structure Listens (s : Session) : Prop where
  state : s.state ≠ some .captureDevice
  between : s.Between

theorem Listens.heard {s : Session} (h : s.Listens) (w : Wait) : (s.heard w).Listens := by
  have hquiet : ∀ e ∈ (s.heard w).bus, e.isFrame = false := by
    intro e he
    rcases List.mem_append.mp he with he | he
    · exact h.between.orderly.traffic h.state e he
    · rw [List.mem_singleton.mp he]
      rfl
  refine ⟨h.state, ⟨⟨?_, fun _ => hquiet, fun hstate => absurd hstate h.state,
    fun hstate => absurd hstate h.state, ?_⟩, answered_heard s w⟩⟩
  · rw [Session.heard, ← List.append_assoc]
    refine h.between.orderly.halfDuplex.append (.singleton _) fun _ _ x hx _ => ?_
    cases hx
    rfl
  · rw [frames_heard]
    exact h.between.orderly.bounded

/-- The visit has begun. -/
structure Entered (state : KsuState) (s : Session) : Prop where
  state : s.state = some state
  between : s.Between
  frames : s.frames = 0

theorem Between.enter {s : Session} (h : s.Between) (state : KsuState) :
    (s.next ⟨.enter state, ()⟩).Entered state := by
  refine ⟨rfl, ⟨⟨?_, fun _ => ?_, fun _ => .nil, fun _ => ?_, ?_⟩, ?_⟩, rfl⟩
  · simpa [next] using h.orderly.halfDuplex
  · simp [next]
  · simp [next]
  · simp [next, Session.frames]
  · simpa [next, Answered] using h.answered

end Session

/-! ### Operations off the bus -/

/-- Operations that neither use the bus nor end a visit nor take a command. -/
def Op.Silent : Op → Prop
  | .enter _ => False
  | .wait _ => False
  | .write _ _ => False
  | .popFront => False
  | _ => True

theorem Op.Silent.next {o : Op} (ho : o.Silent) (s : Session) (r : Res o) : s.next ⟨o, r⟩ = s := by
  cases o with
  | enter | wait | write | popFront => exact ho.elim
  | _ => rfl

abbrev Holds {α : Type} (x : ProcessorM α) (Q : α → Session → Prop) (s : Session) : Prop :=
  x.Meets halfDuplex Q s

theorem only_holds {J : Session → Prop} (hJ : ∀ s, J s → s.Orderly) {α : Type} {x : ProcessorM α}
    (hx : x.Only Op.Silent) {s : Session} (hs : J s) : Holds x (fun _ s' => J s') s := by
  refine (hx.meets (G := halfDuplex) x.ensures_trivial hJ (fun o ho s hs r _ => ?_) hs).mono
    fun _ _ h => h.2
  show J (s.next ⟨o, r⟩)
  rwa [ho.next]

theorem Session.Idle.only {n : ℕ} {s : Session} (hs : s.Idle n) {α : Type} {x : ProcessorM α}
    (hx : x.Only Op.Silent) : Holds x (fun _ s' => s'.Idle n) s :=
  only_holds (fun _ h => h.orderly) hx hs

theorem Session.Between.only {s : Session} (hs : s.Between) {α : Type} {x : ProcessorM α}
    (hx : x.Only Op.Silent) : Holds x (fun _ s' => s'.Between) s :=
  only_holds (fun _ h => h.orderly) hx hs

/-- A frame is written and its answer waited for. -/
theorem Session.Idle.asks {n : ℕ} {s : Session} (hs : s.Idle (n + 1)) (p : Processor) (timeout : ℕ)
    (writer : Writer) (packet : DataPacket) {α : Type} {f : Received → ProcessorM α}
    {Q : α → Session → Prop} (hf : ∀ received s', s'.Idle n → Holds (f received) Q s') :
    Holds ((Processor.write writer packet).bind fun _ => (p.waitForKsuActivity timeout).bind f) Q s := by
  intro _ _
  refine ⟨hs.wrote writer packet, fun r _ => ?_⟩
  have hidle := hs.exchange writer packet r.1
  exact ⟨hidle.orderly, hf _ _ hidle⟩

namespace Processor

theorem time_silent : time.Only Op.Silent := ⟨trivial, fun _ => trivial⟩

theorem deref_silent (packet : Option DataPacket) : (deref packet).Only Op.Silent := by
  cases packet with
  | none => exact ⟨trivial, fun _ => trivial⟩
  | some packet => trivial

theorem readData_silent {α : Type} (packet : DataPacket) (x : PayloadReader α) :
    (readData packet x).Only Op.Silent :=
  ⟨trivial, fun _ => trivial⟩

theorem reportEvents_silent (events : List DBEventCommon) : (reportEvents events).Only Op.Silent := by
  induction events with
  | nil => trivial
  | cons event events ih => exact ⟨trivial, fun _ => ih⟩

theorem enqueData_silent (packets : List DBDataPacket) : (enqueData packets).Only Op.Silent := by
  induction packets with
  | nil => trivial
  | cons packet packets ih => exact ⟨trivial, fun _ => ih⟩

theorem reportData_silent (cfg : ProcessorConfig) (packet : DataPacket) :
    (reportData cfg packet).Only Op.Silent :=
  (readData_silent packet _).bind fun _ => enqueData_silent _

theorem notifyResultReady_silent (c : CustomCommand) (rawResult : String) :
    (notifyResultReady c rawResult).Only Op.Silent :=
  notifyResultReady_only (fun _ _ => trivial) c rawResult

theorem setReply_silent (cfg : ProcessorConfig) (p : Processor) (c : CustomCommand)
    (packet : Option DataPacket) (status : ErrorCode) :
    (p.setReply cfg c packet status).Only Op.Silent := by
  unfold setReply
  refine Prog.Only.bind ⟨trivial, fun _ => trivial⟩ fun _ => ?_
  split
  · unfold setExternalReply
    refine time_silent.bind fun now => ?_
    split
    · refine (deref_silent packet).bind fun q => (readData_silent q _).bind fun reply => ?_
      cases reply with
      | none => exact ⟨trivial, fun _ => trivial⟩
      | some reply =>
        refine (reportEvents_silent _).bind fun _ => ?_
        exact (notifyResultReady_silent c _).bind fun _ => trivial
    · exact (notifyResultReady_silent c _).bind fun _ => trivial
  · unfold setTestReply
    refine Prog.Only.bind ?_ fun _ => trivial
    split
    · refine (deref_silent packet).bind fun q => (readData_silent q _).bind fun reply => ?_
      exact notifyResultReady_silent c _
    · exact notifyResultReady_silent c _

theorem checkSettings_silent (cfg : ProcessorConfig) (p : Processor) (packet : DataPacket) :
    (p.checkSettings cfg packet).Only Op.Silent := by
  unfold checkSettings
  split
  · refine time_silent.bind fun _ => (readData_silent packet _).bind fun settings => ?_
    exact (reportEvents_silent _).bind fun _ => trivial
  · exact ⟨trivial, fun _ => trivial⟩

/-! ### Captures -/

/-- An exchange whose answer is looked into without using the bus. -/
theorem exchange_holds {α : Type} {n : ℕ} {s : Session} (hs : s.Idle (n + 1)) (p : Processor)
    (writer : Writer) (request : ℤ → DataPacket) {reply : DataPacket → ProcessorM α}
    (hreply : ∀ packet, (reply packet).Only Op.Silent) {lost : ProcessorM α}
    (hlost : lost.Only Op.Silent) :
    Holds (do
      let now ← time
      write writer (request now)
      let (packet, error) ← p.waitForKsuActivity ksuInactivityTimeout
      if error = .noError then
        let packet ← deref packet
        reply packet
      else lost) (fun _ s' => s'.Idle n) s := by
  refine (hs.only time_silent).bind fun now s₁ hs₁ => ?_
  refine hs₁.asks p _ writer (request now) fun received s₂ hs₂ => hs₂.only ?_
  dsimp only
  split
  · exact (deref_silent _).bind fun packet => hreply packet
  · exact hlost

theorem captureDevice_holds {n : ℕ} {s : Session} (hs : s.Idle (n + 1)) (p : Processor) :
    Holds p.captureDevice (fun _ s' => s'.Idle n) s := by
  refine exchange_holds hs p _ captureDevicePacket (fun packet => ?_) trivial
  split
  · exact (readData_silent packet _).bind fun _ => trivial
  · trivial

theorem getPasswords_holds {n : ℕ} {s : Session} (hs : s.Idle (n + 1)) (p : Processor) :
    Holds p.getPasswords (fun _ s' => s'.Idle n) s := by
  refine exchange_holds hs p _ getPasswordsPacket (fun packet => ?_) trivial
  split
  · refine (readData_silent packet _).bind fun _ => ?_
    exact (readData_silent packet _).bind fun _ => trivial
  · trivial

theorem setPassword_holds {n : ℕ} {s : Session} (hs : s.Idle (n + 1)) (p : Processor)
    (password : Word) : Holds (p.setPassword password) (fun _ s' => s'.Idle n) s := by
  refine (hs.only (x := Prog.perform Op.uninitialised) ⟨trivial, fun _ => trivial⟩).bind
    fun result s₁ hs₁ => ?_
  refine exchange_holds hs₁ p _ (setSettingPacket 44 password) (fun packet => ?_) trivial
  split
  · exact (readData_silent packet _).bind fun _ => trivial
  · split <;> trivial

theorem changeMode_holds {n : ℕ} {s : Session} (hs : s.Idle (n + 1)) (p : Processor) (mode : Word) :
    Holds (p.changeMode mode) (fun _ s' => s'.Idle n) s := by
  refine exchange_holds hs p _ (setSettingPacket 45 mode) (fun packet => ?_) trivial
  split
  · exact (readData_silent packet _).bind fun _ => trivial
  · trivial

theorem modeCycle_holds (cfg : ProcessorConfig) (p : Processor) (modes : List ℕ) {s : Session}
    (hs : s.Idle (2 * modes.length)) : Holds (p.modeCycle cfg modes) (fun _ s' => s'.Idle 0) s := by
  induction modes generalizing s with
  | nil => exact hs
  | cons i rest ih =>
    have hnext : s.Idle (2 * rest.length + 1 + 1) := hs
    unfold modeCycle
    split
    · exact ih (hnext.mono (by omega))
    · refine (changeMode_holds hnext p _).bind fun changed s₁ hs₁ => ?_
      split
      · refine (hs₁.only time_silent).bind fun now s₂ hs₂ => ?_
        refine hs₂.asks p _ _ (requestCurrentDataPacket now) fun received s₃ hs₃ => ?_
        refine (hs₃.only (deref_silent _)).bind fun packet s₄ hs₄ => ?_
        split
        · exact (hs₄.only (reportData_silent cfg _)).bind fun _ s₅ hs₅ => ih hs₅
        · exact ih hs₄
      · exact hs₁.mono (by omega)

/-! ### Commands -/

theorem motorInfo_holds {n : ℕ} {s : Session} (hs : s.Idle (n + 1)) (p : Processor)
    (c : CustomCommand) : Holds (p.motorInfo c) (fun _ s' => s'.Idle n) s := by
  unfold motorInfo
  refine (hs.only time_silent).bind fun now s₁ hs₁ => ?_
  refine hs₁.asks p _ _ (requestCurrentDataPacket now) fun received s₂ hs₂ => hs₂.only ?_
  dsimp only
  split
  · trivial
  · refine (deref_silent _).bind fun info => ?_
    split
    · exact (readData_silent info _).bind fun _ => trivial
    · trivial

theorem commandReply_holds {n : ℕ} {s : Session} (hs : s.Idle (n + 1)) (p : Processor)
    (c : CustomCommand) (packet : Option DataPacket) (error : ErrorCode) :
    Holds (p.commandReply c packet error) (fun _ s' => s'.Idle n) s := by
  have hidle : s.Idle n := hs.mono (by omega)
  unfold commandReply
  split
  · refine (hs.only (deref_silent packet)).bind fun reply s₁ hs₁ => ?_
    have hidle₁ : s₁.Idle n := hs₁.mono (by omega)
    split
    · unfold motorCommand
      split
      · refine (hs₁.only (readData_silent reply _)).bind fun code s₂ hs₂ => ?_
        split
        · exact motorInfo_holds hs₂ p c
        · exact hs₂.mono (by omega)
      · exact hidle₁
    · exact hidle₁
  · exact hidle

theorem processCommand_holds {n : ℕ} {s : Session} (hs : s.Idle (n + 2)) (cfg : ProcessorConfig)
    (p : Processor) (c : CustomCommand) :
    Holds (p.processCommand cfg c) (fun _ s' => s'.Idle n) s := by
  unfold processCommand
  refine hs.asks p _ _ c.dataPacket fun received s₁ hs₁ => ?_
  refine (commandReply_holds hs₁ p c _ _).bind fun r s₂ hs₂ => ?_
  exact hs₂.only (setReply_silent cfg _ c _ _)

theorem drainRound_holds {n : ℕ} {s : Session} (hs : s.Idle n) (cfg : ProcessorConfig)
    (p : Processor) :
    Holds (p.drainRound cfg) (fun _ s' => s'.Idle n) s := by
  unfold drainRound
  refine (hs.only (x := Prog.perform Op.lockCmd) ⟨trivial, fun _ => trivial⟩).bind fun _ s₁ hs₁ => ?_
  intro pending _
  cases pending with
  | none =>
    have hs₂ : (s₁.next ⟨.popFront, none⟩).Idle n := hs₁
    refine ⟨hs₂.orderly, ?_⟩
    exact (hs₂.only (x := Prog.perform Op.unlockCmd) ⟨trivial, fun _ => trivial⟩).bind fun _ _ hs₃ => hs₃
  | some c =>
    have hs₂ := hs₁.taken c
    refine ⟨hs₂.orderly, ?_⟩
    refine (hs₂.only (x := Prog.perform Op.unlockCmd) ⟨trivial, fun _ => trivial⟩).bind fun _ s₃ hs₃ => ?_
    refine (hs₃.only (x := command _) ⟨trivial, fun _ => trivial⟩).bind fun _ s₄ hs₄ => ?_
    refine (processCommand_holds hs₄ cfg p c).bind fun _ s₅ hs₅ => ?_
    exact (hs₅.only (x := command _) ⟨trivial, fun _ => trivial⟩).bind fun _ _ hs₆ => hs₆

theorem captured_holds {s : Session} (hs : s.Idle 14) (cfg : ProcessorConfig) (fuel : ℕ)
    (p : Processor) (settings : DataPacket) :
    Holds (p.captured cfg fuel settings) (fun _ s' => s'.Between) s := by
  unfold captured
  refine (hs.only (readData_silent settings _)).bind fun writeMode s₁ hs₁ => ?_
  refine (hs₁.only (checkSettings_silent cfg _ settings)).bind fun p s₂ hs₂ => ?_
  have hdrain : Holds (Prog.loop (fun p : Processor => p.drainRound cfg) fuel p)
      (fun _ s' => s'.Idle 14) s₂ := by
    refine Prog.Meets.loop (J := fun _ s => s.Idle 14) (Q := fun _ s => s.Idle 14)
      (fun p s hs => (drainRound_holds hs cfg p).mono fun x s' hs' => ?_) fuel hs₂
    cases x <;> exact hs'
  refine hdrain.bind fun p s₃ hs₃ => (hs₃.only time_silent).bind fun now s₄ hs₄ => ?_
  split
  · refine (modeCycle_holds cfg p [1, 2, 3, 4, 5, 6, 7] hs₄).bind fun _ s₅ hs₅ => ?_
    exact (hs₅.only time_silent).bind fun _ _ hs₆ => hs₆.between
  · exact hs₄.between

theorem processCapture_holds {s : Session} (hs : s.Idle 17) (cfg : ProcessorConfig) (fuel : ℕ)
    (p : Processor) : Holds (p.processCapture cfg fuel) (fun _ s' => s'.Between) s := by
  unfold processCapture
  refine (captureDevice_holds hs p).bind fun result s₁ hs₁ => ?_
  split
  · refine (getPasswords_holds hs₁ p).bind fun passwords s₂ hs₂ => ?_
    cases passwords with
    | none => exact hs₂.between
    | some passwords =>
      refine (setPassword_holds hs₂ p _).bind fun r s₃ hs₃ => ?_
      dsimp only
      split
      · cases r.2 with
        | none => exact hs₃.between
        | some settings => exact captured_holds hs₃ cfg fuel p settings
      · exact hs₃.between
  · exact hs₁.between

/-! ### The thread -/

theorem processTraffic_holds {s : Session} (hs : s.Listens) (cfg : ProcessorConfig) (p : Processor) :
    Holds (p.processTraffic cfg) (fun _ s' => s'.Between) s := by
  have hkeeps : ∀ o : Op, o.Ordinary → ∀ s : Session, s.Listens → ∀ r, (s.next ⟨o, r⟩).Listens := by
    intro o ho s hs r
    cases o with
    | wait timeout => exact hs.heard r.1
    | time | uninitialised | heap | timeDiviation | reportEvent | enqueData | crash => exact hs
    | _ => exact ho.1.elim
  have honly := processTraffic_only hkeeps (fun _ hs _ => hs) cfg p
  exact (honly.meets (G := halfDuplex) (Prog.ensures_trivial _) (fun _ hs => hs.between.orderly)
    (fun o ho s hs r _ => ho s hs r) hs).mono fun _ _ h => h.2.between

theorem enter_holds {s : Session} (hs : s.Between) (state : KsuState) :
    Holds (Prog.perform (Op.enter state)) (fun _ s' => s'.Entered state) s :=
  fun _ _ => ⟨(hs.enter state).between.orderly, hs.enter state⟩

theorem processState_holds (cfg : ProcessorConfig) (fuel : ℕ) (p : Processor) {s : Session}
    (hs : s.Entered p.state) : Holds (p.processState cfg fuel) (fun _ s' => s'.Between) s := by
  obtain ⟨hstate, hbetween, hframes⟩ := hs
  unfold processState
  split
  next htraffic =>
    refine processTraffic_holds ⟨?_, hbetween⟩ cfg p
    simp [hstate, htraffic]
  next hcapture =>
    refine processCapture_holds ⟨?_, hbetween.orderly, hbetween.answered, ?_⟩ cfg fuel p
    · rw [hstate, hcapture]
    · omega

theorem runRound_holds {s : Session} (hs : s.Between) (cfg : ProcessorConfig) (fuel : ℕ)
    (p : Processor) : Holds (p.runRound cfg fuel) (fun _ s' => s'.Between) s := by
  unfold runRound
  refine (hs.only (x := Prog.perform Op.loopTest) ⟨trivial, fun _ => trivial⟩).bind fun doRun s₁ hs₁ => ?_
  split
  · refine (enter_holds hs₁ p.nextState).bind fun _ s₂ hs₂ => ?_
    refine (processState_holds cfg fuel { p with state := p.nextState } hs₂).bind fun p s₂ hs₂ => ?_
    split
    · exact (hs₂.only (x := setDoRun true) ⟨trivial, fun _ => trivial⟩).bind fun _ _ hs₃ => hs₃
    · refine (hs₂.only (x := queueEmpty) ⟨trivial, fun _ => trivial⟩).bind fun empty s₃ hs₃ => ?_
      exact (hs₃.only (x := setDoRun _) ⟨trivial, fun _ => trivial⟩).bind fun _ _ hs₄ => hs₄
  · exact hs₁

theorem run_holds (cfg : ProcessorConfig) (fuel : ℕ) (p : Processor) :
    Holds (p.run cfg fuel) (fun _ s' => s'.Between) .initial := by
  have hstart : Session.initial.Between := by
    refine ⟨⟨?_, ?_, ?_, ?_, ?_⟩, ?_⟩ <;> simp [Session.initial, Session.frames, Session.Answered]
  unfold run
  refine (hstart.only (waitForStart_only trivial trivial trivial trivial trivial cfg fuel)).bind
    fun _ s₁ hs₁ => (hs₁.only time_silent).bind fun now s₂ hs₂ => ?_
  refine (Prog.Meets.loop (J := fun _ s => s.Between) (Q := fun _ s => s.Between)
    (fun p s hs => (runRound_holds hs cfg fuel p).mono fun x s' hs' => ?_) fuel hs₂).bind
    fun _ s₃ hs₃ => ?_
  · cases x <;> exact hs'
  refine hs₃.only (Prog.Only.bind ⟨trivial, fun _ => trivial⟩ fun _ => ?_)
  refine (Prog.Only.loop (fun _ => clearRound_only trivial) fuel ()).bind fun _ => ?_
  exact ⟨trivial, fun _ => ⟨trivial, fun _ => trivial⟩⟩

end Processor

/-- In every run the adapter writes no frame while it has not waited for the answer to the last one. In a
capture of the station frames and waits alternate, and there are at most seventeen frames and two for
every command that was taken from the queue. -/
theorem run_halfDuplex (cfg : ProcessorConfig) (fuel : ℕ) (p : Processor) {c : ProcessorM Unit × History}
    (h : (historyEnv Op Res).Reaches (p.run cfg fuel, []) c) : (session c.2).Orderly := by
  have hstart : Session.initial.Orderly := by
    refine ⟨?_, ?_, ?_, ?_, ?_⟩ <;> simp [Session.initial, Session.frames]
  exact (Processor.run_holds cfg fuel p).reaches hstart h (monitored_of_forall (fun _ _ => trivial) _ _)

theorem run_halfDuplex_captured : (session (noticeScript ++ captureScript)).Orderly :=
  run_halfDuplex (unfilteredConfig true) 2 knownProcessor
    (Prog.reaches_of_replay ((noticeScript ++ captureScript).map .answer) rfl)

end Ritex
