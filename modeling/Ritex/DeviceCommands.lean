import Ritex.CommandCompile
import Ritex.ServerThread

/-! `RitexDevice::CreateCommand` and the `Execute` of the commands that it creates. -/
namespace Ritex

/-! ### External commands -/

/-- What an argument of a list carries: one of the templates. -/
abbrev Template := { t : CmdTemplate // t ∈ (settingTemplates ++ engineTemplates).map Prod.snd }

inductive AdapterCommandArg
  | list (values : List (ℤ × Template))
  | float

structure AdapterCommand where
  cmdType : ℤ
  args : List AdapterCommandArg

def templateValues (templates : List (ℤ × CmdTemplate))
    (h : ∀ row ∈ templates, row ∈ settingTemplates ++ engineTemplates) : List (ℤ × Template) :=
  templates.attach.map fun row => (row.1.1, ⟨row.1.2, List.mem_map_of_mem (h row.1 row.2)⟩)

/-- "Изменить уставку". -/
def changeSetting : AdapterCommand where
  cmdType := 24
  args := [.list (templateValues settingTemplates fun _ h => List.mem_append_left _ h), .float]

/-- "Управление ВД". -/
def engineControl : AdapterCommand where
  cmdType := 2
  args := [.list (templateValues engineTemplates fun _ h => List.mem_append_right _ h)]

def externaCommandList : List AdapterCommand := [changeSetting, engineControl]

def findTemplate (command : AdapterCommand) (id : ℤ) : Option Template :=
  match command.args with
  | .list values :: _ => values.lookup id
  | _ => none

/-! ### Commands of the server -/

inductive ServerCommand
  | showInfo
  | showParameters
  | getAdditionalParameters
  | getSupportedCommands
  | startMeasurement (commport : Text) (speed : Option ℤ)
  | testDevice (commport : Text) (speed : Option ℤ)
  | external (command : CmdExternal) (commport : Text) (speed : Option ℤ)

/-- What a function that makes a command leaves behind. -/
inductive Creation
  | created (command : ServerCommand)
  | null
  /-- An assertion fails, or a null pointer is followed. -/
  | aborted

/-- `CreateExternalCommand`; `atof` is the number of a text as an `unsigned short`. -/
def createExternalCommand (atof : Text → Word) (cmd : CompiledCommand) : Creation :=
  let params := split '~' cmd.raw.messageRaw
  if 0 < cmd.cmdType.getD 0 then
    match externaCommandList.find? fun command => command.cmdType == cmd.cmdType.getD 0 with
    | none => .aborted
    | some command =>
      if command.args.length = params.length then
        match findTemplate command (strtol (params.getD 0 [])) with
        | none => .aborted
        | some template => .created (.external
            { template := template.1
              param2 := if 1 < command.args.length then atof (params.getD 1 []) else 0
              sourceRaw := String.ofList cmd.raw.sourceRaw
              cmdIdRaw := String.ofList cmd.raw.cmdIdRaw
              template_mem := template.2 }
            (cmd.getString comdevice []) (cmd.getInt baudrate))
      else .aborted
  else .aborted

def createCommand (atof : Text → Word) (cmd : CompiledCommand) : Creation :=
  match cmd.cmdLineCommandType with
  | .getMesurements => .created (.startMeasurement (cmd.getString comdevice []) (cmd.getInt baudrate))
  | .testDevice => .created (.testDevice (cmd.getString comdevice []) (cmd.getInt baudrate))
  | .command => createExternalCommand atof cmd
  | .showInfo => .created .showInfo
  | .getConnectedDeviceInfo => .created .showParameters
  | .getAdditionalParameterList => .created .getAdditionalParameters
  | .listCommands => .created .getSupportedCommands
  | .exit => .null

structure DeviceState where
  /-- The processor has opened its port. -/
  isRunning : Bool
  /-- The thread of the processor runs in one-shot mode: it ends, and the server with it. -/
  isOneShot : Bool
  timeDiviation : ℤ
  deriving DecidableEq

/-- `CreateCommand` takes over `sync_time`; `GetParameter` returns false in any case, so that the
minutes are never made seconds. -/
def DeviceState.synchronised (device : DeviceState) (cmd : CompiledCommand) : DeviceState :=
  match cmd.cmdLineCommandType, cmd.getInt syncTime with
  | .getMesurements, some minutes => { device with timeDiviation := minutes }
  | _, _ => device

/-! ### Execution -/

/-- What the server does not decide: `rand`, `time`, the bytes behind its buffer, and whether the
port is opened and the thread created. -/
structure Circumstances where
  fakeId : ℤ
  now : ℤ
  beyond : List Byte
  isOpened : Bool
  isCreated : Bool

inductive Execution
  | failed
  /-- It returns true and has notified its listeners. -/
  | notified
  | queued (c : CustomCommand)
  /-- It returns true and that is all. -/
  | nothing
  deriving DecidableEq

/-- `Create` of a processor that does not run. -/
def DeviceState.create (device : DeviceState) (x : Circumstances) (oneShot : Bool) :
    Bool × DeviceState :=
  if x.isOpened then
    (x.isCreated, { device with isRunning := true, isOneShot := oneShot && x.isCreated })
  else (false, device)

def customCommand (commandClass : CommandClass) (packet : DataPacket) : CustomCommand :=
  ⟨packet, ⟨commandClass, [ShutdownWorld.serverListener]⟩⟩

def startMesurements (device : DeviceState) (x : Circumstances) : Bool × DeviceState :=
  if device.isRunning then (false, device) else device.create x false

/-- `TestDevice`: what it queues. -/
def testDevice (device : DeviceState) (x : Circumstances) : Option CustomCommand × DeviceState :=
  if device.isRunning then (none, device)
  else
    let (result, device) := device.create x true
    (if result then some (customCommand .testDevice (testDevicePacket x.now)) else none, device)

def executeCustomCommand (device : DeviceState) (x : Circumstances) (cmd : CmdExternal) :
    Option CustomCommand × DeviceState :=
  match customCommandPacket (cmd.cmdId.setWidth 8) cmd.param1 cmd.param2 x.now with
  | none => (none, device)
  | some packet =>
    if device.isRunning then (some (customCommand (.external cmd) packet), device)
    else
      let (result, device) := device.create x true
      (if result then some (customCommand (.external cmd) packet) else none, device)

def execute (device : DeviceState) (x : Circumstances) : ServerCommand → Execution × DeviceState
  | .showInfo => (.nothing, device)
  | .showParameters => (.nothing, device)
  | .getAdditionalParameters => (.nothing, device)
  | .getSupportedCommands => (.failed, device)
  | .startMeasurement _ _ =>
    let (result, device) := startMesurements device x
    (if result then .notified else .failed, device)
  | .testDevice _ _ =>
    -- `Execute` returns true whatever `TestDevice` returns.
    let (command, device) := testDevice device x
    (match command with | some c => .queued c | none => .nothing, device)
  | .external cmd _ _ =>
    let (command, device) := executeCustomCommand device x cmd
    (match command with | some c => .queued c | none => .failed, device)

/-! ### Known commands -/

/-- The command is one of the device's, with as many arguments as it takes and a number that its
first argument lists. -/
def KnownCommand (cmd : CompiledCommand) : Prop :=
  ∃ command, externaCommandList.find? (fun command => command.cmdType == cmd.cmdType.getD 0) =
      some command ∧
    command.args.length = (split '~' cmd.raw.messageRaw).length ∧
    (findTemplate command (strtol ((split '~' cmd.raw.messageRaw).getD 0 []))).isSome = true

theorem externaCommandList_positive : ∀ command ∈ externaCommandList, 0 < command.cmdType := by
  unfold externaCommandList
  simp [changeSetting, engineControl]

theorem cmdType_of_find {cmd : CompiledCommand} {command : AdapterCommand}
    (hfind : externaCommandList.find? (fun command => command.cmdType == cmd.cmdType.getD 0) =
      some command) : 0 < cmd.cmdType.getD 0 := by
  have hmem := externaCommandList_positive command (List.mem_of_find?_eq_some hfind)
  have htype := List.find?_some hfind
  rwa [beq_iff_eq.mp htype] at hmem

/-- The template of a known command goes into the command that is created. -/
theorem createExternalCommand_known (atof : Text → Word) {cmd : CompiledCommand}
    {command : AdapterCommand} (hfind : externaCommandList.find? (fun command => command.cmdType == cmd.cmdType.getD 0) =
      some command)
    (hlength : command.args.length = (split '~' cmd.raw.messageRaw).length) {template : Template}
    (htemplate : findTemplate command (strtol ((split '~' cmd.raw.messageRaw).getD 0 [])) =
      some template) :
    ∃ e, createExternalCommand atof cmd =
      .created (.external e (cmd.getString comdevice []) (cmd.getInt baudrate)) ∧
      e.template = template.1 ∧
      e.param2 =
        if 1 < command.args.length then atof ((split '~' cmd.raw.messageRaw).getD 1 []) else 0 := by
  unfold createExternalCommand
  simp only [if_pos (cmdType_of_find hfind), hfind, if_pos hlength, htemplate]
  exact ⟨_, rfl, rfl, rfl⟩

theorem createExternalCommand_unknown (atof : Text → Word) {cmd : CompiledCommand}
    (h : ¬ KnownCommand cmd) : createExternalCommand atof cmd = .aborted := by
  unfold createExternalCommand
  dsimp only
  split
  next =>
    split
    next => rfl
    next command hfind =>
      split
      next hlength =>
        split
        next => rfl
        next template htemplate => exact absurd ⟨command, hfind, hlength, by rw [htemplate]; rfl⟩ h
      next => rfl
  next => rfl

theorem createExternalCommand_cases (atof : Text → Word) (cmd : CompiledCommand) :
    (KnownCommand cmd ∧ ∃ c, createExternalCommand atof cmd =
      .created (.external c (cmd.getString comdevice []) (cmd.getInt baudrate))) ∨
    (¬ KnownCommand cmd ∧ createExternalCommand atof cmd = .aborted) := by
  by_cases h : KnownCommand cmd
  · obtain ⟨command, hfind, hlength, hsome⟩ := h
    obtain ⟨template, htemplate⟩ := Option.isSome_iff_exists.mp hsome
    obtain ⟨e, he, -, -⟩ := createExternalCommand_known atof hfind hlength htemplate
    exact .inl ⟨⟨command, hfind, hlength, hsome⟩, e, he⟩
  · exact .inr ⟨h, createExternalCommand_unknown atof h⟩

end Ritex
