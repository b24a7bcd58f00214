import Ritex.DeviceCommands

/-! When `CreateExternalCommand` is safe: the type and the message of a command are texts of another
process, and `Compile` never looks at the message. -/
namespace Ritex

/-- The template stands in the list of the first argument. -/
def AdapterCommand.Offers (command : AdapterCommand) (template : CmdTemplate) : Prop :=
  ∃ values, command.args.head? = some (.list values) ∧ ∃ value ∈ values, value.2.1 = template

/-- Null, or a command with a template of the command whose type is asked for. -/
def SafelyCreated (cmd : CompiledCommand) : Creation → Prop
  | .created (.external e _ _) =>
    ∃ command ∈ externaCommandList, cmd.cmdType = some command.cmdType ∧ command.Offers e.template
  | .null => True
  | _ => False

/-- A command of a client that the server takes to `CreateExternalCommand`. -/
structure ReachesCreation (fakeId : ℤ) (tokens : List OptionToken) (cmd : CompiledCommand) : Prop where
  compiled : ∃ c, Parsing.run {} tokens = some c ∧ c.compile additionalParameterMap fakeId = some cmd
  isCommand : cmd.cmdLineCommandType = .command

/-- The message gives the arguments of the command with this type, and the first one is a number of
its list. -/
def NamesTemplate (type : ℤ) (message : Text) : Prop :=
  (type = 24 ∧ ∃ id value, split '~' message = [id, value] ∧ ∃ row ∈ allSettings, row.id = strtol id) ∨
  (type = 2 ∧ ∃ id, split '~' message = [id] ∧ 1 ≤ strtol id ∧ strtol id ≤ 6)

theorem findTemplate_offers {command : AdapterCommand} {id : ℤ} {template : Template}
    (h : findTemplate command id = some template) : command.Offers template.1 := by
  unfold findTemplate at h
  split at h
  next values rest heq =>
    obtain ⟨before, behind, rfl, -⟩ := List.lookup_eq_some_iff.mp h
    exact ⟨_, by rw [heq, List.head?_cons], (id, template), by simp, rfl⟩
  next => cases h

theorem lookup_templateValues_isSome_iff {templates : List (ℤ × CmdTemplate)}
    (h : ∀ row ∈ templates, row ∈ settingTemplates ++ engineTemplates) (id : ℤ) :
    ((templateValues templates h).lookup id).isSome = true ↔ ∃ row ∈ templates, row.1 = id := by
  rw [List.lookup_isSome_iff]
  simp only [templateValues, List.mem_map, List.mem_attach, true_and, beq_iff_eq]
  constructor
  · rintro ⟨_, ⟨row, rfl⟩, hid⟩
    exact ⟨row.1, row.2, hid.symm⟩
  · rintro ⟨row, hrow, rfl⟩
    exact ⟨_, ⟨⟨row, hrow⟩, rfl⟩, rfl⟩

theorem findTemplate_changeSetting_isSome_iff (id : ℤ) :
    (findTemplate changeSetting id).isSome = true ↔ ∃ row ∈ allSettings, row.id = id := by
  have hlist : findTemplate changeSetting id = (templateValues settingTemplates
      fun _ h => List.mem_append_left _ h).lookup id := rfl
  rw [hlist, lookup_templateValues_isSome_iff]
  simp [settingTemplates]

theorem findTemplate_engineControl_isSome_iff (id : ℤ) :
    (findTemplate engineControl id).isSome = true ↔ 1 ≤ id ∧ id ≤ 6 := by
  have hlist : findTemplate engineControl id = (templateValues engineTemplates
      fun _ h => List.mem_append_right _ h).lookup id := rfl
  rw [hlist, lookup_templateValues_isSome_iff]
  simp only [engineTemplates, List.mem_cons, List.not_mem_nil, or_false, exists_eq_or_imp,
    exists_eq_left]
  omega

/-- The command of a type; the list has two. -/
theorem find_externaCommandList (type : ℤ) :
    externaCommandList.find? (fun command => command.cmdType == type) =
      if type = 24 then some changeSetting else if type = 2 then some engineControl else none := by
  have hsetting : (changeSetting.cmdType == type) = decide (type = 24) := by
    simp [changeSetting, eq_comm, beq_eq_decide]
  have hengine : (engineControl.cmdType == type) = decide (type = 2) := by
    simp [engineControl, eq_comm, beq_eq_decide]
  rw [externaCommandList, List.find?_cons, List.find?_cons, hsetting, hengine, List.find?_nil]
  by_cases h24 : type = 24
  · simp [h24]
  · by_cases h2 : type = 2
    · simp [h2]
    · simp [h24, h2]

/-- Creating is safe where the command is known; elsewhere it aborts. -/
theorem safelyCreated_iff (atof : Text → Word) {cmd : CompiledCommand}
    (htype : cmd.cmdType.isSome = true) :
    SafelyCreated cmd (createExternalCommand atof cmd) ↔ KnownCommand cmd := by
  constructor
  · intro h
    by_contra hunknown
    rw [createExternalCommand_unknown atof hunknown] at h
    exact h
  · rintro ⟨command, hfind, hlength, hsome⟩
    obtain ⟨template, htemplate⟩ := Option.isSome_iff_exists.mp hsome
    obtain ⟨e, he, hcarries, -⟩ := createExternalCommand_known atof hfind hlength htemplate
    obtain ⟨type, hcmdType⟩ := Option.isSome_iff_exists.mp htype
    have hmatch := List.find?_some hfind
    rw [hcmdType, Option.getD_some, beq_iff_eq] at hmatch
    rw [he]
    refine ⟨command, List.mem_of_find?_eq_some hfind, ?_, ?_⟩
    · rw [hcmdType, hmatch]
    · rw [hcarries]
      exact findTemplate_offers htemplate

/-- The two commands that there are, with the messages that they take. -/
theorem knownCommand_iff {cmd : CompiledCommand} {type : ℤ} (htype : cmd.cmdType = some type) :
    KnownCommand cmd ↔ NamesTemplate type cmd.raw.messageRaw := by
  have hother : ¬(24 : ℤ) = 2 := by decide
  unfold KnownCommand NamesTemplate
  simp only [htype, Option.getD_some, find_externaCommandList]
  by_cases h24 : type = 24
  · subst h24
    have hargs : changeSetting.args.length = 2 := rfl
    simp only [if_true, Option.some.injEq, exists_eq_left', hargs, hother, true_and, false_and,
      or_false]
    rw [eq_comm, List.length_eq_two, findTemplate_changeSetting_isSome_iff]
    constructor
    · rintro ⟨⟨id, value, hsplit⟩, hrow⟩
      rw [hsplit] at hrow
      exact ⟨id, value, hsplit, hrow⟩
    · rintro ⟨id, value, hsplit, hrow⟩
      refine ⟨⟨id, value, hsplit⟩, ?_⟩
      rwa [hsplit]
  by_cases h2 : type = 2
  · subst h2
    have hargs : engineControl.args.length = 1 := rfl
    simp only [h24, if_false, if_true, Option.some.injEq, exists_eq_left', hargs, false_and, true_and,
      false_or]
    rw [eq_comm, List.length_eq_one_iff, findTemplate_engineControl_isSome_iff]
    constructor
    · rintro ⟨⟨id, hsplit⟩, hid⟩
      rw [hsplit] at hid
      exact ⟨id, hsplit, hid⟩
    · rintro ⟨id, hsplit, hid⟩
      refine ⟨⟨id, hsplit⟩, ?_⟩
      rwa [hsplit]
  · simp [h24, h2]

/-- A command that `Parse` and `Compile` accept is safe to create if and only if its type is one of
the two and its message gives the arguments of that command. -/
theorem createExternalCommand_safe_iff (atof : Text → Word) {fakeId : ℤ} {tokens : List OptionToken}
    {cmd : CompiledCommand} (h : ReachesCreation fakeId tokens cmd) :
    SafelyCreated cmd (createExternalCommand atof cmd) ↔
      NamesTemplate (strtol cmd.raw.cmdTypeRaw) cmd.raw.messageRaw := by
  obtain ⟨c, -, hcompile⟩ := h.compiled
  have hcompiled := CmdLineCommand.compile_compiled hcompile
  have hnumbers := hcompiled.numbers
  rw [h.isCommand] at hnumbers
  simp only [CmdLineCommand.compiledNumbers, Prod.mk.injEq] at hnumbers
  obtain ⟨type, htype⟩ := Option.isSome_iff_exists.mp (hcompiled.command h.isCommand).2.2
  have hstrtol : strtol cmd.raw.cmdTypeRaw = type := by
    rw [hcompiled.raw]
    exact compileInt_eq_some (hnumbers.2.2.symm.trans htype)
  rw [hstrtol, safelyCreated_iff atof (hcompiled.command h.isCommand).2.2]
  exact knownCommand_iff htype

/-! ### A message without its second argument -/

/-- What `getopt` makes of a command with this type and this message. -/
def commandTokens (type message : Text) : List OptionToken :=
  [.long optIndexCmd, .argument "5".toList, .argument type, .argument message, .argument "scada".toList,
   .argument "17".toList, .long optIndexSp, .argument "/opt".toList,
   .short 'a', .argument comdevice, .argument "/dev/ttySC0".toList,
   .short 'a', .argument baudrate, .argument "9600".toList]

def commandOf (type message : Text) : CmdLineCommand where
  cmdLineCommandType := some .command
  scriptPathRaw := "/opt".toList
  deviceIdRaw := "5".toList
  cmdTypeRaw := type
  messageRaw := message
  sourceRaw := "scada".toList
  cmdIdRaw := "17".toList
  additionalParametersRaw := [(comdevice, "/dev/ttySC0".toList), (baudrate, "9600".toList)]

def compiledCommandOf (type message : Text) : CompiledCommand where
  raw := commandOf type message
  cmdLineCommandType := .command
  additionalParameters := [(comdevice, .string "/dev/ttySC0".toList), (baudrate, .int 9600)]
  deviceId := some 5
  cmdId := some 17
  cmdType := some (strtol type)

theorem commandOf_reaches {type message : Text}
    (hparse : Parsing.run {} (commandTokens type message) = some (commandOf type message))
    (hcompile : (commandOf type message).compile additionalParameterMap 0 =
      some (compiledCommandOf type message)) :
    ReachesCreation 0 (commandTokens type message) (compiledCommandOf type message) :=
  ⟨⟨_, hparse, hcompile⟩, rfl⟩

theorem createExternalCommand_safe_engine :
    SafelyCreated (compiledCommandOf "2".toList "1".toList)
      (createExternalCommand (fun _ => 0) (compiledCommandOf "2".toList "1".toList)) := by
  have hreaches : ReachesCreation 0 (commandTokens "2".toList "1".toList) _ :=
    commandOf_reaches (by decide +kernel) (by decide +kernel)
  refine (createExternalCommand_safe_iff (fun _ => 0) hreaches).mpr (Or.inr ⟨by decide, "1".toList, ?_⟩)
  decide

theorem createExternalCommand_safe_false : ¬∀ (atof : Text → Word) (fakeId : ℤ)
    (tokens : List OptionToken) (cmd : CompiledCommand), ReachesCreation fakeId tokens cmd →
    SafelyCreated cmd (createExternalCommand atof cmd) := by
  intro hall
  have hreaches : ReachesCreation 0 (commandTokens "24".toList "101".toList) _ :=
    commandOf_reaches (by decide +kernel) (by decide +kernel)
  have haborted : createExternalCommand (fun _ => 0)
      (compiledCommandOf "24".toList "101".toList) = .aborted := rfl
  have hcreated := hall (fun _ => 0) _ _ _ hreaches
  rwa [haborted] at hcreated

end Ritex
