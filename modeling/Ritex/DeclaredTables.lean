import Ritex.CommandCompile

/-! `Compile` over any table of declared parameters, those of type `float` among them, and the tests
that a command has to pass. -/
namespace Ritex

/-! ### Declared parameters -/

/-- `additional_parameter_t`; the table of the adapter declares no `float`. -/
inductive DeclaredParameter
  | int (min max : ℤ)
  | float
  | string (value : Text)
  | list (data : List Text) (isInt : Bool)

abbrev DeclaredTable := List (Text × DeclaredParameter)

/-- `compiled_parameter`, over what stands for the type `float`. -/
inductive DeclaredValue (F : Type)
  | int (i : ℤ)
  | float (f : F)
  | string (s : Text)

/-- `strtod` as a `float`, and whether it is 0. -/
structure FloatReader (F : Type) where
  strtod : Text → F
  isZero : F → Bool

structure CompiledOver (F : Type) where
  cmdLineCommandType : CommandType
  parameters : List (Text × DeclaredValue F)
  deviceId : Option ℤ
  cmdId : Option ℤ
  cmdType : Option ℤ

section Compile

variable {F : Type} (reader : FloatReader F)

def compileFloat (src : Text) : Option F :=
  if reader.isZero (reader.strtod src) = true ∧ src.head? ≠ some '0' then none
  else some (reader.strtod src)

/-- A round of the loop of `Compile`, once the description is found. -/
def compileDeclared (value : Text) : DeclaredParameter → Option (DeclaredValue F)
  | .int _ _ => (compileInt value).map .int
  | .float => (compileFloat reader value).map .float
  | .string _ => some (.string value)
  | .list data isInt =>
    if data.contains value then
      if isInt then (compileInt value).map .int else some (.string value)
    else none

/-- The switch at the end of `Compile`. -/
def compileNumbers (fakeId : ℤ) (hasPort : Bool) (c : CmdLineCommand) :
    Option (CommandType × Option ℤ × Option ℤ × Option ℤ) :=
  match c.cmdLineCommandType with
  | some .getAdditionalParameterList => some (.getAdditionalParameterList, none, none, none)
  | some .listCommands => some (.listCommands, none, none, none)
  | some .getConnectedDeviceInfo => some (.getConnectedDeviceInfo, none, none, none)
  | some .showInfo => some (.showInfo, none, none, none)
  | some .getMesurements =>
    (compileInt c.deviceIdRaw).bind fun deviceId =>
      if hasPort then some (.getMesurements, some deviceId, none, none) else none
  | some .command =>
    (compileInt c.deviceIdRaw).bind fun deviceId =>
      (compileInt c.cmdIdRaw).bind fun cmdId =>
        (compileInt c.cmdTypeRaw).map fun cmdType => (.command, some deviceId, some cmdId, some cmdType)
  | some .testDevice => if hasPort then some (.testDevice, some fakeId, none, none) else none
  | some .exit => none
  | none => none

def namesPort {A : Type} (parameters : List (Text × A)) : Bool :=
  (parameters.lookup comdevice).isSome && (parameters.lookup baudrate).isSome

/-- `Compile` over any table of declared parameters. -/
def compileOver (table : DeclaredTable) (fakeId : ℤ) (c : CmdLineCommand) :
    Option (CompiledOver F) := do
  let parameters ← c.additionalParametersRaw.mapM fun entry =>
    ((table.lookup entry.1).bind (compileDeclared reader entry.2)).map (entry.1, ·)
  let (type, deviceId, cmdId, cmdType) ← compileNumbers fakeId (namesPort parameters) c
  return ⟨type, parameters, deviceId, cmdId, cmdType⟩

/-! ### Tables without a `float` -/

def AdditionalParameter.declared : AdditionalParameter → DeclaredParameter
  | .int min max => .int min max
  | .string value => .string value
  | .list data isInt => .list data isInt

def CompiledParameter.declared : CompiledParameter → DeclaredValue F
  | .int i => .int i
  | .string s => .string s

def CompiledCommand.over (cmd : CompiledCommand) : CompiledOver F where
  cmdLineCommandType := cmd.cmdLineCommandType
  parameters := cmd.additionalParameters.map fun entry => (entry.1, entry.2.declared)
  deviceId := cmd.deviceId
  cmdId := cmd.cmdId
  cmdType := cmd.cmdType

theorem lookup_map_snd {A B : Type} (f : A → B) (l : List (Text × A)) (name : Text) :
    (l.map fun entry => (entry.1, f entry.2)).lookup name = (l.lookup name).map f := by
  induction l with
  | nil => rfl
  | cons entry l ih =>
    rw [List.map_cons, List.lookup_cons, List.lookup_cons, ih]
    cases name == entry.1 <;> rfl

theorem compileDeclared_declared (value : Text) (description : AdditionalParameter) :
    compileDeclared reader value description.declared =
      (compileParameter value description).map CompiledParameter.declared := by
  cases description with
  | int min max =>
    simp only [AdditionalParameter.declared, compileDeclared, compileParameter, Option.map_map]
    rfl
  | string text => rfl
  | list data isInt =>
    simp only [AdditionalParameter.declared, compileDeclared, compileParameter, List.contains_iff_mem]
    split_ifs with hmem hint
    · rw [Option.map_map]
      rfl
    · rfl
    · rfl

theorem compile_eq (map : AdditionalParameterMap) (fakeId : ℤ) (c : CmdLineCommand) :
    c.compile map fakeId = (c.additionalParametersRaw.mapM (compileEntry map)).bind fun parameters =>
      (compileNumbers fakeId (hasPort parameters) c).map fun (type, deviceId, cmdId, cmdType) =>
        ⟨c, type, parameters, deviceId, cmdId, cmdType⟩ := by
  unfold CmdLineCommand.compile compileNumbers
  refine Option.bind_congr fun parameters _ => ?_
  cases c.cmdLineCommandType with
  | none => rfl
  | some type =>
    cases type with
    | getMesurements =>
      cases compileInt c.deviceIdRaw with
      | none => rfl
      | some deviceId =>
        simp only [Option.bind_eq_bind, Option.bind_some]
        split_ifs <;> rfl
    | command =>
      cases compileInt c.deviceIdRaw with
      | none => rfl
      | some deviceId =>
        cases compileInt c.cmdIdRaw with
        | none => rfl
        | some cmdId => cases compileInt c.cmdTypeRaw <;> rfl
    | testDevice =>
      simp only
      split_ifs <;> rfl
    | _ => rfl

theorem mapM_map_eq {A B C : Type} {f : A → Option B} {g : A → Option C} {φ : B → C}
    (h : ∀ a, g a = (f a).map φ) (l : List A) : l.mapM g = (l.mapM f).map (List.map φ) := by
  induction l with
  | nil => rfl
  | cons a l ih =>
    rw [List.mapM_cons, List.mapM_cons, ih, h]
    cases f a with
    | none => rfl
    | some b => cases l.mapM f <;> rfl

theorem compileEntry_declared (map : AdditionalParameterMap) (entry : Text × Text) :
    (((map.map fun e => (e.1, e.2.declared)).lookup entry.1).bind
      (compileDeclared reader entry.2)).map (entry.1, ·) =
    (compileEntry map entry).map fun e => (e.1, e.2.declared) := by
  simp only [compileEntry_eq, lookup_map_snd]
  cases map.lookup entry.1 with
  | none => rfl
  | some description =>
    simp only [Option.map_some, Option.bind_some, compileDeclared_declared, Option.map_map]
    rfl

/-- Over the tables that the model of the adapter knows, it is the `Compile` of the model. -/
theorem compileOver_declared (map : AdditionalParameterMap) (fakeId : ℤ) (c : CmdLineCommand) :
    compileOver reader (map.map fun e => (e.1, e.2.declared)) fakeId c =
      (c.compile map fakeId).map CompiledCommand.over := by
  rw [compile_eq, compileOver, mapM_map_eq (compileEntry_declared reader map)]
  cases c.additionalParametersRaw.mapM (compileEntry map) with
  | none => rfl
  | some parameters =>
    have hport : namesPort (parameters.map fun entry =>
        (entry.1, (entry.2.declared : DeclaredValue F))) = hasPort parameters := by
      rw [namesPort, lookup_map_snd, lookup_map_snd, Option.isSome_map, Option.isSome_map, hasPort]
    simp only [Option.map_some, Option.bind_eq_bind, Option.bind_some, hport]
    cases compileNumbers fakeId (hasPort parameters) c <;> rfl

/-! ### What is accepted -/

/-- The test of `CompileInt`. -/
def NumberTaken (s : Text) : Prop := strtol s ≠ 0 ∨ s.head? = some '0'

theorem compileInt_isSome_iff (s : Text) : (compileInt s).isSome = true ↔ NumberTaken s := by
  unfold compileInt NumberTaken
  split_ifs with h
  · simpa using h
  · rw [not_and_or, not_not] at h
    simpa using h

def DeclaredParameter.Takes (text : Text) : DeclaredParameter → Prop
  | .int _ _ => NumberTaken text
  | .float => reader.isZero (reader.strtod text) = false ∨ text.head? = some '0'
  | .string _ => True
  | .list data isInt => text ∈ data ∧ (isInt = true → NumberTaken text)

theorem compileDeclared_isSome_iff (text : Text) (description : DeclaredParameter) :
    (compileDeclared reader text description).isSome = true ↔ description.Takes reader text := by
  cases description with
  | int min max =>
    rw [compileDeclared, Option.isSome_map, compileInt_isSome_iff]
    rfl
  | float =>
    rw [compileDeclared, Option.isSome_map, compileFloat, DeclaredParameter.Takes]
    split_ifs with h
    · simpa using h
    · rw [not_and_or, not_not, Bool.not_eq_true] at h
      simpa using h
  | string value => simp [compileDeclared, DeclaredParameter.Takes]
  | list data isInt =>
    rw [compileDeclared, DeclaredParameter.Takes]
    by_cases hmem : text ∈ data
    · cases isInt <;> simp [hmem, compileInt_isSome_iff]
    · simp [hmem]

/-- The texts that are compiled for the type of the command. -/
def numberTexts (c : CmdLineCommand) : List Text :=
  match c.cmdLineCommandType with
  | some .getMesurements => [c.deviceIdRaw]
  | some .command => [c.deviceIdRaw, c.cmdIdRaw, c.cmdTypeRaw]
  | _ => []

/-- Types that are compiled with a port only. -/
def NeedsPort (c : CmdLineCommand) : Prop :=
  c.cmdLineCommandType = some .getMesurements ∨ c.cmdLineCommandType = some .testDevice

/-- The tests of `Compile`. -/
structure Compilable (table : DeclaredTable) (c : CmdLineCommand) : Prop where
  parameters : ∀ entry ∈ c.additionalParametersRaw, ∃ description,
    table.lookup entry.1 = some description ∧ description.Takes reader entry.2
  numbers : ∀ text ∈ numberTexts c, NumberTaken text
  port : NeedsPort c → namesPort c.additionalParametersRaw = true
  type : ∃ type, c.cmdLineCommandType = some type ∧ type ≠ .exit

theorem compileNumbers_isSome_iff (fakeId : ℤ) (hasPort : Bool) (c : CmdLineCommand) :
    (compileNumbers fakeId hasPort c).isSome = true ↔ (∀ text ∈ numberTexts c, NumberTaken text) ∧
      (NeedsPort c → hasPort = true) ∧ ∃ type, c.cmdLineCommandType = some type ∧ type ≠ .exit := by
  unfold compileNumbers numberTexts NeedsPort
  cases c.cmdLineCommandType with
  | none => simp
  | some type =>
    cases type with
    | getMesurements =>
      rw [List.forall_mem_singleton, ← compileInt_isSome_iff]
      cases compileInt c.deviceIdRaw with
      | none => simp
      | some deviceId => cases hasPort <;> simp
    | command =>
      rw [List.forall_mem_cons, List.forall_mem_cons, List.forall_mem_singleton, ← compileInt_isSome_iff,
        ← compileInt_isSome_iff, ← compileInt_isSome_iff]
      cases compileInt c.deviceIdRaw with
      | none => simp
      | some deviceId =>
        cases compileInt c.cmdIdRaw with
        | none => simp
        | some cmdId => simp
    | testDevice => cases hasPort <;> simp
    | _ => simp

theorem isSome_mapM_iff {A B : Type} (f : A → Option B) (l : List A) :
    (l.mapM f).isSome = true ↔ ∀ a ∈ l, (f a).isSome = true := by
  induction l with
  | nil => simp
  | cons a l ih =>
    rw [List.mapM_cons, List.forall_mem_cons, ← ih]
    cases f a with
    | none => simp
    | some b => cases l.mapM f <;> simp

/-- The names stay. -/
theorem isSome_lookup_mapM {A : Type} {f : Text → Text → Option A} {raw : List (Text × Text)}
    {parameters : List (Text × A)}
    (h : raw.mapM (fun entry => (f entry.1 entry.2).map (entry.1, ·)) = some parameters) (name : Text) :
    (parameters.lookup name).isSome = (raw.lookup name).isSome := by
  induction raw generalizing parameters with
  | nil =>
    cases h
    rfl
  | cons entry raw ih =>
    obtain ⟨value, rest, -, rfl, hrest⟩ := mapM_entries_cons h
    rw [List.lookup_cons, List.lookup_cons]
    cases name == entry.1 with
    | true => rfl
    | false => exact ih hrest

theorem compileOver_eq_some_iff (table : DeclaredTable) (fakeId : ℤ) (c : CmdLineCommand)
    (cmd : CompiledOver F) : compileOver reader table fakeId c = some cmd ↔
      c.additionalParametersRaw.mapM (fun entry =>
        ((table.lookup entry.1).bind (compileDeclared reader entry.2)).map (entry.1, ·)) =
        some cmd.parameters ∧
      compileNumbers fakeId (namesPort c.additionalParametersRaw) c =
        some (cmd.cmdLineCommandType, cmd.deviceId, cmd.cmdId, cmd.cmdType) := by
  unfold compileOver
  cases hparameters : c.additionalParametersRaw.mapM (fun entry =>
      ((table.lookup entry.1).bind (compileDeclared reader entry.2)).map (entry.1, ·)) with
  | none => simp
  | some parameters =>
    have hport : namesPort parameters = namesPort c.additionalParametersRaw := by
      have hname := isSome_lookup_mapM
        (f := fun name text => (table.lookup name).bind (compileDeclared reader text)) hparameters
      rw [namesPort, namesPort, hname, hname]
    rw [Option.bind_eq_bind, Option.bind_some, hport]
    cases compileNumbers fakeId (namesPort c.additionalParametersRaw) c with
    | none => simp
    | some numbers =>
      obtain ⟨type, deviceId, cmdId, cmdType⟩ := numbers
      obtain ⟨type', parameters', deviceId', cmdId', cmdType'⟩ := cmd
      simp only [Option.bind_eq_bind, Option.bind_some, Option.pure_def, Option.some.injEq,
        CompiledOver.mk.injEq, Prod.mk.injEq]
      tauto

theorem exists_compileOver_iff (table : DeclaredTable) (fakeId : ℤ) (c : CmdLineCommand) :
    (∃ cmd, compileOver reader table fakeId c = some cmd) ↔ Compilable reader table c := by
  have hparameters : (c.additionalParametersRaw.mapM fun entry =>
      ((table.lookup entry.1).bind (compileDeclared reader entry.2)).map (entry.1, ·)).isSome = true ↔
      ∀ entry ∈ c.additionalParametersRaw, ∃ description,
        table.lookup entry.1 = some description ∧ description.Takes reader entry.2 := by
    rw [isSome_mapM_iff]
    refine forall₂_congr fun entry _ => ?_
    rw [Option.isSome_map]
    cases table.lookup entry.1 with
    | none => simp
    | some description => simp [compileDeclared_isSome_iff]
  have hnumbers := compileNumbers_isSome_iff fakeId (namesPort c.additionalParametersRaw) c
  constructor
  · rintro ⟨cmd, hcmd⟩
    obtain ⟨hfirst, hlast⟩ := (compileOver_eq_some_iff reader table fakeId c cmd).mp hcmd
    obtain ⟨htexts, hport, htype⟩ := hnumbers.mp (Option.isSome_of_eq_some hlast)
    exact ⟨hparameters.mp (Option.isSome_of_eq_some hfirst), htexts, hport, htype⟩
  · intro h
    obtain ⟨parameters, hfirst⟩ := Option.isSome_iff_exists.mp (hparameters.mpr h.parameters)
    obtain ⟨⟨type, deviceId, cmdId, cmdType⟩, hlast⟩ :=
      Option.isSome_iff_exists.mp (hnumbers.mpr ⟨h.numbers, h.port, h.type⟩)
    exact ⟨⟨type, parameters, deviceId, cmdId, cmdType⟩,
      (compileOver_eq_some_iff reader table fakeId c _).mpr ⟨hfirst, hlast⟩⟩

end Compile

end Ritex
