import Ritex.CommandLine

/-! `CmdLineCommand::Compile`: the numbers of a command and its additional parameters, which have to be
those that the adapter knows. -/
namespace Ritex

/-- `isspace` in the C locale. -/
def isSpace (c : Char) : Bool :=
  c == ' ' || c == '\t' || c == '\n' || c == '\x0B' || c == '\x0C' || c == '\r'

def leadingNumber (s : Text) : ℕ :=
  (s.takeWhile Char.isDigit).foldl (fun n c => 10 * n + (c.toNat - '0'.toNat)) 0

def clampLong (i : ℤ) : ℤ := max (-2 ^ 31) (min i (2 ^ 31 - 1))

def strtol (s : Text) : ℤ :=
  match s.dropWhile isSpace with
  | '-' :: digits => clampLong (-leadingNumber digits)
  | '+' :: digits => clampLong (leadingNumber digits)
  | digits => clampLong (leadingNumber digits)

/-- `CompileInt`: the number 0 has to begin with its digit. -/
def compileInt (src : Text) : Option ℤ :=
  if strtol src = 0 ∧ src.head? ≠ some '0' then none else some (strtol src)

theorem compileInt_eq_some {s : Text} {i : ℤ} (h : compileInt s = some i) : strtol s = i := by
  unfold compileInt at h
  split at h
  · cases h
  · exact Option.some.inj h

inductive AdditionalParameter
  | int (min max : ℤ)
  | string (value : Text)
  /-- A list of texts; `isInt` is its `dataType`. -/
  | list (data : List Text) (isInt : Bool)
  deriving DecidableEq

abbrev AdditionalParameterMap := List (Text × AdditionalParameter)

inductive CompiledParameter
  | int (i : ℤ)
  | string (s : Text)
  deriving DecidableEq

/-- The value of a parameter against its description; the range of a number is not looked at. -/
def compileParameter (value : Text) : AdditionalParameter → Option CompiledParameter
  | .int _ _ => (compileInt value).map .int
  | .string _ => some (.string value)
  | .list data isInt =>
    if value ∈ data then
      if isInt then (compileInt value).map .int else some (.string value)
    else none

def compileEntry (map : AdditionalParameterMap) (entry : Text × Text) :
    Option (Text × CompiledParameter) := do
  let description ← map.lookup entry.1
  let value ← compileParameter entry.2 description
  return (entry.1, value)

/-- A compiled `CmdLineCommand`. Numbers that `Compile` does not set are `none`. -/
structure CompiledCommand where
  raw : CmdLineCommand
  cmdLineCommandType : CommandType
  additionalParameters : List (Text × CompiledParameter)
  deviceId : Option ℤ := none
  cmdId : Option ℤ := none
  cmdType : Option ℤ := none
  deriving DecidableEq

namespace CompiledCommand

/-- `GetParameter` of a text; a text that is not given keeps the value of before. -/
def getString (c : CompiledCommand) (name : Text) (value : Text) : Text :=
  match c.additionalParameters.lookup name with
  | some (.string s) => s
  | _ => value

def getInt (c : CompiledCommand) (name : Text) : Option ℤ :=
  match c.additionalParameters.lookup name with
  | some (.int i) => some i
  | _ => none

end CompiledCommand

def comdevice : Text := "comdevice".toList
def baudrate : Text := "baudrate".toList
def syncTime : Text := "sync_time".toList

def hasPort (parameters : List (Text × CompiledParameter)) : Bool :=
  (parameters.lookup comdevice).isSome && (parameters.lookup baudrate).isSome

namespace CmdLineCommand

/-- `Compile`; `fakeId` is what `rand` returns. -/
def compile (map : AdditionalParameterMap) (fakeId : ℤ) (c : CmdLineCommand) :
    Option CompiledCommand := do
  let parameters ← c.additionalParametersRaw.mapM (compileEntry map)
  match c.cmdLineCommandType with
  | some .getAdditionalParameterList => return ⟨c, .getAdditionalParameterList, parameters, none, none, none⟩
  | some .listCommands => return ⟨c, .listCommands, parameters, none, none, none⟩
  | some .getConnectedDeviceInfo => return ⟨c, .getConnectedDeviceInfo, parameters, none, none, none⟩
  | some .showInfo => return ⟨c, .showInfo, parameters, none, none, none⟩
  | some .getMesurements =>
    let deviceId ← compileInt c.deviceIdRaw
    if hasPort parameters then return ⟨c, .getMesurements, parameters, some deviceId, none, none⟩
    else none
  | some .command =>
    let deviceId ← compileInt c.deviceIdRaw
    let cmdId ← compileInt c.cmdIdRaw
    let cmdType ← compileInt c.cmdTypeRaw
    return ⟨c, .command, parameters, some deviceId, some cmdId, some cmdType⟩
  | some .testDevice =>
    if hasPort parameters then return ⟨c, .testDevice, parameters, some fakeId, none, none⟩
    else none
  | some .exit => none
  -- The type is not set: no command that `Parse` accepts.
  | none => none

/-- The numbers that `Compile` leaves in a command, by the type of the command. -/
def compiledNumbers (fakeId : ℤ) (c : CmdLineCommand) : CommandType → Option ℤ × Option ℤ × Option ℤ
  | .getMesurements => (compileInt c.deviceIdRaw, none, none)
  | .command => (compileInt c.deviceIdRaw, compileInt c.cmdIdRaw, compileInt c.cmdTypeRaw)
  | .testDevice => (some fakeId, none, none)
  | _ => (none, none, none)

/-- What is known of a command that `Compile` accepts. -/
structure Compiled (map : AdditionalParameterMap) (fakeId : ℤ) (c : CmdLineCommand)
    (cmd : CompiledCommand) : Prop where
  raw : cmd.raw = c
  type : c.cmdLineCommandType = some cmd.cmdLineCommandType
  parameters : c.additionalParametersRaw.mapM (compileEntry map) = some cmd.additionalParameters
  numbers : (cmd.deviceId, cmd.cmdId, cmd.cmdType) = compiledNumbers fakeId c cmd.cmdLineCommandType
  command : cmd.cmdLineCommandType = .command →
    cmd.deviceId.isSome = true ∧ cmd.cmdId.isSome = true ∧ cmd.cmdType.isSome = true

theorem compile_compiled {map : AdditionalParameterMap} {fakeId : ℤ} {c : CmdLineCommand}
    {cmd : CompiledCommand} (h : c.compile map fakeId = some cmd) : Compiled map fakeId c cmd := by
  unfold compile at h
  obtain ⟨parameters, hparameters, h⟩ := Option.bind_eq_some_iff.mp h
  split at h
  case h_5 htype =>
    obtain ⟨deviceId, hid, h⟩ := Option.bind_eq_some_iff.mp h
    obtain ⟨-, h⟩ := Option.ite_none_right_eq_some.mp h
    cases h
    exact ⟨rfl, htype, hparameters, by simp [compiledNumbers, hid], by simp⟩
  case h_6 htype =>
    obtain ⟨deviceId, hid, h⟩ := Option.bind_eq_some_iff.mp h
    obtain ⟨cmdId, hcmd, h⟩ := Option.bind_eq_some_iff.mp h
    obtain ⟨cmdType, hcmdType, h⟩ := Option.bind_eq_some_iff.mp h
    cases h
    exact ⟨rfl, htype, hparameters, by simp [compiledNumbers, hid, hcmd, hcmdType], fun _ => by simp⟩
  case h_7 htype =>
    obtain ⟨-, h⟩ := Option.ite_none_right_eq_some.mp h
    cases h
    exact ⟨rfl, htype, hparameters, rfl, by simp⟩
  all_goals
    cases h
    try exact ⟨rfl, by assumption, hparameters, rfl, by simp⟩

end CmdLineCommand

section Entries

variable {A : Type} {f : Text → Text → Option A} {raw : List (Text × Text)} {parameters : List (Text × A)}

theorem mapM_entries_cons {entry : Text × Text}
    (h : (entry :: raw).mapM (fun entry => (f entry.1 entry.2).map (entry.1, ·)) = some parameters) :
    ∃ value rest, f entry.1 entry.2 = some value ∧ parameters = (entry.1, value) :: rest ∧
      raw.mapM (fun entry => (f entry.1 entry.2).map (entry.1, ·)) = some rest := by
  rw [List.mapM_cons] at h
  obtain ⟨first, hfirst, h⟩ := Option.bind_eq_some_iff.mp h
  obtain ⟨rest, hrest, h⟩ := Option.bind_eq_some_iff.mp h
  obtain ⟨value, hvalue, rfl⟩ := Option.map_eq_some_iff.mp hfirst
  exact ⟨value, rest, hvalue, (Option.some.inj h).symm, hrest⟩

/-- Where every entry keeps its name, what is given under a name is compiled under it. -/
theorem lookup_mapM
    (h : raw.mapM (fun entry => (f entry.1 entry.2).map (entry.1, ·)) = some parameters)
    {name text : Text} (hgiven : raw.lookup name = some text) :
    ∃ value, f name text = some value ∧ parameters.lookup name = some value := by
  induction raw generalizing parameters with
  | nil => cases hgiven
  | cons entry raw ih =>
    obtain ⟨key, given⟩ := entry
    obtain ⟨value, rest, hvalue, rfl, hrest⟩ := mapM_entries_cons h
    by_cases hname : name = key
    · subst hname
      rw [List.lookup_cons_self] at hgiven ⊢
      cases hgiven
      exact ⟨value, hvalue, rfl⟩
    · have hne : (name == key) = false := beq_eq_false_iff_ne.mpr hname
      rw [List.lookup_cons, hne] at hgiven ⊢
      exact ih hrest hgiven

end Entries

theorem compileEntry_eq (map : AdditionalParameterMap) : compileEntry map = fun entry =>
    ((map.lookup entry.1).bind (compileParameter entry.2)).map (entry.1, ·) := by
  funext entry
  unfold compileEntry
  cases map.lookup entry.1 with
  | none => rfl
  | some description => cases hvalue : compileParameter entry.2 description <;> simp [hvalue]

/-- A parameter that is given is compiled under its name. -/
theorem lookup_compileEntry {map : AdditionalParameterMap} {raw : List (Text × Text)}
    {parameters : List (Text × CompiledParameter)} (h : raw.mapM (compileEntry map) = some parameters)
    {name text : Text} (hgiven : raw.lookup name = some text) :
    ∃ description value, map.lookup name = some description ∧
      compileParameter text description = some value ∧ parameters.lookup name = some value := by
  rw [compileEntry_eq] at h
  obtain ⟨value, hvalue, hlookup⟩ :=
    lookup_mapM (f := fun name text => (map.lookup name).bind (compileParameter text)) h hgiven
  obtain ⟨description, hdescription, hcompiled⟩ := Option.bind_eq_some_iff.mp hvalue
  exact ⟨description, value, hdescription, hcompiled, hlookup⟩

def commDevices : List Text :=
  ["/dev/ttySC0".toList, "/dev/ttySC1".toList, "/dev/ttySC2".toList, "/dev/ttySC3".toList,
   "/dev/ttySC4".toList]

def commSpeed : List Text :=
  ["75".toList, "110".toList, "300".toList, "1200".toList, "2400".toList, "4800".toList,
   "9600".toList, "19200".toList, "38400".toList, "57600".toList, "115200".toList]

def additionalParameterMap : AdditionalParameterMap :=
  [(comdevice, .list commDevices false), (baudrate, .list commSpeed true),
   ("debug".toList, .int 0 5), ("address".toList, .string "54".toList), (syncTime, .int 0 60)]

end Ritex
