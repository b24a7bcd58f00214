import Ritex.DelimitedText
import Ritex.ExternalCommandSafety
import Ritex.Rendezvous

/-! `CmdGetSupportedCommands`: what it prints can be read back, and lists exactly the commands that
`CreateExternalCommand` can make. -/
namespace Ritex
open DelimitedText

/-- `AdapterCommandArg`, as it is printed. -/
inductive ListedArg
  | int
  | float
  | list (values : List (ℤ × Text))
  /-- Texts and dates, whose type is not printed. -/
  | other
  deriving DecidableEq

structure ListedCommand where
  cmdType : ℤ
  name : Text
  description : Text
  args : List (Text × ListedArg)
  deriving DecidableEq

/-! ### Printing -/

def listedValue (value : ℤ × Text) : Text := decimal value.1 ++ '~' :: value.2

def ListedArg.fields : ListedArg → List Text
  | .int => ["int".toList]
  | .float => ["float".toList]
  | .list values => "list".toList :: values.map listedValue
  | .other => []

/-- The line of the argument with this number. -/
def argLine (j : ℕ) (arg : Text × ListedArg) : Text :=
  '~' :: fields '|' (decimal j :: arg.1 :: arg.2.fields)

def argLines : ℕ → List (Text × ListedArg) → List Text
  | _, [] => []
  | j, arg :: args => argLine j arg :: argLines (j + 1) args

def commandLine (c : ListedCommand) : Text :=
  fields '|' [decimal c.cmdType, c.name, c.description]

def commandLines (c : ListedCommand) : List Text := commandLine c :: argLines 1 c.args

/-- `CmdGetSupportedCommands::Execute`. -/
def getSupportedCommands (list : List ListedCommand) : Text :=
  lines '\n' (list.flatMap commandLines)

/-- The commands of the constructor of `RitexDevice`. -/
def supportedCommands : List ListedCommand :=
  [⟨24, "Изменить уставку".toList, "Изменение уставок".toList,
    [("уставка".toList, .list (allSettings.map fun row => (row.id, row.name.toList))),
     ("значение уставки".toList, .float)]⟩,
   ⟨2, "Управление ВД".toList, "Команды управления ВД".toList,
    [("Команда ВД".toList, .list
      [(1, "Включить ВД".toList), (2, "Выключить ВД".toList), (3, "Сброс".toList),
       (4, "Начать тарировку".toList), (5, "Левое вращение".toList),
       (6, "Правое вращение".toList)])]⟩]

/-! ### Reading -/

def readValue (s : Text) : ℤ × Text := (strtol (cut '~' s).1, (cut '~' s).2)

def readArg (s : Text) : Option (Text × ListedArg) :=
  match s.splitOn '|' with
  | _ :: name :: [] => some (name, .other)
  | _ :: name :: type :: values =>
    if type = "int".toList then some (name, .int)
    else if type = "float".toList then some (name, .float)
    else if type = "list".toList then some (name, .list (values.map readValue))
    else none
  | _ => none

def readCommandLine (s : Text) (args : List (Text × ListedArg)) : Option ListedCommand :=
  match s.splitOn '|' with
  | [cmdType, name, description] => some ⟨strtol cmdType, name, description, args⟩
  | _ => none

/-- The arguments that precede the first command, and the commands. -/
def readCommandLines : List Text → Option (List (Text × ListedArg) × List ListedCommand)
  | [] => some ([], [])
  | line :: rest => do
    let (args, commands) ← readCommandLines rest
    match line with
    | '~' :: s =>
      let arg ← readArg s
      return (arg :: args, commands)
    | s =>
      let command ← readCommandLine s args
      return ([], command :: commands)

def readSupportedCommands (s : Text) : Option (List ListedCommand) := do
  let (args, commands) ← readCommandLines (readLines '\n' s)
  if args = [] then return commands else none

/-! ### Round trip -/

/-- The text has none of the marks of its line. -/
def Unmarked (s : Text) : Prop := '|' ∉ s ∧ '\n' ∉ s

instance (s : Text) : Decidable (Unmarked s) := inferInstanceAs (Decidable (_ ∧ _))

def Printable (i : ℤ) : Prop := 0 ≤ i ∧ i < 2 ^ 31

def ListedArg.Clean : ListedArg → Prop
  | .list values => ∀ value ∈ values, Printable value.1 ∧ Unmarked value.2
  | _ => True

structure ListedCommand.Clean (c : ListedCommand) : Prop where
  cmdType : Printable c.cmdType
  name : Unmarked c.name
  description : Unmarked c.description
  args : ∀ arg ∈ c.args, Unmarked arg.1 ∧ arg.2.Clean

theorem decimal_isDigit {i : ℤ} (h : 0 ≤ i) : ∀ c ∈ decimal i, c.isDigit = true := by
  obtain ⟨n, rfl⟩ := Int.eq_ofNat_of_zero_le h
  rw [decimal_natCast]
  exact toDigits_isDigit n

theorem not_mem_decimal {i : ℤ} (h : 0 ≤ i) {c : Char} (hc : c.isDigit = false) : c ∉ decimal i :=
  fun hmem => by
    rw [decimal_isDigit h c hmem] at hc
    cases hc

theorem unmarked_decimal {i : ℤ} (h : 0 ≤ i) : Unmarked (decimal i) :=
  ⟨not_mem_decimal h rfl, not_mem_decimal h rfl⟩

theorem strtol_decimal {i : ℤ} (h : Printable i) : strtol (decimal i) = i := by
  obtain ⟨n, rfl⟩ := Int.eq_ofNat_of_zero_le h.1
  have hlt := h.2
  rw [strtol_digits (decimal_isDigit h.1), decimal_natCast, leadingNumber_toDigits, clampLong]
  omega

theorem readValue_listedValue {value : ℤ × Text} (h : Printable value.1) :
    readValue (listedValue value) = value := by
  rw [readValue, listedValue, cut_append (not_mem_decimal h.1 rfl), strtol_decimal h]

theorem unmarked_listedValue {value : ℤ × Text} (h : Printable value.1) (hname : Unmarked value.2) :
    Unmarked (listedValue value) := by
  obtain ⟨hbar, hline⟩ := unmarked_decimal h.1
  simp [Unmarked, listedValue, hbar, hline, hname.1, hname.2]

theorem unmarked_fields {arg : ListedArg} (h : arg.Clean) : ∀ s ∈ arg.fields, Unmarked s := by
  cases arg with
  | list values =>
    intro s hs
    rcases List.mem_cons.mp hs with rfl | hs
    · decide
    · obtain ⟨value, hvalue, rfl⟩ := List.mem_map.mp hs
      exact unmarked_listedValue (h value hvalue).1 (h value hvalue).2
  | int | float => decide
  | other => exact fun _ hs => nomatch hs

theorem readArg_argLine {arg : Text × ListedArg} (hname : Unmarked arg.1) (h : arg.2.Clean) (j : ℕ) :
    readArg (fields '|' (decimal j :: arg.1 :: arg.2.fields)) = some arg := by
  obtain ⟨name, arg⟩ := arg
  have hsplit : (fields '|' (decimal j :: name :: arg.fields)).splitOn '|' =
      decimal j :: name :: arg.fields := by
    refine splitOn_fields (fun s hs => ?_) (by simp)
    rcases List.mem_cons.mp hs with rfl | hs
    · exact (unmarked_decimal (by omega)).1
    · rcases List.mem_cons.mp hs with rfl | hs
      · exact hname.1
      · exact (unmarked_fields h s hs).1
  rw [readArg, hsplit]
  cases arg with
  | int | float | other => rfl
  | list values =>
    have hvalues : (values.map listedValue).map readValue = values := by
      rw [List.map_map]
      exact (List.map_congr_left (g := id) fun value hvalue =>
        readValue_listedValue (h value hvalue).1).trans (List.map_id _)
    show (if "list".toList = "int".toList then _ else _) = _
    rw [if_neg (by decide), if_neg (by decide), if_pos rfl, hvalues]

theorem commandLine_head {c : ListedCommand} (h : Printable c.cmdType) :
    (commandLine c).head? ≠ some '~' := by
  obtain ⟨digit, rest, hdecimal⟩ := List.exists_cons_of_ne_nil (l := decimal c.cmdType) (by
    obtain ⟨n, hn⟩ := Int.eq_ofNat_of_zero_le h.1
    rw [hn, decimal_natCast]
    exact Nat.toDigits_ne_nil)
  have hdigit := decimal_isDigit h.1 digit (by simp [hdecimal])
  have hhead : (commandLine c).head? = some digit := by simp [commandLine, fields, hdecimal]
  rw [hhead]
  rintro heq
  cases heq
  cases hdigit

theorem readCommandLine_commandLine {c : ListedCommand} (h : c.Clean) :
    readCommandLine (commandLine c) c.args = some c := by
  have hsplit : (fields '|' [decimal c.cmdType, c.name, c.description]).splitOn '|' =
      [decimal c.cmdType, c.name, c.description] :=
    splitOn_fields (by simpa using ⟨(unmarked_decimal h.cmdType.1).1, h.name.1, h.description.1⟩)
      (by simp)
  rw [readCommandLine, commandLine, hsplit]
  simp only [strtol_decimal h.cmdType]

theorem readCommandLines_args {args : List (Text × ListedArg)}
    (h : ∀ arg ∈ args, Unmarked arg.1 ∧ arg.2.Clean) {rest : List Text}
    {commands : List ListedCommand} (hrest : readCommandLines rest = some ([], commands)) (j : ℕ) :
    readCommandLines (argLines j args ++ rest) = some (args, commands) := by
  induction args generalizing j with
  | nil => exact hrest
  | cons arg args ih =>
    obtain ⟨harg, hargs⟩ := List.forall_mem_cons.mp h
    rw [argLines, List.cons_append, readCommandLines, ih hargs]
    show (readArg _).bind _ = _
    rw [readArg_argLine harg.1 harg.2]
    rfl

theorem readCommandLines_commands {list : List ListedCommand} (h : ∀ c ∈ list, c.Clean) :
    readCommandLines (list.flatMap commandLines) = some ([], list) := by
  induction list with
  | nil => rfl
  | cons c list ih =>
    obtain ⟨hc, hlist⟩ := List.forall_mem_cons.mp h
    rw [List.flatMap_cons, commandLines, List.cons_append, readCommandLines,
      readCommandLines_args hc.args (ih hlist)]
    have hhead := commandLine_head hc.cmdType
    simp only [Option.bind_eq_bind, Option.bind_some]
    split
    next s heq =>
      rw [heq] at hhead
      exact absurd rfl hhead
    next =>
      rw [readCommandLine_commandLine hc]
      rfl

theorem unmarked_argLines {args : List (Text × ListedArg)}
    (h : ∀ arg ∈ args, Unmarked arg.1 ∧ arg.2.Clean) (j : ℕ) :
    ∀ line ∈ argLines j args, '\n' ∉ line := by
  induction args generalizing j with
  | nil => exact fun _ hline => nomatch hline
  | cons arg args ih =>
    obtain ⟨harg, hargs⟩ := List.forall_mem_cons.mp h
    intro line hline
    rcases List.mem_cons.mp hline with rfl | hline
    · have hfields : '\n' ∉ fields '|' (decimal j :: arg.1 :: arg.2.fields) := by
        refine not_mem_fields (by decide) ?_
        simp only [List.forall_mem_cons]
        exact ⟨(unmarked_decimal (by omega)).2, harg.1.2, fun s hs =>
          (unmarked_fields harg.2 s hs).2⟩
      simp [argLine, hfields]
    · exact ih hargs (j + 1) line hline

/-- A listing is read back. -/
theorem readSupportedCommands_listing {list : List ListedCommand} (h : ∀ c ∈ list, c.Clean) :
    readSupportedCommands (getSupportedCommands list) = some list := by
  have hlines : ∀ line ∈ list.flatMap commandLines, '\n' ∉ line := by
    intro line hline
    obtain ⟨c, hc, hline⟩ := List.mem_flatMap.mp hline
    rcases List.mem_cons.mp hline with rfl | hline
    · refine not_mem_fields (by decide) ?_
      simpa using ⟨(unmarked_decimal (h c hc).cmdType.1).2, (h c hc).name.2, (h c hc).description.2⟩
    · exact unmarked_argLines (h c hc).args 1 line hline
  rw [readSupportedCommands, getSupportedCommands, readLines_lines hlines,
    readCommandLines_commands h]
  rfl

/-! ### What is offered -/

instance (i : ℤ) : Decidable (Printable i) := inferInstanceAs (Decidable (_ ∧ _))

theorem unmarked_ofList {s : String} {l : Text} (hs : s = String.ofList l) (h : Unmarked l) :
    Unmarked s.toList := by
  rwa [hs, String.toList_ofList]

-- The characters are taken from the literals: to evaluate `toList` is to decode the bytes.
set_option maxRecDepth 2000 in
theorem allSettings_clean : ∀ row ∈ allSettings, Printable row.id ∧ Unmarked row.name.toList := by
  simp only [allSettings, List.forall_mem_cons]
  repeat refine ⟨⟨by decide, unmarked_ofList rfl (by decide +kernel)⟩, ?_⟩
  exact fun _ h => nomatch h

theorem supportedCommands_clean : ∀ c ∈ supportedCommands, c.Clean := by
  simp only [supportedCommands, List.forall_mem_cons]
  refine ⟨⟨by decide, unmarked_ofList rfl (by decide +kernel),
      unmarked_ofList rfl (by decide +kernel), ?_⟩,
    ⟨by decide, unmarked_ofList rfl (by decide +kernel),
      unmarked_ofList rfl (by decide +kernel), ?_⟩, fun _ h => nomatch h⟩
  · simp only [List.forall_mem_cons]
    refine ⟨⟨unmarked_ofList rfl (by decide +kernel), fun value hvalue => ?_⟩,
      ⟨unmarked_ofList rfl (by decide +kernel), trivial⟩, fun _ h => nomatch h⟩
    obtain ⟨row, hrow, rfl⟩ := List.mem_map.mp hvalue
    exact allSettings_clean row hrow
  · simp only [List.forall_mem_cons, ListedArg.Clean]
    refine ⟨⟨unmarked_ofList rfl (by decide +kernel), ?_⟩, fun _ h => nomatch h⟩
    repeat refine ⟨⟨by decide, unmarked_ofList rfl (by decide +kernel)⟩, ?_⟩
    exact fun _ h => nomatch h

/-- A table of commands has this type with as many arguments as the message gives, and the first of
them is a number of the list. -/
def Offered (list : List ListedCommand) (type : ℤ) (message : Text) : Prop :=
  ∃ c ∈ list, c.cmdType = type ∧ c.args.length = (split '~' message).length ∧
    ∃ name values rest, c.args = (name, .list values) :: rest ∧
      ∃ value ∈ values, value.1 = strtol ((split '~' message).getD 0 [])

theorem offered_iff (type : ℤ) (message : Text) :
    Offered supportedCommands type message ↔ NamesTemplate type message := by
  constructor
  · rintro ⟨c, hc, rfl, hlength, name, values, rest, hargs, value, hvalue, hid⟩
    have hmem : c = supportedCommands[0] ∨ c = supportedCommands[1] := by
      simpa [supportedCommands] using hc
    rcases hmem with rfl | rfl
    · obtain ⟨id, text, hsplit⟩ := List.length_eq_two.mp hlength.symm
      cases hargs
      obtain ⟨row, hrow, rfl⟩ := List.mem_map.mp hvalue
      rw [hsplit] at hid
      exact .inl ⟨rfl, id, text, hsplit, row, hrow, hid⟩
    · obtain ⟨id, hsplit⟩ := List.length_eq_one_iff.mp hlength.symm
      cases hargs
      rw [hsplit] at hid
      refine .inr ⟨rfl, id, hsplit, ?_⟩
      have hrange : 1 ≤ value.1 ∧ value.1 ≤ 6 := by
        simp only [List.mem_cons, List.not_mem_nil, or_false] at hvalue
        rcases hvalue with rfl | rfl | rfl | rfl | rfl | rfl <;> decide
      rwa [hid] at hrange
  · rintro (⟨rfl, id, text, hsplit, row, hrow, hid⟩ | ⟨rfl, id, hsplit, hrange⟩)
    · refine ⟨supportedCommands[0], List.getElem_mem _, rfl, by rw [hsplit]; rfl, _, _, _, rfl,
        (row.id, row.name.toList), List.mem_map_of_mem hrow, ?_⟩
      rw [hsplit]
      exact hid
    · refine ⟨supportedCommands[1], List.getElem_mem _, rfl, by rw [hsplit]; rfl, _, _, _, rfl, ?_⟩
      rw [hsplit]
      simp only [List.mem_cons, List.not_mem_nil, or_false, exists_eq_or_imp, exists_eq_left,
        List.getD_cons_zero]
      omega

theorem ReachesCreation.cmdType {fakeId : ℤ} {tokens : List OptionToken} {cmd : CompiledCommand}
    (h : ReachesCreation fakeId tokens cmd) : cmd.cmdType = some (strtol cmd.raw.cmdTypeRaw) := by
  obtain ⟨c, -, hcompile⟩ := h.compiled
  have hcompiled := CmdLineCommand.compile_compiled hcompile
  have hnumbers := hcompiled.numbers
  rw [h.isCommand] at hnumbers
  simp only [CmdLineCommand.compiledNumbers, Prod.mk.injEq] at hnumbers
  obtain ⟨type, htype⟩ := Option.isSome_iff_exists.mp (hcompiled.command h.isCommand).2.2
  rw [htype, hcompiled.raw, compileInt_eq_some (hnumbers.2.2.symm.trans htype)]

/-- The listing can be read back, and `CreateExternalCommand` is safe for a command that `Parse` and
`Compile` accept if and only if what is read offers it. -/
theorem supportedCommands_offer_iff (atof : Text → Word) {fakeId : ℤ} {tokens : List OptionToken}
    {cmd : CompiledCommand} (h : ReachesCreation fakeId tokens cmd) :
    ∃ list, readSupportedCommands (getSupportedCommands supportedCommands) = some list ∧
      (SafelyCreated cmd (createExternalCommand atof cmd) ↔
        Offered list (strtol cmd.raw.cmdTypeRaw) cmd.raw.messageRaw) := by
  refine ⟨_, readSupportedCommands_listing supportedCommands_clean, ?_⟩
  have htype := h.cmdType
  rw [safelyCreated_iff atof (by rw [htype]; rfl), knownCommand_iff htype, offered_iff]

theorem supportedCommands_offer_engine :
    ∃ list, readSupportedCommands (getSupportedCommands supportedCommands) = some list ∧
      (SafelyCreated (compiledCommandOf "2".toList "1".toList)
          (createExternalCommand (fun _ => 0) (compiledCommandOf "2".toList "1".toList)) ↔
        Offered list 2 "1".toList) :=
  supportedCommands_offer_iff (fun _ => 0)
    (commandOf_reaches (by decide +kernel)
      (by decide +kernel))

end Ritex
