import Ritex.DecimalText
import Ritex.DeclaredTables

/-! What `Compile` makes sure of: texts pass its tests that are not the integers they are taken for. -/
namespace Ritex

/-! ### Where `strtol` stops -/

def afterSign : Text → Text
  | '-' :: s => s
  | '+' :: s => s
  | s => s

/-- The number in front, before it is brought into the range of `long`. -/
def signedNumber : Text → ℤ
  | '-' :: s => -leadingNumber s
  | '+' :: s => leadingNumber s
  | s => leadingNumber s

/-- The text at the `pEnd` that `CompileInt` never looks at. -/
def strtolEnd (s : Text) : Text := (afterSign (s.dropWhile isSpace)).dropWhile Char.isDigit

/-- `strtol` starts at the first character, stops at the end and has room for the number. -/
structure ReadWhole (s : Text) : Prop where
  start : s.dropWhile isSpace = s
  stop : strtolEnd s = []
  lower : -2 ^ 31 ≤ signedNumber s
  upper : signedNumber s < 2 ^ 31

theorem afterSign_unsigned {s : Text} (hminus : ∀ t, s ≠ '-' :: t) (hplus : ∀ t, s ≠ '+' :: t) :
    afterSign s = s := by
  unfold afterSign
  split
  next t => exact absurd rfl (hminus t)
  next t => exact absurd rfl (hplus t)
  next => rfl

theorem signedNumber_unsigned {s : Text} (hminus : ∀ t, s ≠ '-' :: t) (hplus : ∀ t, s ≠ '+' :: t) :
    signedNumber s = leadingNumber s := by
  unfold signedNumber
  split
  next t => exact absurd rfl (hminus t)
  next t => exact absurd rfl (hplus t)
  next => rfl

theorem strtol_eq (s : Text) : strtol s = clampLong (signedNumber (s.dropWhile isSpace)) := by
  unfold strtol
  split
  next digits hs => rw [hs, signedNumber]
  next digits hs => rw [hs, signedNumber]
  next hminus hplus => rw [signedNumber_unsigned hminus hplus]

theorem clampLong_eq_self_iff (i : ℤ) : clampLong i = i ↔ -2 ^ 31 ≤ i ∧ i < 2 ^ 31 := by
  unfold clampLong
  omega

/-- The text of an integer is a sign, or none, and digits. -/
theorem integerText_iff (s : Text) (v : ℤ) : IntegerText s v ↔
    afterSign s ≠ [] ∧ (∀ c ∈ afterSign s, c.isDigit = true) ∧ signedNumber s = v := by
  constructor
  · intro h
    cases h with
    | @digits s hs hd =>
      have hunsigned : ∀ c : Char, c.isDigit = false → ∀ t, s ≠ c :: t := by
        rintro c hc t rfl
        exact absurd (hd c List.mem_cons_self) (by simp [hc])
      have hminus := hunsigned '-' (by decide)
      have hplus := hunsigned '+' (by decide)
      rw [afterSign_unsigned hminus hplus, signedNumber_unsigned hminus hplus]
      exact ⟨hs, hd, rfl⟩
    | plus hs hd => exact ⟨hs, hd, rfl⟩
    | minus hs hd => exact ⟨hs, hd, rfl⟩
  · rintro ⟨hne, hd, rfl⟩
    by_cases hminus : ∃ t, s = '-' :: t
    · obtain ⟨t, rfl⟩ := hminus
      exact .minus hne hd
    by_cases hplus : ∃ t, s = '+' :: t
    · obtain ⟨t, rfl⟩ := hplus
      exact .plus hne hd
    · rw [not_exists] at hminus hplus
      rw [afterSign_unsigned hminus hplus] at hne hd
      rw [signedNumber_unsigned hminus hplus]
      exact .digits hne hd

theorem IntegerText.dropWhile_isSpace {s : Text} {v : ℤ} (h : IntegerText s v) :
    s.dropWhile isSpace = s := by
  cases h with
  | @digits s hs hd =>
    cases s with
    | nil => rfl
    | cons c s => exact List.dropWhile_cons_of_neg (by simp [isSpace_digit (hd c List.mem_cons_self)])
  | plus => rfl
  | minus => rfl

/-- Without a digit the number is 0, and no 0 stands in front. -/
theorem compileInt_afterSign_nil {s : Text} (h : afterSign s = []) : compileInt s = none := by
  unfold afterSign at h
  split at h
  next =>
    subst h
    decide
  next =>
    subst h
    decide
  next =>
    subst h
    decide

/-- What `CompileInt` accepts is the text of the number that it makes of it if and only if `strtol`
reads the whole of it and has room for the number. -/
theorem compileInt_integerText_iff {s : Text} {i : ℤ} (h : compileInt s = some i) :
    IntegerText s i ↔ ReadWhole s := by
  have hi := compileInt_eq_some h
  rw [strtol_eq] at hi
  constructor
  · intro htext
    have hstart := htext.dropWhile_isSpace
    obtain ⟨hne, hd, hnumber⟩ := (integerText_iff s i).mp htext
    rw [hstart, hnumber] at hi
    obtain ⟨hlower, hupper⟩ := (clampLong_eq_self_iff i).mp hi
    refine ⟨hstart, ?_, by omega, by omega⟩
    rw [strtolEnd, hstart, List.dropWhile_eq_nil_iff]
    exact hd
  · intro hwhole
    rw [hwhole.start, (clampLong_eq_self_iff _).mpr ⟨hwhole.lower, hwhole.upper⟩] at hi
    have hstop := hwhole.stop
    rw [strtolEnd, hwhole.start, List.dropWhile_eq_nil_iff] at hstop
    refine (integerText_iff s i).mpr ⟨fun hnil => ?_, hstop, hi⟩
    rw [compileInt_afterSign_nil hnil] at h
    cases h

/-! ### What an accepted command has been checked for -/

section Validation

variable {F : Type} (reader : FloatReader F) (table : DeclaredTable)

/-- What a parameter that is given is compiled to is what it says and is declared so. -/
def ParameterValid (text : Text) : DeclaredParameter → DeclaredValue F → Prop
  | .int min max, value => ∃ i, value = .int i ∧ IntegerText text i ∧ min ≤ i ∧ i ≤ max
  | .float, _ => True
  | .string _, value => value = .string text
  | .list data true, value => text ∈ data ∧ ∃ i, value = .int i ∧ IntegerText text i
  | .list data false, value => text ∈ data ∧ value = .string text

/-- The numbers of a command beside the texts that they are compiled from. -/
def numbersOf (c : CmdLineCommand) (cmd : CompiledOver F) : List (Text × Option ℤ) :=
  match c.cmdLineCommandType with
  | some .getMesurements => [(c.deviceIdRaw, cmd.deviceId)]
  | some .command =>
    [(c.deviceIdRaw, cmd.deviceId), (c.cmdIdRaw, cmd.cmdId), (c.cmdTypeRaw, cmd.cmdType)]
  | _ => []

structure Validated (c : CmdLineCommand) (cmd : CompiledOver F) : Prop where
  parameters : ∀ name text, c.additionalParametersRaw.lookup name = some text →
    ∃ description value, table.lookup name = some description ∧
      cmd.parameters.lookup name = some value ∧ ParameterValid text description value
  numbers : ∀ number ∈ numbersOf c cmd, ∃ i, number.2 = some i ∧ IntegerText number.1 i

/-- The text of an integer parameter is read whole, and the number is in its range. -/
def ParameterPlain (text : Text) : DeclaredParameter → Prop
  | .int min max => ReadWhole text ∧ min ≤ signedNumber text ∧ signedNumber text ≤ max
  | .list _ true => ReadWhole text
  | _ => True

structure PlainNumbers (c : CmdLineCommand) : Prop where
  parameters : ∀ name text description, c.additionalParametersRaw.lookup name = some text →
    table.lookup name = some description → ParameterPlain text description
  numbers : ∀ text ∈ numberTexts c, ReadWhole text

theorem parameterValid_iff {text : Text} {description : DeclaredParameter} {value : DeclaredValue F}
    (h : compileDeclared reader text description = some value) :
    ParameterValid text description value ↔ ParameterPlain text description := by
  cases description with
  | int min max =>
    obtain ⟨i, hi, rfl⟩ := Option.map_eq_some_iff.mp h
    have hwhole := compileInt_integerText_iff hi
    constructor
    · rintro ⟨j, hj, htext, hrange⟩
      cases hj
      rw [← ((integerText_iff text i).mp htext).2.2] at hrange
      exact ⟨hwhole.mp htext, hrange⟩
    · rintro ⟨hread, hrange⟩
      have htext := hwhole.mpr hread
      rw [((integerText_iff text i).mp htext).2.2] at hrange
      exact ⟨i, rfl, htext, hrange⟩
  | float => exact Iff.rfl
  | string declared =>
    cases h
    exact iff_of_true rfl trivial
  | list data isInt =>
    rw [compileDeclared, Option.ite_none_right_eq_some, List.contains_iff_mem] at h
    obtain ⟨hmem, h⟩ := h
    cases isInt with
    | false =>
      cases h
      exact iff_of_true ⟨hmem, rfl⟩ trivial
    | true =>
      obtain ⟨i, hi, rfl⟩ := Option.map_eq_some_iff.mp h
      have hwhole := compileInt_integerText_iff hi
      constructor
      · rintro ⟨-, j, hj, htext⟩
        cases hj
        exact hwhole.mp htext
      · intro hread
        exact ⟨hmem, i, rfl, hwhole.mpr hread⟩

theorem numbersOf_texts (c : CmdLineCommand) (cmd : CompiledOver F) :
    (numbersOf c cmd).map Prod.fst = numberTexts c := by
  unfold numbersOf numberTexts
  cases c.cmdLineCommandType with
  | none => rfl
  | some type => cases type <;> rfl

variable {table}

theorem numbersOf_compiled {fakeId : ℤ} {c : CmdLineCommand} {cmd : CompiledOver F}
    (h : compileOver reader table fakeId c = some cmd) :
    ∀ number ∈ numbersOf c cmd, ∃ i, number.2 = some i ∧ compileInt number.1 = some i := by
  obtain ⟨-, hnumbers⟩ := (compileOver_eq_some_iff reader table fakeId c cmd).mp h
  unfold compileNumbers at hnumbers
  unfold numbersOf
  cases htype : c.cmdLineCommandType with
  | none => simp
  | some type =>
    rw [htype] at hnumbers
    cases type with
    | getMesurements =>
      obtain ⟨deviceId, hid, hnumbers⟩ := Option.bind_eq_some_iff.mp hnumbers
      obtain ⟨-, hnumbers⟩ := Option.ite_none_right_eq_some.mp hnumbers
      simp only [Option.some.injEq, Prod.mk.injEq] at hnumbers
      obtain ⟨-, hdevice, -, -⟩ := hnumbers
      rw [List.forall_mem_singleton]
      exact ⟨deviceId, hdevice.symm, hid⟩
    | command =>
      obtain ⟨deviceId, hid, hnumbers⟩ := Option.bind_eq_some_iff.mp hnumbers
      obtain ⟨cmdId, hcmdId, hnumbers⟩ := Option.bind_eq_some_iff.mp hnumbers
      obtain ⟨cmdType, hcmdType, hnumbers⟩ := Option.map_eq_some_iff.mp hnumbers
      simp only [Prod.mk.injEq] at hnumbers
      obtain ⟨-, hdevice, hcmd, htype⟩ := hnumbers
      rw [List.forall_mem_cons, List.forall_mem_cons, List.forall_mem_singleton]
      exact ⟨⟨deviceId, hdevice.symm, hid⟩, ⟨cmdId, hcmd.symm, hcmdId⟩, cmdType, htype.symm, hcmdType⟩
    | _ => simp

theorem validated_iff {fakeId : ℤ} {c : CmdLineCommand} {cmd : CompiledOver F}
    (h : compileOver reader table fakeId c = some cmd) :
    Validated table c cmd ↔ PlainNumbers table c := by
  obtain ⟨hparameters, -⟩ := (compileOver_eq_some_iff reader table fakeId c cmd).mp h
  have hcompiled : ∀ {name text}, c.additionalParametersRaw.lookup name = some text →
      ∃ description value, table.lookup name = some description ∧
        compileDeclared reader text description = some value ∧
        cmd.parameters.lookup name = some value := by
    intro name text hgiven
    obtain ⟨value, hvalue, hlookup⟩ := lookup_mapM
      (f := fun name text => (table.lookup name).bind (compileDeclared reader text)) hparameters hgiven
    obtain ⟨description, hdescription, hvalue⟩ := Option.bind_eq_some_iff.mp hvalue
    exact ⟨description, value, hdescription, hvalue, hlookup⟩
  have hnumbers := numbersOf_compiled reader h
  constructor
  · intro hvalid
    refine ⟨fun name text description hgiven hdescription => ?_, fun text htext => ?_⟩
    · obtain ⟨_, value, hfound, hvalue, hlookup⟩ := hcompiled hgiven
      obtain ⟨_, _, hfound', hlookup', hparameter⟩ := hvalid.parameters name text hgiven
      cases hdescription.symm.trans hfound
      cases hdescription.symm.trans hfound'
      cases hlookup.symm.trans hlookup'
      exact (parameterValid_iff reader hvalue).mp hparameter
    · rw [← numbersOf_texts c cmd, List.mem_map] at htext
      obtain ⟨number, hmem, rfl⟩ := htext
      obtain ⟨i, hi, hcompile⟩ := hnumbers number hmem
      obtain ⟨j, hj, hinteger⟩ := hvalid.numbers number hmem
      cases hi.symm.trans hj
      exact (compileInt_integerText_iff hcompile).mp hinteger
  · intro hplain
    refine ⟨fun name text hgiven => ?_, fun number hmem => ?_⟩
    · obtain ⟨description, value, hfound, hvalue, hlookup⟩ := hcompiled hgiven
      have hparameter := hplain.parameters name text description hgiven hfound
      exact ⟨description, value, hfound, hlookup, (parameterValid_iff reader hvalue).mpr hparameter⟩
    · obtain ⟨i, hi, hcompile⟩ := hnumbers number hmem
      have htext : number.1 ∈ numberTexts c := by
        rw [← numbersOf_texts c cmd]
        exact List.mem_map_of_mem hmem
      exact ⟨i, hi, (compileInt_integerText_iff hcompile).mpr (hplain.numbers _ htext)⟩

variable (table)

/-- `Compile` has checked what it accepts if and only if the command fails one of its tests or every
text of an integer is read whole, and no integer parameter is out of its range. -/
theorem compile_validates_iff (fakeId : ℤ) (c : CmdLineCommand) :
    (∀ cmd, compileOver reader table fakeId c = some cmd → Validated table c cmd) ↔
      (Compilable reader table c → PlainNumbers table c) := by
  constructor
  · intro hvalid haccepted
    obtain ⟨cmd, hcmd⟩ := (exists_compileOver_iff reader table fakeId c).mpr haccepted
    exact (validated_iff reader hcmd).mp (hvalid cmd hcmd)
  · intro hplain cmd hcmd
    have haccepted := (exists_compileOver_iff reader table fakeId c).mp ⟨cmd, hcmd⟩
    exact (validated_iff reader hcmd).mpr (hplain haccepted)

end Validation

/-! ### A number with something behind it -/

/-- `-d -a debug 7x`: neither the letter nor the range is looked at. -/
def debugCommand : CmdLineCommand where
  cmdLineCommandType := some .getConnectedDeviceInfo
  additionalParametersRaw := [("debug".toList, "7x".toList)]

theorem compile_validates_false : ¬∀ (F : Type) (reader : FloatReader F) (table : DeclaredTable)
    (fakeId : ℤ) (c : CmdLineCommand) (cmd : CompiledOver F),
    compileOver reader table fakeId c = some cmd → Validated table c cmd := by
  intro hall
  have hcompile : compileOver ⟨fun _ => (0 : ℚ), fun f => f = 0⟩
      (additionalParameterMap.map fun e => (e.1, e.2.declared)) 0 debugCommand =
      some ⟨.getConnectedDeviceInfo, [("debug".toList, .int 7)], none, none, none⟩ := by
    rw [compileOver_declared]
    rfl
  have hdebug : (additionalParameterMap.map fun e => (e.1, e.2.declared)).lookup "debug".toList =
      some (.int 0 5) := by
    rw [lookup_map_snd]
    rfl
  obtain ⟨description, value, hfound, hlookup, hparameter⟩ :=
    (hall _ _ _ _ _ _ hcompile).parameters "debug".toList "7x".toList (by decide)
  cases hdebug.symm.trans hfound
  obtain ⟨i, rfl, -, hrange⟩ := hparameter
  cases hlookup
  exact absurd hrange.2 (by decide)

end Ritex
