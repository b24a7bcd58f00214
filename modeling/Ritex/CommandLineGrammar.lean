import Ritex.CommandLine

/-! The command lines that `Parse` is written for, and those that it takes. -/
namespace Ritex

/-! ### The lines -/

/-- The pairs of one or more `-a name value`. -/
abbrev Parameters := { pairs : List (Text × Text) // pairs ≠ [] }

inductive CommandLine
  | showInfo
  | additionalParameters
  | exit
  | listCommands
  | command (deviceId type message source id path : Text) (pairs : Parameters)
  | mesurements (deviceId path : Text) (pairs : Parameters)
  | test (pairs : Parameters)
  | deviceInfo (pairs : List (Text × Text))

def parameterTokens (x : Text × Text) : List OptionToken :=
  [.short 'a', .argument x.1, .argument x.2]

/-- The last value of each name. -/
def lastValues : List (Text × Text) → List (Text × Text)
  | [] => []
  | x :: pairs =>
    if (pairs.map Prod.fst).contains x.1 then lastValues pairs else x :: lastValues pairs

theorem lookup_lastValues (pairs : List (Text × Text)) (name : Text) :
    (lastValues pairs).lookup name = pairs.reverse.lookup name := by
  induction pairs generalizing name with
  | nil => rfl
  | cons x pairs ih =>
    obtain ⟨key, value⟩ := x
    have hagain : (pairs.map Prod.fst).contains key = (pairs.reverse.lookup key).isSome := by
      rw [Bool.eq_iff_iff, List.lookup_isSome_iff]
      simp
    rw [List.reverse_cons, List.lookup_append, lastValues, hagain]
    by_cases hname : name = key
    · subst hname
      cases hlater : pairs.reverse.lookup name with
      | none => simp
      | some later => simp [ih, hlater]
    · have hne : (name == key) = false := beq_eq_false_iff_ne.mpr hname
      split <;> simp [List.lookup_cons, hne, ih]

namespace CommandLine

def opening : CommandLine → OptionToken
  | showInfo => .short 'p'
  | additionalParameters => .short 'a'
  | exit => .long optIndexExit
  | listCommands => .long optIndexCmd
  | command .. => .long optIndexCmd
  | mesurements .. => .short 'r'
  | test _ => .short 't'
  | deviceInfo _ => .short 'd'

def words : CommandLine → List OptionToken
  | command deviceId type message source id path _ =>
    [.argument deviceId, .argument type, .argument message, .argument source, .argument id,
      .long optIndexSp, .argument path]
  | mesurements deviceId path _ => [.argument deviceId, .long optIndexSp, .argument path]
  | _ => []

def pairs : CommandLine → List (Text × Text)
  | command _ _ _ _ _ _ pairs => pairs.1
  | mesurements _ _ pairs => pairs.1
  | test pairs => pairs.1
  | deviceInfo pairs => pairs
  | _ => []

def tokens (line : CommandLine) : List OptionToken :=
  line.opening :: (line.words ++ line.pairs.flatMap parameterTokens)

/-- The command that a line stands for. -/
def meaning : CommandLine → CmdLineCommand
  | showInfo => { cmdLineCommandType := some .showInfo }
  | additionalParameters => { cmdLineCommandType := some .getAdditionalParameterList }
  | exit => { cmdLineCommandType := some .exit }
  | listCommands => { cmdLineCommandType := some .listCommands }
  | command deviceId type message source id path pairs =>
    { cmdLineCommandType := some .command
      scriptPathRaw := path
      deviceIdRaw := deviceId
      cmdTypeRaw := type
      messageRaw := message
      sourceRaw := source
      cmdIdRaw := id
      additionalParametersRaw := lastValues pairs.1 }
  | mesurements deviceId path pairs =>
    { cmdLineCommandType := some .getMesurements
      scriptPathRaw := path
      deviceIdRaw := deviceId
      additionalParametersRaw := lastValues pairs.1 }
  | test pairs =>
    { cmdLineCommandType := some .testDevice, additionalParametersRaw := lastValues pairs.1 }
  | deviceInfo pairs =>
    { cmdLineCommandType := some .getConnectedDeviceInfo, additionalParametersRaw := lastValues pairs }

end CommandLine

/-! ### Lines with more in them -/

/-- `-a name value` as often as there are pairs, with other tokens before each and at the end. -/
inductive Scattered : List (Text × Text) → List OptionToken → Prop
  | nil {between : List OptionToken} (h : .short 'a' ∉ between) : Scattered [] between
  | cons {between : List OptionToken} (h : .short 'a' ∉ between) (x : Text × Text)
      {pairs : List (Text × Text)} {tokens : List OptionToken} (ht : Scattered pairs tokens) :
      Scattered (x :: pairs) (between ++ (parameterTokens x ++ tokens))

/-- Nothing stands before the first `-a`. -/
def ScatteredBehind : List (Text × Text) → List OptionToken → Prop
  | [], tokens => tokens = []
  | x :: pairs, tokens => ∃ rest, tokens = parameterTokens x ++ rest ∧ Scattered pairs rest

theorem ScatteredBehind.ne_nil {pairs : List (Text × Text)} {tokens : List OptionToken}
    (h : ScatteredBehind pairs tokens) (hpairs : pairs ≠ []) : tokens ≠ [] := by
  cases pairs with
  | nil => exact absurd rfl hpairs
  | cons x pairs =>
    obtain ⟨rest, rfl, -⟩ := h
    simp [parameterTokens]

def OptionToken.isArgument : OptionToken → Bool
  | .argument _ => true
  | _ => false

/-- The line, with options put behind a leading `-cmd` or tokens other than `-a` put behind an
`-a name value`. -/
def CommandLine.Padded (line : CommandLine) (tokens : List OptionToken) : Prop :=
  ∃ skipped rest, tokens = line.opening :: (skipped ++ (line.words ++ rest)) ∧
    (skipped = [] ∨ line.opening = .long optIndexCmd ∧ ∀ t ∈ skipped, t.isArgument = false) ∧
    ScatteredBehind line.pairs rest

theorem Scattered.passedOver {pairs : List (Text × Text)} {tokens : List OptionToken}
    {t : OptionToken} (ht : t ≠ .short 'a')
    (h : Scattered pairs tokens) : Scattered pairs (t :: tokens) := by
  cases h with
  | nil hbetween =>
    refine .nil ?_
    rw [List.mem_cons, not_or]
    exact ⟨ht.symm, hbetween⟩
  | @cons between hbetween x _ rest hrest =>
    rw [← List.cons_append]
    refine .cons ?_ x hrest
    rw [List.mem_cons, not_or]
    exact ⟨ht.symm, hbetween⟩

theorem scattered_flatMap (pairs : List (Text × Text)) :
    Scattered pairs (pairs.flatMap parameterTokens) := by
  induction pairs with
  | nil => exact .nil (by simp)
  | cons x pairs ih =>
    have hnone : OptionToken.short 'a' ∉ [] := List.not_mem_nil
    exact .cons hnone x ih

theorem CommandLine.tokens_padded (line : CommandLine) : line.Padded line.tokens := by
  refine ⟨[], line.pairs.flatMap parameterTokens, rfl, Or.inl rfl, ?_⟩
  cases line.pairs with
  | nil => rfl
  | cons x pairs => exact ⟨_, rfl, scattered_flatMap pairs⟩

/-! ### Runs from each state -/

def addPair (c : CmdLineCommand) (x : Text × Text) : CmdLineCommand := c.addParameter x.1 x.2

theorem foldl_addPair (pairs : List (Text × Text)) (c : CmdLineCommand) :
    pairs.foldl addPair c = { c with additionalParametersRaw :=
      c.additionalParametersRaw.filter (fun y => y.1 ∉ pairs.map Prod.fst) ++ lastValues pairs } := by
  induction pairs generalizing c with
  | nil => simp [lastValues]
  | cons x pairs ih =>
    have hkept : ∀ l : List (Text × Text), (l.filter fun y => y.1 ≠ x.1).filter
        (fun y => y.1 ∉ pairs.map Prod.fst) = l.filter fun y => y.1 ∉ (x :: pairs).map Prod.fst := by
      intro l
      rw [List.filter_filter]
      refine List.filter_congr fun y _ => ?_
      rw [Bool.eq_iff_iff]
      simp only [Bool.and_eq_true, decide_eq_true_eq, List.map_cons, List.mem_cons, not_or, and_comm]
    rw [List.foldl_cons, ih, addPair, CmdLineCommand.addParameter, List.filter_append, hkept,
      lastValues]
    by_cases hx : x.1 ∈ pairs.map Prod.fst
    · simp [hx]
    · simp [hx]

theorem foldl_addPair_empty (pairs : List (Text × Text)) {c : CmdLineCommand}
    (hc : c.additionalParametersRaw = []) :
    pairs.foldl addPair c = { c with additionalParametersRaw := lastValues pairs } := by
  rw [foldl_addPair, hc]
  simp

namespace Parsing

/-- The end of the words ends the loop. -/
theorem step_none (p q : Parsing) : p.step none ≠ .next q := by
  obtain ⟨state, lastArgName, command⟩ := p
  cases state <;> simp [step, firstStep, endStep, wordStep, spStep, aStep, cmdStep, dStep, aListStep,
    aNameStep, acceptAs]

theorem firstStep_some (p : Parsing) (t : OptionToken) (c : CmdLineCommand) :
    p.firstStep (some t) ≠ .accept c := by
  unfold firstStep goto
  split
  · split_ifs <;> simp
  all_goals simp

theorem spStep_some (p : Parsing) (t : OptionToken) (c : CmdLineCommand) :
    p.spStep (some t) ≠ .accept c := by
  unfold spStep goto
  split
  · split_ifs <;> simp
  · simp

theorem aStep_some (p : Parsing) (t : OptionToken) (c : CmdLineCommand) :
    p.aStep (some t) ≠ .accept c := by
  unfold aStep goto
  split <;> simp

/-- Before the end nothing is accepted. -/
theorem step_some (p : Parsing) (t : OptionToken) (c : CmdLineCommand) :
    p.step (some t) ≠ .accept c := by
  obtain ⟨state, lastArgName, command⟩ := p
  cases state with
  | first => exact firstStep_some _ t c
  | cmdId => exact spStep_some _ t c
  | rDevid => exact spStep_some _ t c
  | t => exact aStep_some _ t c
  | d => exact aStep_some _ t c
  | spPath => exact aStep_some _ t c
  | aList =>
    simp only [step, aListStep, goto]
    split <;> simp_all
  | _ => cases t <;> simp [step, endStep, wordStep, cmdStep, aNameStep, store]

variable {p : Parsing} {tokens : List OptionToken} {c : CmdLineCommand}

theorem run_nil_eq_some_iff : p.run [] = some c ↔ p.step none = .accept c := by
  rw [run]
  cases p.step none <;> simp

theorem run_cons_eq_some_iff {t : OptionToken} :
    p.run (t :: tokens) = some c ↔ ∃ q, p.step (some t) = .next q ∧ q.run tokens = some c := by
  have haccept := p.step_some t
  rw [run]
  cases hstep : p.step (some t) with
  | next q => simp
  | accept command => exact absurd hstep (haccept command)
  | error => simp

/-- The states that accept the end only. -/
theorem run_end_iff {type : CommandType} (hstep : p.step = p.endStep type) :
    p.run tokens = some c ↔ tokens = [] ∧ p.command.setType type = c := by
  cases tokens with
  | nil => simp [run_nil_eq_some_iff, hstep, endStep, acceptAs]
  | cons t tokens => simp [run_cons_eq_some_iff, hstep, endStep]

theorem run_word_iff {state : ParserState} {command : Text → CmdLineCommand}
    (hstep : p.step = p.wordStep state command) :
    p.run tokens = some c ↔ ∃ word rest, tokens = .argument word :: rest ∧
      Parsing.run ⟨state, p.lastArgName, command word⟩ rest = some c := by
  cases tokens with
  | nil => simp [run_nil_eq_some_iff, hstep, wordStep]
  | cons t tokens =>
    cases t with
    | argument word => simp [run_cons_eq_some_iff, hstep, wordStep, store]
    | long index => simp [run_cons_eq_some_iff, hstep, wordStep]
    | short letter => simp [run_cons_eq_some_iff, hstep, wordStep]

theorem run_sp_iff (hstep : p.step = p.spStep) :
    p.run tokens = some c ↔ ∃ rest, tokens = .long optIndexSp :: rest ∧
      Parsing.run { p with state := .sp } rest = some c := by
  cases tokens with
  | nil => simp [run_nil_eq_some_iff, hstep, spStep]
  | cons t tokens =>
    cases t with
    | argument word => simp [run_cons_eq_some_iff, hstep, spStep]
    | long index =>
      by_cases hindex : index = optIndexSp
      · simp [run_cons_eq_some_iff, hstep, spStep, goto, hindex]
      · simp [run_cons_eq_some_iff, hstep, spStep, hindex]
    | short letter => simp [run_cons_eq_some_iff, hstep, spStep]

/-- What is not `-a` is passed over behind a parameter. -/
theorem run_passedOver {between : List OptionToken} (hstate : p.state = .aList)
    (h : .short 'a' ∉ between) : p.run (between ++ tokens) = p.run tokens := by
  induction between with
  | nil => rfl
  | cons t between ih =>
    rw [List.mem_cons, not_or] at h
    obtain ⟨ht, hbetween⟩ := h
    have hstep : p.step (some t) = .next p := by
      simp only [step, hstate, aListStep]
      split
      · simp_all
      · simp_all
      · rfl
    rw [List.cons_append, run, hstep]
    exact ih hbetween

theorem run_name_iff (hstate : p.state = .aName) :
    p.run tokens = some c ↔ ∃ name rest, tokens = .argument name :: rest ∧
      Parsing.run ⟨.aValue, name, p.command⟩ rest = some c := by
  have hstep : ∀ t, p.step t = p.aNameStep t := fun t => by simp only [step, hstate]
  cases tokens with
  | nil => simp [run_nil_eq_some_iff, hstep, aNameStep]
  | cons t tokens => cases t <;> simp [run_cons_eq_some_iff, hstep, aNameStep]

/-- One parameter, from a state that takes `-a`. -/
theorem run_parameter_iff {q : Parsing} (hstep : p.step (some (.short 'a')) = q.goto .aName) :
    p.run (.short 'a' :: tokens) = some c ↔ ∃ x rest, .short 'a' :: tokens = parameterTokens x ++ rest ∧
      Parsing.run ⟨.aList, x.1, addPair q.command x⟩ rest = some c := by
  have hfirst : p.run (.short 'a' :: tokens) = Parsing.run { q with state := .aName } tokens := by
    rw [run, hstep, goto]
  rw [hfirst, run_name_iff rfl]
  constructor
  · rintro ⟨name, rest, rfl, hrest⟩
    obtain ⟨value, rest, rfl, hrest⟩ := (run_word_iff rfl).mp hrest
    exact ⟨(name, value), rest, rfl, hrest⟩
  · rintro ⟨x, rest, htokens, hrest⟩
    cases htokens
    exact ⟨x.1, _, rfl, (run_word_iff rfl).mpr ⟨x.2, rest, rfl, hrest⟩⟩

theorem run_aList_nil (hstate : p.state = .aList) : p.run [] = some p.command := by
  simp only [run, step, hstate, aListStep]

theorem run_scattered {pairs : List (Text × Text)} (h : Scattered pairs tokens)
    (hstate : p.state = .aList) : p.run tokens = some (pairs.foldl addPair p.command) := by
  induction h generalizing p with
  | @nil between hbetween =>
    have hpassed : p.run (between ++ []) = p.run [] := run_passedOver hstate hbetween
    rw [List.append_nil] at hpassed
    rw [hpassed, run_aList_nil hstate, List.foldl_nil]
  | @cons between hbetween x pairs tokens _ ih =>
    have hstep : p.step (some (.short 'a')) = p.goto .aName := by simp only [step, hstate, aListStep]
    rw [run_passedOver hstate hbetween, List.foldl_cons]
    exact (run_parameter_iff hstep).mpr ⟨x, tokens, rfl, ih rfl⟩

theorem scattered_of_run (hstate : p.state = .aList) (h : p.run tokens = some c) :
    ∃ pairs, Scattered pairs tokens ∧ pairs.foldl addPair p.command = c := by
  induction hlength : tokens.length using Nat.strong_induction_on generalizing p tokens with
  | _ n ih =>
    cases tokens with
    | nil =>
      rw [run_aList_nil hstate] at h
      exact ⟨[], .nil List.not_mem_nil, Option.some.inj h⟩
    | cons t tokens =>
      rw [List.length_cons] at hlength
      by_cases ht : t = .short 'a'
      · subst ht
        have hstep : p.step (some (.short 'a')) = p.goto .aName := by
          simp only [step, hstate, aListStep]
        obtain ⟨x, rest, htokens, hrest⟩ := (run_parameter_iff hstep).mp h
        have hshorter : rest.length < n := by
          have := congrArg List.length htokens
          simp only [parameterTokens, List.length_append, List.length_cons, List.length_nil] at this
          omega
        obtain ⟨pairs, hpairs, hc⟩ := ih _ hshorter rfl hrest rfl
        refine ⟨x :: pairs, ?_, hc⟩
        rw [htokens]
        exact .cons List.not_mem_nil x hpairs
      · have hbetween : OptionToken.short 'a' ∉ [t] := by simpa using Ne.symm ht
        have hpassed : p.run ([t] ++ tokens) = p.run tokens := run_passedOver hstate hbetween
        obtain ⟨pairs, hpairs, hc⟩ := ih _ (by omega) hstate (hpassed ▸ h) rfl
        exact ⟨pairs, hpairs.passedOver ht, hc⟩

/-- A state that takes `-a` first. -/
theorem run_parameters_iff (q : Parsing) (hstep : ∀ t, p.step (some t) = q.aStep (some t))
    (hnone : tokens = [] → p.step none = .error) (hempty : q.command.additionalParametersRaw = []) :
    p.run tokens = some c ↔ ∃ pairs : Parameters, ScatteredBehind pairs.1 tokens ∧
      { q.command with additionalParametersRaw := lastValues pairs.1 } = c := by
  have ha : p.step (some (.short 'a')) = q.goto .aName := by rw [hstep]; rfl
  constructor
  · intro h
    cases tokens with
    | nil =>
      rw [run_nil_eq_some_iff, hnone rfl] at h
      cases h
    | cons t tokens =>
      have ht : t = .short 'a' := by
        by_contra ht
        obtain ⟨r, hr, -⟩ := run_cons_eq_some_iff.mp h
        rw [hstep, aStep] at hr
        · cases hr
        · simpa using ht
      subst ht
      obtain ⟨x, rest, htokens, hrest⟩ := (run_parameter_iff ha).mp h
      obtain ⟨pairs, hpairs, hc⟩ := scattered_of_run rfl hrest
      refine ⟨⟨x :: pairs, List.cons_ne_nil _ _⟩, ⟨rest, htokens, hpairs⟩, ?_⟩
      rw [← foldl_addPair_empty _ hempty]
      exact hc
  · rintro ⟨⟨pairs, hpairs⟩, hbehind, hc⟩
    rw [← foldl_addPair_empty _ hempty] at hc
    cases pairs with
    | nil => exact absurd rfl hpairs
    | cons x pairs =>
      obtain ⟨rest, rfl, hrest⟩ := hbehind
      have hrun := run_scattered (p := ⟨.aList, x.1, addPair q.command x⟩) hrest rfl
      refine (run_parameter_iff ha).mpr ⟨x, rest, rfl, ?_⟩
      rw [hrun, ← hc, List.foldl_cons]

/-- `-sp path` and the parameters, as both `-cmd` and `-r` end. -/
theorem run_path_iff (hstep : p.step = p.spStep) (hempty : p.command.additionalParametersRaw = []) :
    p.run tokens = some c ↔ ∃ path rest, ∃ pairs : Parameters,
      tokens = .long optIndexSp :: .argument path :: rest ∧ ScatteredBehind pairs.1 rest ∧
      { p.command with scriptPathRaw := path, additionalParametersRaw := lastValues pairs.1 } = c := by
  have hparameters : ∀ (path : Text) (rest : List OptionToken),
      Parsing.run ⟨.spPath, p.lastArgName, { p.command with scriptPathRaw := path }⟩ rest = some c ↔
        ∃ pairs : Parameters, ScatteredBehind pairs.1 rest ∧
          { p.command with scriptPathRaw := path, additionalParametersRaw := lastValues pairs.1 } = c :=
    fun path _ => run_parameters_iff ⟨.spPath, p.lastArgName, { p.command with scriptPathRaw := path }⟩
      (fun _ => rfl) (fun _ => rfl) hempty
  rw [run_sp_iff hstep]
  constructor
  · rintro ⟨rest, rfl, h⟩
    rw [run_word_iff rfl] at h
    obtain ⟨path, rest, rfl, h⟩ := h
    obtain ⟨pairs, hpairs, hc⟩ := (hparameters path rest).mp h
    exact ⟨path, rest, pairs, rfl, hpairs, hc⟩
  · rintro ⟨path, rest, pairs, rfl, hpairs, hc⟩
    have hrest := (hparameters path rest).mpr ⟨pairs, hpairs, hc⟩
    exact ⟨_, rfl, (run_word_iff rfl).mpr ⟨path, rest, rfl, hrest⟩⟩

theorem run_t_iff : Parsing.run { state := .t } tokens = some c ↔
    ∃ pairs : Parameters, ScatteredBehind pairs.1 tokens ∧ (CommandLine.test pairs).meaning = c :=
  run_parameters_iff (Parsing.withType { state := .t } .testDevice) (fun _ => rfl) (fun _ => rfl) rfl

theorem run_d_iff : Parsing.run { state := .d } tokens = some c ↔
    ∃ pairs, ScatteredBehind pairs tokens ∧ (CommandLine.deviceInfo pairs).meaning = c := by
  cases tokens with
  | nil =>
    rw [run_nil_eq_some_iff]
    constructor
    · intro h
      exact ⟨[], rfl, ParseStep.accept.inj h⟩
    · rintro ⟨pairs, hpairs, hc⟩
      cases pairs with
      | nil => exact congrArg ParseStep.accept hc
      | cons x pairs => exact absurd rfl (hpairs.ne_nil (List.cons_ne_nil x pairs))
  | cons t tokens =>
    have hcons : t :: tokens ≠ [] := List.cons_ne_nil t tokens
    rw [run_parameters_iff (Parsing.withType { state := .d } .getConnectedDeviceInfo) (fun _ => rfl)
      (fun hnil => absurd hnil hcons) rfl]
    constructor
    · rintro ⟨pairs, hpairs, hc⟩
      exact ⟨pairs.1, hpairs, hc⟩
    · rintro ⟨pairs, hpairs, hc⟩
      cases pairs with
      | nil => exact absurd hpairs hcons
      | cons x pairs => exact ⟨⟨x :: pairs, List.cons_ne_nil x pairs⟩, hpairs, hc⟩

theorem run_r_iff : Parsing.run { state := .r } tokens = some c ↔
    ∃ deviceId path rest, ∃ pairs : Parameters,
      tokens = (CommandLine.mesurements deviceId path pairs).words ++ rest ∧
      ScatteredBehind pairs.1 rest ∧
      (CommandLine.mesurements deviceId path pairs).meaning = c := by
  rw [run_word_iff rfl]
  constructor
  · rintro ⟨deviceId, rest, rfl, h⟩
    obtain ⟨path, rest, pairs, rfl, hpairs, hc⟩ := (run_path_iff rfl rfl).mp h
    exact ⟨deviceId, path, rest, pairs, rfl, hpairs, hc⟩
  · rintro ⟨deviceId, path, rest, pairs, rfl, hpairs, hc⟩
    exact ⟨deviceId, _, rfl, (run_path_iff rfl rfl).mpr ⟨path, rest, pairs, rfl, hpairs, hc⟩⟩

/-- Behind the first word of `-cmd`. -/
theorem run_cmdDevid_iff {deviceId : Text} : Parsing.run
    { state := .cmdDevid, command := { cmdLineCommandType := some .command, deviceIdRaw := deviceId } }
      tokens = some c ↔
    ∃ type message source id path rest, ∃ pairs : Parameters,
      .argument deviceId :: tokens =
        (CommandLine.command deviceId type message source id path pairs).words ++ rest ∧
      ScatteredBehind pairs.1 rest ∧
      (CommandLine.command deviceId type message source id path pairs).meaning = c := by
  rw [run_word_iff rfl]
  constructor
  · rintro ⟨type, rest, rfl, h⟩
    rw [run_word_iff rfl] at h
    obtain ⟨message, rest, rfl, h⟩ := h
    rw [run_word_iff rfl] at h
    obtain ⟨source, rest, rfl, h⟩ := h
    rw [run_word_iff rfl] at h
    obtain ⟨id, rest, rfl, h⟩ := h
    rw [run_path_iff rfl rfl] at h
    obtain ⟨path, rest, pairs, rfl, hpairs, hc⟩ := h
    exact ⟨type, message, source, id, path, rest, pairs, rfl, hpairs, hc⟩
  · rintro ⟨type, message, source, id, path, rest, pairs, htokens, hpairs, hc⟩
    cases htokens
    refine ⟨type, _, rfl, (run_word_iff rfl).mpr ⟨message, _, rfl, ?_⟩⟩
    refine (run_word_iff rfl).mpr ⟨source, _, rfl, (run_word_iff rfl).mpr ⟨id, _, rfl, ?_⟩⟩
    exact (run_path_iff rfl rfl).mpr ⟨path, rest, pairs, rfl, hpairs, hc⟩

/-- Options directly behind `-cmd` are passed over. -/
theorem run_cmd_skipped {skipped : List OptionToken} (h : ∀ t ∈ skipped, t.isArgument = false) :
    Parsing.run { state := .cmd } (skipped ++ tokens) = Parsing.run { state := .cmd } tokens := by
  induction skipped with
  | nil => rfl
  | cons t skipped ih =>
    obtain ⟨ht, hskipped⟩ := List.forall_mem_cons.mp h
    have hpassed : Parsing.run { state := .cmd } (t :: (skipped ++ tokens)) =
        Parsing.run { state := .cmd } (skipped ++ tokens) := by
      cases t with
      | argument word => cases ht
      | _ => rfl
    rw [List.cons_append, hpassed, ih hskipped]

theorem exists_skipped (tokens : List OptionToken) : ∃ skipped rest, tokens = skipped ++ rest ∧
    (∀ t ∈ skipped, t.isArgument = false) ∧
    (rest = [] ∨ ∃ word words, rest = .argument word :: words) := by
  induction tokens with
  | nil => exact ⟨[], [], rfl, by simp, Or.inl rfl⟩
  | cons t tokens ih =>
    obtain ⟨skipped, rest, rfl, hskipped, hrest⟩ := ih
    cases t with
    | argument word => exact ⟨[], _, rfl, by simp, Or.inr ⟨word, _, rfl⟩⟩
    | _ => exact ⟨_ :: skipped, rest, rfl, List.forall_mem_cons.mpr ⟨rfl, hskipped⟩, hrest⟩

/-- What may stand first, with the state behind it. -/
def openings : List (OptionToken × ParserState) :=
  [(.long optIndexCmd, .cmd), (.long optIndexExit, .exit), (.short 'p', .p), (.short 'a', .aFirst),
   (.short 'd', .d), (.short 'r', .r), (.short 't', .t)]

theorem run_first (h : Parsing.run {} tokens = some c) : ∃ opening ∈ openings, ∃ rest,
    tokens = opening.1 :: rest ∧ Parsing.run { state := opening.2 } rest = some c := by
  cases tokens with
  | nil => cases h
  | cons t tokens =>
    obtain ⟨q, hstep, hrun⟩ := run_cons_eq_some_iff.mp h
    have hfirst : ∃ state, (t, state) ∈ openings ∧ q = { state := state } := by
      change firstStep {} (some t) = .next q at hstep
      unfold firstStep goto at hstep
      split at hstep
      · split_ifs at hstep <;> cases hstep <;> simp_all [openings]
      all_goals cases hstep <;> simp_all [openings]
    obtain ⟨state, hmem, rfl⟩ := hfirst
    exact ⟨_, hmem, tokens, rfl, hrun⟩

theorem padded_of_run (h : Parsing.run {} tokens = some c) :
    ∃ line : CommandLine, line.Padded tokens ∧ line.meaning = c := by
  obtain ⟨opening, hmem, rest, rfl, hrun⟩ := run_first h
  simp only [openings, List.mem_cons, List.not_mem_nil, or_false] at hmem
  rcases hmem with rfl | rfl | rfl | rfl | rfl | rfl | rfl
  · obtain ⟨skipped, rest, rfl, hskipped, rfl | ⟨deviceId, rest, rfl⟩⟩ := exists_skipped rest
    · rw [run_cmd_skipped hskipped] at hrun
      exact ⟨.listCommands, ⟨skipped, [], rfl, Or.inr ⟨rfl, hskipped⟩, rfl⟩, Option.some.inj hrun⟩
    · rw [run_cmd_skipped hskipped] at hrun
      obtain ⟨type, message, source, id, path, rest, pairs, htokens, hpairs, hc⟩ :=
        run_cmdDevid_iff.mp hrun
      exact ⟨.command deviceId type message source id path pairs,
        ⟨skipped, rest, by rw [htokens]; rfl, Or.inr ⟨rfl, hskipped⟩, hpairs⟩, hc⟩
  · obtain ⟨rfl, hc⟩ := (run_end_iff rfl).mp hrun
    exact ⟨.exit, ⟨[], [], rfl, Or.inl rfl, rfl⟩, hc⟩
  · obtain ⟨rfl, hc⟩ := (run_end_iff rfl).mp hrun
    exact ⟨.showInfo, ⟨[], [], rfl, Or.inl rfl, rfl⟩, hc⟩
  · obtain ⟨rfl, hc⟩ := (run_end_iff rfl).mp hrun
    exact ⟨.additionalParameters, ⟨[], [], rfl, Or.inl rfl, rfl⟩, hc⟩
  · obtain ⟨pairs, hpairs, hc⟩ := run_d_iff.mp hrun
    exact ⟨.deviceInfo pairs, ⟨[], rest, rfl, Or.inl rfl, hpairs⟩, hc⟩
  · obtain ⟨deviceId, path, rest, pairs, rfl, hpairs, hc⟩ := run_r_iff.mp hrun
    exact ⟨.mesurements deviceId path pairs, ⟨[], rest, rfl, Or.inl rfl, hpairs⟩, hc⟩
  · obtain ⟨pairs, hpairs, hc⟩ := run_t_iff.mp hrun
    exact ⟨.test pairs, ⟨[], rest, rfl, Or.inl rfl, hpairs⟩, hc⟩

/-- `Parse` takes a padded line for what the line stands for. -/
theorem run_padded {line : CommandLine} (h : line.Padded tokens) :
    Parsing.run {} tokens = some line.meaning := by
  obtain ⟨skipped, rest, rfl, hskipped, hrest⟩ := h
  have hnone : line.opening ≠ .long optIndexCmd → skipped = [] := fun hne =>
    hskipped.resolve_right fun hcmd => hne hcmd.1
  have hoptions : ∀ t ∈ skipped, t.isArgument = false := by
    rcases hskipped with rfl | ⟨-, hoptions⟩
    · simp
    · exact hoptions
  cases line with
  | showInfo =>
    rw [hnone (by decide), hrest]
    rfl
  | additionalParameters =>
    rw [hnone (by decide), hrest]
    rfl
  | exit =>
    rw [hnone (by decide), hrest]
    rfl
  | listCommands =>
    rw [hrest]
    exact run_cmd_skipped hoptions
  | command deviceId type message source id path pairs =>
    refine (run_cmd_skipped hoptions).trans (run_cmdDevid_iff.mpr ?_)
    exact ⟨type, message, source, id, path, rest, pairs, rfl, hrest, rfl⟩
  | mesurements deviceId path pairs =>
    rw [hnone (by simp [CommandLine.opening])]
    exact run_r_iff.mpr ⟨deviceId, path, rest, pairs, rfl, hrest, rfl⟩
  | test pairs =>
    rw [hnone (by simp [CommandLine.opening])]
    exact run_t_iff.mpr ⟨pairs, hrest, rfl⟩
  | deviceInfo pairs =>
    rw [hnone (by simp [CommandLine.opening])]
    exact run_d_iff.mpr ⟨pairs, hrest, rfl⟩

/-! ### The loop -/

/-- The loop after some rounds over what `getopt` returns. -/
def rounds (getopt : ℕ → Option OptionToken) : ℕ → ParseStep
  | 0 => .next {}
  | n + 1 =>
    match rounds getopt n with
    | .next p => p.step (getopt n)
    | done => done

/-- What the loop has come to agrees with what `run` makes of the words. -/
def Agrees (tokens : List OptionToken) (n : ℕ) : ParseStep → Prop
  | .next p => n ≤ tokens.length ∧ Parsing.run {} tokens = p.run (tokens.drop n)
  | .accept c => Parsing.run {} tokens = some c
  | .error => Parsing.run {} tokens = none

theorem rounds_agrees (tokens : List OptionToken) (n : ℕ) :
    Agrees tokens n (rounds (tokens[·]?) n) := by
  induction n with
  | zero => exact ⟨Nat.zero_le _, rfl⟩
  | succ n ih =>
    rw [rounds]
    cases hrounds : rounds (tokens[·]?) n with
    | accept c => rwa [hrounds] at ih
    | error => rwa [hrounds] at ih
    | next p =>
      rw [hrounds] at ih
      obtain ⟨hn, hrun⟩ := ih
      rcases Nat.lt_or_ge n tokens.length with hlt | hge
      · rw [List.drop_eq_getElem_cons hlt, run] at hrun
        simp only [List.getElem?_eq_getElem hlt]
        cases hstep : p.step (some tokens[n]) with
        | next q => exact ⟨hlt, by rw [hrun, hstep]⟩
        | accept c => exact absurd hstep (p.step_some _ c)
        | error => simpa [Agrees, hstep] using hrun
      · rw [List.drop_eq_nil_of_le hge, run] at hrun
        simp only [List.getElem?_eq_none hge]
        cases hstep : p.step none with
        | next q => exact absurd hstep (p.step_none q)
        | accept c => simpa [Agrees, hstep] using hrun
        | error => simpa [Agrees, hstep] using hrun

/-- One round behind the last word the loop has ended. -/
theorem rounds_last (tokens : List OptionToken) : rounds (tokens[·]?) (tokens.length + 1) =
    match Parsing.run {} tokens with
    | some c => .accept c
    | none => .error := by
  have hagrees := rounds_agrees tokens (tokens.length + 1)
  cases hrounds : rounds (tokens[·]?) (tokens.length + 1) with
  | next p =>
    rw [hrounds] at hagrees
    exact absurd hagrees.1 (by omega)
  | accept c =>
    rw [hrounds] at hagrees
    rw [show Parsing.run {} tokens = some c from hagrees]
  | error =>
    rw [hrounds] at hagrees
    rw [show Parsing.run {} tokens = none from hagrees]

end Parsing

/-- `Parse` ends with this over the words of the list, behind which `getopt` returns -1 for ever. -/
def ParseReturns (tokens : List OptionToken) : Option CmdLineCommand → Prop
  | some c => ∃ n, Parsing.rounds (tokens[·]?) n = .accept c
  | none => ∃ n, Parsing.rounds (tokens[·]?) n = .error

theorem parseReturns_iff {tokens : List OptionToken} {result : Option CmdLineCommand} :
    ParseReturns tokens result ↔ Parsing.run {} tokens = result := by
  cases result with
  | none =>
    constructor
    · rintro ⟨n, hn⟩
      have hagrees := Parsing.rounds_agrees tokens n
      rwa [hn] at hagrees
    · intro hrun
      exact ⟨_, by rw [Parsing.rounds_last, hrun]⟩
  | some c =>
    constructor
    · rintro ⟨n, hn⟩
      have hagrees := Parsing.rounds_agrees tokens n
      rwa [hn] at hagrees
    · intro hrun
      exact ⟨_, by rw [Parsing.rounds_last, hrun]⟩

/-- `Parse` ends, takes the words if they are a line, and takes them for what the line stands for. -/
structure ParsesLines (tokens : List OptionToken) : Prop where
  ends : ∃ result, ParseReturns tokens result
  meaning : ∀ c, ParseReturns tokens (some c) ↔
    ∃ line : CommandLine, line.tokens = tokens ∧ line.meaning = c

/-- `Parse` takes exactly the lines where the words are a line, or are also none when what is passed
over is taken out. -/
theorem parsesLines_iff (tokens : List OptionToken) : ParsesLines tokens ↔
    (∃ line : CommandLine, line.tokens = tokens) ∨ ¬∃ line : CommandLine, line.Padded tokens := by
  constructor
  · intro h
    by_contra hneither
    obtain ⟨hline, hpadded⟩ := not_or.mp hneither
    obtain ⟨line, hpadded⟩ := not_not.mp hpadded
    have hreturns := parseReturns_iff.mpr (Parsing.run_padded hpadded)
    obtain ⟨line', htokens, -⟩ := (h.meaning _).mp hreturns
    exact hline ⟨line', htokens⟩
  · intro h
    refine ⟨⟨_, parseReturns_iff.mpr rfl⟩, fun c => ?_⟩
    rw [parseReturns_iff]
    constructor
    · intro hrun
      obtain ⟨padded, hpadded, rfl⟩ := Parsing.padded_of_run hrun
      obtain ⟨line, rfl⟩ := h.resolve_right (not_not.mpr ⟨padded, hpadded⟩)
      rw [Parsing.run_padded line.tokens_padded] at hrun
      exact ⟨line, rfl, Option.some.inj hrun⟩
    · rintro ⟨line, rfl, rfl⟩
      exact Parsing.run_padded line.tokens_padded

/-! ### An option behind `-cmd` -/

/-- `-cmd -p`: the second option is passed over and the commands are listed. -/
theorem parsesLines_false : ¬∀ tokens, ParsesLines tokens := by
  intro hall
  have hreturns : ParseReturns [.long optIndexCmd, .short 'p']
      (some CommandLine.listCommands.meaning) := parseReturns_iff.mpr rfl
  obtain ⟨line, hline, -⟩ := ((hall _).meaning _).mp hreturns
  cases line <;> simp [CommandLine.tokens, CommandLine.opening, CommandLine.words, CommandLine.pairs,
    optIndexExit, optIndexCmd] at hline

end Ritex
