import Ritex.Protocol

/-! `CmdLineParser`: the words of a command line and the automaton over what `getopt_long_only` makes
of them. -/
namespace Ritex

/-- A byte string. -/
abbrev Text := List Char

/-- The text behind a pointer to `char`: it ends at the first zero byte. -/
def cString (memory : List Byte) : Text :=
  (memory.takeWhile (· ≠ 0)).map fun b => Char.ofNat b.toNat

/-- `split` and the loop of `SetCmdLine`: `getline` gives no empty text behind the last delimiter. -/
def split (delim : Char) (s : Text) : List Text :=
  if (s.splitOn delim).getLast? = some [] then (s.splitOn delim).dropLast else s.splitOn delim

def setCmdLine (cmdLine : Text) : List Text := split ' ' cmdLine

/-- What `getopt_long_only` returns before it returns -1. -/
inductive OptionToken
  /-- The code 1: a word that is no option. -/
  | argument (optarg : Text)
  /-- The code 0 with `option_index`. -/
  | long (index : ℕ)
  | short (c : Char)
  deriving DecidableEq

def optIndexCmd : ℕ := 0
def optIndexSp : ℕ := 1
def optIndexExit : ℕ := 2

inductive CommandType
  | exit
  | showInfo
  | listCommands
  | command
  | getMesurements
  | getConnectedDeviceInfo
  | getAdditionalParameterList
  | testDevice
  deriving DecidableEq

/-- `CmdLineCommand` before it is compiled. -/
structure CmdLineCommand where
  cmdLineCommandType : Option CommandType := none
  scriptPathRaw : Text := []
  deviceIdRaw : Text := []
  cmdTypeRaw : Text := []
  messageRaw : Text := []
  sourceRaw : Text := []
  cmdIdRaw : Text := []
  additionalParametersRaw : List (Text × Text) := []
  deriving DecidableEq

namespace CmdLineCommand

def setType (c : CmdLineCommand) (type : CommandType) : CmdLineCommand :=
  { c with cmdLineCommandType := some type }

/-- `AddParameter`; a name that comes again replaces the value. -/
def addParameter (c : CmdLineCommand) (name value : Text) : CmdLineCommand :=
  { c with additionalParametersRaw :=
      c.additionalParametersRaw.filter (fun x => x.1 ≠ name) ++ [(name, value)] }

end CmdLineCommand

inductive ParserState
  | first
  | aFirst
  | aList
  | aName
  | aValue
  | p
  | d
  | r
  | rDevid
  | t
  | cmd
  | cmdDevid
  | cmdType
  | cmdMsg
  | cmdSrc
  | cmdId
  | sp
  | spPath
  | exit
  deriving DecidableEq

structure Parsing where
  state : ParserState := .first
  lastArgName : Text := []
  command : CmdLineCommand := {}
  deriving DecidableEq

inductive ParseStep
  | next (p : Parsing)
  | accept (c : CmdLineCommand)
  | error
  deriving DecidableEq

namespace Parsing

def goto (p : Parsing) (state : ParserState) : ParseStep := .next { p with state := state }

def store (p : Parsing) (state : ParserState) (command : CmdLineCommand) : ParseStep :=
  .next { p with state := state, command := command }

def acceptAs (p : Parsing) (type : CommandType) : ParseStep := .accept (p.command.setType type)

def firstStep (p : Parsing) : Option OptionToken → ParseStep
  | some (.long index) =>
    if index = optIndexCmd then p.goto .cmd
    else if index = optIndexExit then p.goto .exit
    else .error
  | some (.short 'p') => p.goto .p
  | some (.short 'a') => p.goto .aFirst
  | some (.short 'd') => p.goto .d
  | some (.short 'r') => p.goto .r
  | some (.short 't') => p.goto .t
  | _ => .error

/-- A state that accepts only the end. -/
def endStep (p : Parsing) (type : CommandType) : Option OptionToken → ParseStep
  | none => p.acceptAs type
  | some _ => .error

def wordStep (p : Parsing) (state : ParserState) (command : Text → CmdLineCommand) :
    Option OptionToken → ParseStep
  | some (.argument optarg) => p.store state (command optarg)
  | _ => .error

def spStep (p : Parsing) : Option OptionToken → ParseStep
  | some (.long index) => if index = optIndexSp then p.goto .sp else .error
  | _ => .error

def aStep (p : Parsing) : Option OptionToken → ParseStep
  | some (.short 'a') => p.goto .aName
  | _ => .error

/-- OPTION_CMD, which passes over what it does not know. -/
def cmdStep (p : Parsing) : Option OptionToken → ParseStep
  | none => p.acceptAs .listCommands
  | some (.argument optarg) =>
    p.store .cmdDevid { p.command.setType .command with deviceIdRaw := optarg }
  | some _ => .next p

def dStep (p : Parsing) : Option OptionToken → ParseStep
  | none => .accept p.command
  | c => p.aStep c

/-- OPTION_A_LIST, which passes over what it does not know. -/
def aListStep (p : Parsing) : Option OptionToken → ParseStep
  | none => .accept p.command
  | some (.short 'a') => p.goto .aName
  | some _ => .next p

def aNameStep (p : Parsing) : Option OptionToken → ParseStep
  | some (.argument optarg) => .next { p with state := .aValue, lastArgName := optarg }
  | _ => .error

def withType (p : Parsing) (type : CommandType) : Parsing :=
  { p with command := p.command.setType type }

/-- A round of the loop of `Parse`; `none` is the -1 at the end. -/
def step (p : Parsing) (c : Option OptionToken) : ParseStep :=
  match p.state with
  | .first => p.firstStep c
  | .aFirst => p.endStep .getAdditionalParameterList c
  | .p => p.endStep .showInfo c
  | .exit => p.endStep .exit c
  | .cmd => p.cmdStep c
  | .cmdDevid => p.wordStep .cmdType (fun optarg => { p.command with cmdTypeRaw := optarg }) c
  | .cmdType => p.wordStep .cmdMsg (fun optarg => { p.command with messageRaw := optarg }) c
  | .cmdMsg => p.wordStep .cmdSrc (fun optarg => { p.command with sourceRaw := optarg }) c
  | .cmdSrc => p.wordStep .cmdId (fun optarg => { p.command with cmdIdRaw := optarg }) c
  | .cmdId => p.spStep c
  | .t => (p.withType .testDevice).aStep c
  | .d => (p.withType .getConnectedDeviceInfo).dStep c
  | .aList => p.aListStep c
  | .aName => p.aNameStep c
  | .aValue => p.wordStep .aList (p.command.addParameter p.lastArgName) c
  | .r => p.wordStep .rDevid
      (fun optarg => { p.command.setType .getMesurements with deviceIdRaw := optarg }) c
  | .rDevid => p.spStep c
  | .sp => p.wordStep .spPath (fun optarg => { p.command with scriptPathRaw := optarg }) c
  | .spPath => p.aStep c

/-- The rest of `Parse`. The end never leads on to a further round. -/
def run (p : Parsing) : List OptionToken → Option CmdLineCommand
  | [] =>
    match p.step none with
    | .accept c => some c
    | _ => none
  | c :: tokens =>
    match p.step (some c) with
    | .next p => p.run tokens
    | .accept c => some c
    | .error => none

end Parsing

/-- `Parse`, over the words as `getopt_long_only` takes them. -/
def parse (getopt : List Text → List OptionToken) (args : List Text) : Option CmdLineCommand :=
  Parsing.run {} (getopt args)

end Ritex
