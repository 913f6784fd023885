import HardFork.CommandLine.Synopsis
import HardFork.Compatibility
import HardFork.Document
import HardFork.Network
import HardFork.Ordering
import HardFork.Rules

/-! # The command line: validate, compare and show schedules -/
namespace HardFork.CommandLine

inductive Command
  | validate (file : String)
  | compat (stored candidate : String) (head : UInt64)
  | rules (file : String) (height : UInt64)
  | showNetwork (name : String)
deriving DecidableEq

/-- Why arguments make no command: help is asked for, or they fit none. -/
inductive Interruption
  | help (text : String)
  | misuse
deriving DecidableEq

/-- The arguments after the command: those that stand by place, and those given by name. -/
structure Arguments where
  places : List String := []
  options : List (String × UInt64) := []

/-- A value that looks like an option is none. -/
def isOption (arg : List Char) : Bool := arg.head? = some '-' && arg.length > 1

def isHelp : List Char → Bool
  | '-' :: 'h' :: _ => true
  | arg => arg = "--help".toList

/-- Decimal digits, a plus in front allowed, of a number that a word holds. -/
def readWord? (text : String) : Option UInt64 :=
  let ds := match text.toList with
    | '+' :: rest => rest
    | cs => cs
  let n := Decimal.value ds
  if ds.isEmpty || !ds.all Char.isDigit || n ≥ UInt64.size then none else some (UInt64.ofNat n)

/-- A file has a name. -/
def Synopsis.accepts (s : Synopsis) (place : String) : Bool := s = showNetwork || !place.isEmpty

def Arguments.push (s : Synopsis) (a : Arguments) (place : String) :
    Except Interruption Arguments :=
  if a.places.length < s.places.length && s.accepts place then
    .ok {a with places := a.places ++ [place]}
  else .error .misuse

def Arguments.give (s : Synopsis) (a : Arguments) (option value : String) :
    Except Interruption Arguments :=
  match readWord? value with
  | none => .error .misuse
  | some n =>
    if (s.options.any fun p => p.name = option) && (a.options.lookup option).isNone then
      .ok {a with options := a.options ++ [(option, n)]}
    else .error .misuse

/-- Sorts the arguments; after two dashes each stands by place. The first that asks for help or
does not fit decides. -/
def sortArguments (s : Synopsis) : Arguments → List String → Except Interruption Arguments
  | a, [] => .ok a
  | a, arg :: rest =>
    if isHelp arg.toList then .error (.help s.help)
    else match arg.toList with
      | ['-', '-'] => rest.foldlM (Arguments.push s) a
      | '-' :: '-' :: text =>
        let name := String.ofList (text.takeWhile (· ≠ '='))
        match text.dropWhile (· ≠ '='), rest with
        | _ :: value, rest => do sortArguments s (← a.give s name (String.ofList value)) rest
        | [], value :: rest =>
          if isOption value.toList then .error .misuse
          else do sortArguments s (← a.give s name value) rest
        | [], [] => .error .misuse
      | text =>
        if isOption text then .error .misuse else do sortArguments s (← a.push s arg) rest

def command? (s : Synopsis) (a : Arguments) : Option Command :=
  match a.places with
  | [place] =>
    if s = validate then some (.validate place)
    else if s = rules then (a.options.lookup "height").map (.rules place)
    else if s = showNetwork then some (.showNetwork place)
    else none
  | [stored, candidate] =>
    if s = compat then (a.options.lookup "head").map (.compat stored candidate) else none
  | _ => none

def synopsis? (name : String) : Option Synopsis := synopses.find? fun s => s.name = name

def help : List String → Interruption
  | [] => .help overview
  | [topic] =>
    if topic = "help" then .help helpOnHelp
    else match synopsis? topic with
      | some s => .help s.help
      | none => .misuse
  | _ => .misuse

def parse : List String → Except Interruption Command
  | [] => .error .misuse
  | name :: args =>
    if isHelp name.toList then .error (.help overview)
    else if name = "help" then .error (help args)
    else match synopsis? name with
      | none => .error .misuse
      | some s => do
        match command? s (← sortArguments s {} args) with
        | some command => return command
        | none => throw .misuse

def Command.files : Command → List String
  | .validate file => [file]
  | .compat stored candidate _ => [stored, candidate]
  | .rules file _ => [file]
  | .showNetwork _ => []

inductive Failure
  | loading (file : String) (e : Schedule.LoadError)
  | order (v : Ordering.Violation)
  | engine (d : Posa.Defect)
  | incompatible (c : Compatibility.Conflict)
  | unknownNetwork (name : String)

def indent (text : String) : String := "\n    ".intercalate (text.splitOn "\n")

/-- An error that has a cause of its own is numbered together with it. -/
def causes : Schedule.LoadError → String
  | .document e => s!"    {indent e.message}"
  | e =>
    let reason := e.reason
    s!"    0: {e.message}\n    1: {reason}"

def Failure.message : Failure → String
  | .loading file e => s!"loading {file}\n\nCaused by:\n" ++ causes e
  | .order v => v.message
  | .engine d => d.message
  | .incompatible c => c.message
  | .unknownNetwork name => s!"unknown network: {name}"

/-- What a path leads to. -/
abbrev Files : Type := String → Except Unreadable ByteArray

def load (files : Files) (file : String) : Except Failure Schedule :=
  (Schedule.ofFile (files file)).mapError (.loading file)

def run (files : Files) : Command → Except Failure String
  | .validate file => do
    let s ← load files file
    s.checkOrder.mapError .order
    s.validateEngine.mapError .engine
    return s!"ok: {s}"
  | .compat stored candidate head => do
    let s ← load files stored
    let c ← load files candidate
    match Compatibility.lowest? s c head with
    | some conflict => throw (.incompatible conflict)
    | none => return s!"compatible at head {head.toNat}"
  | .rules file height => do
    let s ← load files file
    return (s.rules height).listing
  | .showNetwork name =>
    match Network.named? name with
    | some s => .ok s.text
    | none => .error (.unknownNetwork name)

structure Answer where
  exitCode : UInt8
  out : String := ""
  err : String := ""
deriving DecidableEq

def answer (files : Files) (args : List String) : Answer :=
  match parse args with
  | .error (.help text) => {exitCode := 0, out := text}
  | .error .misuse => {exitCode := 2, err := overview}
  | .ok command =>
    match run files command with
    | .ok text => {exitCode := 0, out := text ++ "\n"}
    | .error failure => {exitCode := 1, err := s!"Error: {failure.message}\n"}

end HardFork.CommandLine
