/-! # What a command takes, and its help -/
namespace HardFork.CommandLine

/-- A value that a command takes, and what it stands for. -/
structure Parameter where
  name : String
  meaning : String
deriving DecidableEq

/-- A command: the values that it takes by place, and those that it takes by name. -/
structure Synopsis where
  name : String
  purpose : String
  places : List Parameter := []
  options : List Parameter := []
deriving DecidableEq

def validate : Synopsis where
  name := "validate"
  purpose := "Check fork ordering and consensus engine parameters"
  places := [⟨"file", "Chain config JSON file"⟩]

def compat : Synopsis where
  name := "compat"
  purpose := "Check whether a new config can replace a stored one"
  places :=
    [⟨"stored", "Stored chain config JSON file"⟩, ⟨"candidate", "Candidate chain config JSON file"⟩]
  options := [⟨"head", "Current chain head"⟩]

def rules : Synopsis where
  name := "rules"
  purpose := "Print the rules active at a height"
  places := [⟨"file", "Chain config JSON file"⟩]
  options := [⟨"height", "Block height"⟩]

def showNetwork : Synopsis where
  name := "show"
  purpose := "Print a built-in network config as JSON"
  places := [⟨"network", "mainnet, testnet, dev-ethash, dev-clique or test"⟩]

def synopses : List Synopsis := [validate, compat, rules, showNetwork]

def program : String := "qc-18-chain-config"

def purpose : String := "Validate, compare and inspect chain fork schedules"

def helpPurpose : String := "Print this message or the help of the given subcommand(s)"

def Parameter.placeholder (p : Parameter) : String := s!"<{p.name.toUpper}>"

def Parameter.option (p : Parameter) : String := s!"--{p.name} {p.placeholder}"

def padEnd (width : Nat) (text : String) : String :=
  text ++ String.ofList (List.replicate (width-text.length) ' ')

/-- Lines of two columns under a heading. -/
def table (heading : String) (rows : List (String × String)) : String :=
  let width := (rows.map fun row => row.1.length).foldl max 0
  s!"\n{heading}:\n" ++
    String.join (rows.map fun (left, right) => s!"  {padEnd width left}  {right}\n")

def opening (purpose : String) (words : List String) : String :=
  s!"{purpose}\n\nUsage: " ++ " ".intercalate (program :: words) ++ "\n"

def helpOption : String × String := ("-h, --help", "Print help")

def Synopsis.help (s : Synopsis) : String :=
  let words := s.name :: s.options.map (·.option) ++ s.places.map (·.placeholder)
  opening s.purpose words ++
    table "Arguments" (s.places.map fun p => (p.placeholder, p.meaning)) ++
    table "Options" (s.options.map (fun p => ("    " ++ p.option, p.meaning)) ++ [helpOption])

def overview : String :=
  opening purpose ["<COMMAND>"] ++
    table "Commands" (synopses.map (fun s => (s.name, s.purpose)) ++ [("help", helpPurpose)]) ++
    table "Options" [helpOption]

def helpOnHelp : String :=
  opening helpPurpose ["help", "[COMMAND]..."] ++
    table "Arguments" [("[COMMAND]...", "Print help for the subcommand(s)")]

end HardFork.CommandLine
