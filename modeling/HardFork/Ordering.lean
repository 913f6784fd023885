import HardFork.Schedule

/-! # The order in which forks may be scheduled

No fork is scheduled before an earlier one, nor while an earlier one is not; an optional fork that
is not scheduled is passed over. -/
namespace HardFork.Ordering

structure Entry where
  fork : Fork
  threshold : Threshold
  optional : Bool
deriving DecidableEq

inductive Violation
  | skipped (previous current : Fork) (block : UInt64)
  | misordered (previous : Fork) (previousBlock : UInt64) (current : Fork) (block : UInt64)
deriving DecidableEq

def Violation.message : Violation → String
  | .skipped previous current block =>
    s!"unsupported fork ordering: {previous.key} not enabled, " ++
      s!"but {current.key} enabled at {block.toNat}"
  | .misordered previous previousBlock current block =>
    s!"unsupported fork ordering: {previous.key} enabled at {previousBlock.toNat}, " ++
      s!"but {current.key} enabled at {block.toNat}"

/-- Does the entry bind those after it? -/
def Entry.isTracked (e : Entry) : Bool := !e.optional || e.threshold.isScheduled

def violation? (previous current : Entry) : Option Violation :=
  match previous.threshold, current.threshold with
  | .unscheduled, .scheduled block => some (.skipped previous.fork current.fork block)
  | .scheduled previousBlock, .scheduled block =>
    if previousBlock > block then some (.misordered previous.fork previousBlock current.fork block)
    else none
  | _, .unscheduled => none

/-- Walks along the entries with the last tracked one; the first violation is the answer. -/
def checkFrom : Option Entry → List Entry → Except Violation Unit
  | _, [] => .ok ()
  | last, e :: entries =>
    match last.bind fun previous => violation? previous e with
    | some v => .error v
    | none => checkFrom (if e.isTracked then some e else last) entries

def check (entries : List Entry) : Except Violation Unit := checkFrom none entries

/-- The forks under the rule and whether they are optional. -/
def ordered : List (Fork × Bool) :=
  [(.homestead, false), (.dao, true), (.eip150, false), (.eip155, false), (.eip158, false),
   (.byzantium, false), (.constantinople, false), (.petersburg, false), (.istanbul, false),
   (.muirGlacier, true), (.berlin, false), (.ishikari, false),
   (.ishikariPatch1, false), (.ishikariPatch2, false)]

end HardFork.Ordering

namespace HardFork.Schedule

def entries (s : Schedule) : List Ordering.Entry :=
  Ordering.ordered.map fun (fork, optional) => ⟨fork, s.threshold fork, optional⟩

def checkOrder (s : Schedule) : Except Ordering.Violation Unit := Ordering.check s.entries

end HardFork.Schedule
