import HardFork.Schedule

/-! # May a schedule replace another one at a head?

A fork that is active at the head under either schedule must have one threshold in both, since the
blocks up to the head were processed under it. A conflict tells how far the chain must go back; the
search goes back and looks again until the schedules agree. -/
namespace HardFork.Compatibility

inductive Subject
  | fork (f : Fork)
  | daoForkSupport
  | chainId
deriving DecidableEq

def Subject.label : Subject → String
  | .fork f => f.label
  | .daoForkSupport => "DAO fork support flag"
  | .chainId => "EIP158 chain ID"

structure Conflict where
  subject : Subject
  stored : Threshold
  new : Threshold
  rewindTo : UInt64
deriving DecidableEq

/-- The earlier of two thresholds. -/
def earlier : Threshold → Threshold → Threshold
  | .unscheduled, new => new
  | stored, .unscheduled => stored
  | .scheduled s, .scheduled n => .scheduled (if s < n then s else n)

/-- The last height before a threshold; there is none before the first block. -/
def heightBefore : Threshold → UInt64
  | .unscheduled => 0
  | .scheduled block => if block > 0 then block-1 else 0

def Conflict.of (subject : Subject) (stored new : Threshold) : Conflict :=
  ⟨subject, stored, new, heightBefore (earlier stored new)⟩

def Conflict.message (c : Conflict) : String :=
  s!"mismatching {c.subject.label} in database " ++
    s!"(have {c.stored}, want {c.new}, rewindto {c.rewindTo.toNat})"

/-- The forks that are compared; the fix of 2021 is not. -/
def forks : List Fork :=
  [.homestead, .dao, .eip150, .eip155, .eip158, .byzantium, .constantinople, .petersburg, .istanbul,
   .muirGlacier, .berlin, .yoloV3, .ewasm, .ishikari, .ishikariPatch1, .ishikariPatch2]

def isIncompatible (stored new : Threshold) (head : UInt64) : Bool :=
  (stored.isActiveAt head || new.isActiveAt head) && stored ≠ new

variable (stored new : Schedule)

/-- Petersburg may move to the stored Constantinople, where an unscheduled one already was. -/
def isExempt (f : Fork) (head : UInt64) : Bool :=
  f = .petersburg && !isIncompatible (stored.threshold .constantinople) (new.threshold f) head

/-- The conflict at a fork: its thresholds, else what was settled when it became active. -/
def conflictAt? (head : UInt64) (f : Fork) : Option Conflict :=
  let s := stored.threshold f
  let n := new.threshold f
  if isIncompatible s n head && !isExempt stored new f head then some (.of (.fork f) s n)
  else if f = .dao && stored.isActive .dao head && stored.daoForkSupport ≠ new.daoForkSupport then
    some (.of .daoForkSupport s n)
  else if f = .eip158 && stored.isActive .eip158 head && stored.chainId ≠ new.chainId then
    some (.of .chainId s n)
  else none

/-- One pass: the first conflict in protocol order. -/
def conflict? (head : UInt64) : Option Conflict := forks.findSome? (conflictAt? stored new head)

structure Finding where
  head : UInt64
  conflict : Conflict
deriving DecidableEq

/-- The conflicts found on the way down. A conflict whose height was already reached is the one
found before, so the search ends there. -/
def searchFrom (reached : Option UInt64) (head : UInt64) : List Finding :=
  match conflict? stored new head with
  | none => []
  | some c =>
    if reached = some c.rewindTo then []
    else if _ : c.rewindTo < head then ⟨head, c⟩ :: searchFrom (some c.rewindTo) c.rewindTo
    else [⟨head, c⟩]
termination_by head.toNat
decreasing_by exact UInt64.lt_iff_toNat_lt.mp ‹_›

def search (head : UInt64) : List Finding := searchFrom stored new none head

/-- The lowest conflict at or below the head. -/
def lowest? (head : UInt64) : Option Conflict := (search stored new head).getLast?.map (·.conflict)

end HardFork.Compatibility
