import HardFork.Json.Record

/-! # The height from which a fork is active -/
namespace HardFork

inductive Threshold
  | unscheduled
  | scheduled (block : UInt64)
deriving DecidableEq

instance : Inhabited Threshold := ⟨.unscheduled⟩

namespace Threshold

def ofOption : Option UInt64 → Threshold
  | none => unscheduled
  | some block => scheduled block

def block? : Threshold → Option UInt64
  | unscheduled => none
  | scheduled block => some block

def isScheduled (t : Threshold) : Bool := t.block?.isSome

def isActiveAt : Threshold → UInt64 → Bool
  | unscheduled, _ => false
  | scheduled block, height => block ≤ height

theorem isActiveAt_iff {t : Threshold} {height : UInt64} :
    t.isActiveAt height ↔ ∃ block, t = scheduled block ∧ block ≤ height := by
  cases t <;> simp [isActiveAt]

/-- Active at a height that may be unknown. -/
def isForked (t : Threshold) : Option UInt64 → Bool
  | none => false
  | some height => t.isActiveAt height

def activatesAt (t : Threshold) (height : UInt64) : Bool := t = scheduled height

protected def toString : Threshold → String
  | unscheduled => "nil"
  | scheduled block => toString block.toNat

instance : ToString Threshold := ⟨Threshold.toString⟩

def toJson : Threshold → Json
  | unscheduled => .null
  | scheduled block => .nat block.toNat

def read : Json.Reader Threshold := fun cs => do
  let (block, rest) ← Json.readOption Json.readNatural cs
  return (ofOption block, rest)

end Threshold
end HardFork
