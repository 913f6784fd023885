import HardFork.Proofs.Document
import Mathlib.Data.List.Basic

/-! # The members of a written schedule

A schedule is written with a member for each of its thresholds that is set, under the key of the
fork, and with the other slots where they say something. A change of one threshold changes the
member of its fork and no other. -/
namespace HardFork
open Json

namespace Document

variable {d d' : Document} {m : String × Json}

/-- The names of all members, in the order in which they are written. -/
def names : List String := Slot.all.map Slot.key

/-- What is written of a slot. -/
def Slot.member? (d : Document) (slot : Slot) : Option (String × Json) :=
  (slot.value? d).map fun v => (slot.key, v)

variable {slot : Slot} {slots before after : List Slot}

end Document

namespace Schedule
open Document

end Schedule
end HardFork
