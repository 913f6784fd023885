/-! # Octet strings of a fixed width, and the octets of a text -/
namespace HardFork

structure Octets (width : Nat) where
  toList : List UInt8
  length_toList : toList.length = width
deriving DecidableEq

abbrev Hash := Octets 32
abbrev Address := Octets 20

namespace Octets

def zero (width : Nat) : Octets width := ⟨List.replicate width 0, List.length_replicate⟩

def isZero {width : Nat} (o : Octets width) : Bool := o == zero width

theorem isZero_iff {width : Nat} {o : Octets width} : o.isZero ↔ o = zero width := beq_iff_eq

@[ext] theorem ext {width : Nat} {a b : Octets width} (h : a.toList = b.toList) : a = b := by
  cases a; cases b; cases h; rfl

end Octets

/-- The UTF-8 octets of a text, in order. -/
def utf8 (text : String) : List UInt8 := text.toList.flatMap String.utf8EncodeChar

/-- The last `width` base-256 digits of a number, the most significant first. -/
def bigEndian : (width : Nat) → Nat → List UInt8
  | 0, _ => []
  | width+1, n => bigEndian width (n/256) ++ [UInt8.ofNat n]

@[simp] theorem length_bigEndian (width n : Nat) : (bigEndian width n).length = width := by
  induction width generalizing n with
  | zero => rfl
  | succ width ih => simp [bigEndian, ih]

/-- The octets that a number is written with. -/
def Octets.ofNat (width n : Nat) : Octets width := ⟨bigEndian width n, length_bigEndian width n⟩

end HardFork
