import HardFork.Octets

/-! # Hexadecimal constants

A constant is read by position: octet `i` stands at the digits `2*i` and `2*i+1` after the mark. -/
namespace HardFork.Hex.Literal

inductive Fault
  | wrongLength
  | invalidDigit
deriving DecidableEq

def Fault.message : Fault → String
  | .wrongLength => "hex literal has wrong length"
  | .invalidDigit => "invalid hex digit in literal"

def lowerDigits : List UInt8 := utf8 "0123456789abcdef"
def upperDigits : List UInt8 := utf8 "0123456789ABCDEF"

def rank? (c : UInt8) : Option Nat :=
  match lowerDigits.idxOf? c with
  | some i => some i
  | none => upperDigits.idxOf? c

def hasMark (text : Array UInt8) : Bool :=
  text.size ≥ 2 && text[0]? = some 48 && (text[1]? = some 120 || text[1]? = some 88)

def octetAt? (text : Array UInt8) (i : Nat) : Option UInt8 := do
  let high ← rank? (← text[i]?)
  let low ← rank? (← text[i+1]?)
  return UInt8.ofNat (16*high+low)

def read (width : Nat) (text : String) : Except Fault (Octets width) :=
  let octets := (utf8 text).toArray
  let start := if hasMark octets then 2 else 0
  let read? i := octetAt? octets (start+2*i)
  if octets.size-start ≠ 2*width then .error .wrongLength
  else if (List.range width).all fun i => (read? i).isSome then
    .ok ⟨(List.range width).map fun i => (read? i).getD 0, by simp⟩
  else .error .invalidDigit

end HardFork.Hex.Literal
