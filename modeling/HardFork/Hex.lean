import HardFork.Octets
import HardFork.Text

/-! # Octets written as hexadecimal digits

Two digits an octet, the high one first, after an optional mark `0x` or `0X`. -/
namespace HardFork.Hex

inductive Error
  | invalidLength (expected got : Nat)
  | invalidDigit (octet : UInt8) (position : Nat)
deriving DecidableEq

/-- An octet that is no digit is shown as the character of the same number. -/
def Error.message : Error → String
  | .invalidLength expected got => s!"Invalid hex length: expected {expected} bytes, got {got}"
  | .invalidDigit octet position =>
    let shown := Text.quotedChar (Char.ofNat octet.toNat)
    s!"Invalid hex digit: Invalid character {shown} at position {position}"

def digit (n : UInt8) : Char := Char.ofNat (if n < 10 then 48+n.toNat else 87+n.toNat)

def digits (octets : List UInt8) : List Char :=
  octets.flatMap fun o => [digit (o/16), digit (o%16)]

def format (octets : List UInt8) : String := String.ofList ('0' :: 'x' :: digits octets)

def value? (c : UInt8) : Option UInt8 :=
  if 48 ≤ c && c ≤ 57 then some (c-48)
  else if 97 ≤ c && c ≤ 102 then some (c-87)
  else if 65 ≤ c && c ≤ 70 then some (c-55)
  else none

def value (position : Nat) (c : UInt8) : Except Error UInt8 :=
  match value? c with
  | some v => .ok v
  | none => .error (.invalidDigit c position)

def withoutMark : List UInt8 → List UInt8
  | 48 :: 120 :: rest => rest
  | 48 :: 88 :: rest => rest
  | text => text

/-- Reads pairs of digits; the first octet that is no digit is named with its position. -/
def readPairs : Nat → List UInt8 → Except Error (List UInt8)
  | position, high :: low :: rest => do
    let h ← value position high
    let l ← value (position+1) low
    let octets ← readPairs (position+2) rest
    return (16*h+l) :: octets
  | _, _ => .ok []

theorem length_of_readPairs : ∀ {position : Nat} {ds octets : List UInt8},
    readPairs position ds = .ok octets → octets.length = ds.length/2
  | _, [], _, h | _, [_], _, h => by cases h; simp
  | position, high :: low :: rest, octets, h => by
    simp only [readPairs, bind, Except.bind] at h
    split at h
    · cases h
    split at h
    · cases h
    split at h
    · cases h
    next out ho =>
      cases h
      simp [length_of_readPairs ho]
      omega

def parse (width : Nat) (text : String) : Except Error (Octets width) :=
  let ds := withoutMark (utf8 text)
  if hd : ds.length = 2*width then
    match h : readPairs 0 ds with
    | .ok octets => .ok ⟨octets, by rw [length_of_readPairs h, hd]; omega⟩
    | .error e => .error e
  else .error (.invalidLength width (ds.length/2))

end HardFork.Hex
