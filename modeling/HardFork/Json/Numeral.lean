import HardFork.Decimal
import HardFork.Json.Reader

/-! # Numbers as they are written in a JSON text -/
namespace HardFork.Json

structure Numeral where
  negative : Bool
  whole : List Char
  fraction : List Char
  exponent : Option (Bool × List Char)
deriving DecidableEq

/-- Reads digits. `atEnd` is the cause where the text ends before the first of them, and `spot` the
place where something else stands there. -/
def readDigits (atEnd : Cause) (spot : List Char → Spot) : Reader (List Char)
  | [] => .error ⟨atEnd, .here []⟩
  | c :: cs =>
    if c.isDigit then .ok (c :: cs.takeWhile Char.isDigit, cs.dropWhile Char.isDigit)
    else malformed .invalidNumber (spot (c :: cs))

/-- A zero in front stands alone. -/
def readWhole (atEnd : Cause) (spot : List Char → Spot) : Reader (List Char)
  | '0' :: cs =>
    if (cs.head?.map Char.isDigit).getD false then malformed .invalidNumber (.ahead cs)
    else .ok (['0'], cs)
  | cs => readDigits atEnd spot cs

def readFraction (atEnd : Cause) : Reader (List Char)
  | '.' :: cs => readDigits atEnd .ahead cs
  | cs => .ok ([], cs)

def readSign : List Char → Bool × List Char
  | '-' :: cs => (true, cs)
  | '+' :: cs => (false, cs)
  | cs => (false, cs)

def readExponent (atEnd : Cause) : Reader (Option (Bool × List Char))
  | [] => .ok (none, [])
  | c :: cs =>
    if c = 'e' || c = 'E' then do
      let (negative, cs) := readSign cs
      let (ds, cs) ← readDigits atEnd .past cs
      return (some (negative, ds), cs)
    else .ok (none, c :: cs)

/-- Reads a number; `atEnd` is the cause where the text ends inside it. -/
def readNumeral (atEnd : Cause) (cs : List Char) : Except Refusal (Numeral × List Char) := do
  let negative := cs.head? = some '-'
  let (whole, cs) ← if negative then readWhole atEnd .past (cs.drop 1)
    else readWhole atEnd .ahead cs
  let (fraction, cs) ← readFraction atEnd cs
  let (exponent, cs) ← readExponent atEnd cs
  return (⟨negative, whole, fraction, exponent⟩, cs)

def startsNumeral (c : Char) : Bool := c = '-' || c.isDigit

namespace Numeral

def isWhole (n : Numeral) : Bool := n.fraction.isEmpty && n.exponent.isNone

/-- The value of a whole number that a word of 64 bits holds, signed if there is a minus. Minus
zero is no such number. -/
def word? (n : Numeral) : Option Int :=
  let v := Decimal.value n.whole
  if !n.isWhole then none
  else if n.negative then if v ≠ 0 && 2*v ≤ UInt64.size then some (-v) else none
  else if v < UInt64.size then some v else none

/-- The text as written, with the exponent as `e`, a sign and its digits. -/
def literal (n : Numeral) : List Char :=
  (if n.negative then ['-'] else []) ++ n.whole ++
    (if n.fraction.isEmpty then [] else '.' :: n.fraction) ++
    match n.exponent with
    | none => []
    | some (negative, ds) => 'e' :: (if negative then '-' else '+') :: ds

def text (n : Numeral) : String := String.ofList n.literal

/-- The coefficient is a word of 64 bits: whole digits that it does not hold count as zeros, and
fraction digits that it does not hold are dropped. -/
def scientific (n : Numeral) : Decimal.Scientific :=
  let (whole, uncounted) := Decimal.takeWord 0 n.whole
  let (coefficient, dropped) := Decimal.takeWord whole n.fraction
  let shift : Int := match n.exponent with
    | none => 0
    | some (negative, ds) => if negative then -(Decimal.value ds : Int) else Decimal.value ds
  { negative := n.negative
    coefficient := coefficient
    exponent := shift+uncounted.length-(n.fraction.length-dropped.length) }

/-- The digits behind the one that makes the exponent too large for 31 bits. -/
def unread : (exponent : Nat) → List Char → List Char
  | _, [] => []
  | e, c :: cs =>
    let e := 10*e+(c.toNat - '0'.toNat)
    if e < 0x80000000 then unread e cs else cs

/-- Where a number that is too large is given up; `rest` is what stands behind it. -/
def overflowSpot (n : Numeral) (rest : List Char) : Spot :=
  match n.exponent with
  | some (false, ds) => .here (unread 0 ds ++ rest)
  | _ => .here rest

def found (n : Numeral) : Found :=
  match n.word? with
  | some i => .integer i
  | none => .number

end Numeral
end HardFork.Json
