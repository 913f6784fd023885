/-! # Decimal numerals and binary64 numbers

A decimal is read as a product or a quotient of its coefficient and a power of ten, and each of
these steps rounds. So the number is at times a neighbour of the one nearest to the decimal. Its
shortest text has the fewest digits that still round to the number, and of those the nearest. -/
namespace HardFork.Decimal

def digits (n : Nat) : List Char := Nat.toDigits 10 n

def value (ds : List Char) : Nat := Nat.ofDigitChars 10 ds 0

@[simp] theorem value_digits (n : Nat) : value (digits n) = n :=
  Nat.ofDigitChars_toDigits (by decide) (by decide)

/-- Reads on from `n` while the value fits in a word of 64 bits: the value and the digits left. -/
def takeWord (n : Nat) : List Char → Nat × List Char
  | [] => (n, [])
  | c :: cs =>
    let m := 10*n+(c.toNat - '0'.toNat)
    if m < UInt64.size then takeWord m cs else (n, c :: cs)

/-- A decimal number: `coefficient` times ten to the `exponent`. -/
structure Scientific where
  negative : Bool
  coefficient : Nat
  exponent : Int
deriving DecidableEq

/-- The number `significand` times two to the `exponent`. -/
structure Binary where
  significand : Nat
  exponent : Int
deriving DecidableEq

/-- The fraction `a/b` times `base` to an integer power. -/
def scale (a b base : Nat) (power : Int) : Nat × Nat :=
  (a*base.pow power.toNat, b*base.pow (-power).toNat)

def roundDiv (a b : Nat) : Nat :=
  let q := a/b
  let r := 2*(a%b)
  if r < b then q else if r > b then q+1 else q+q%2

/-- The least significand of a normal number; the double of it is past all significands. -/
def minSignificand : Nat := Nat.pow 2 52

def minExponent : Int := -1074
def maxExponent : Int := 971

def binaryExponent (a b : Nat) : Int :=
  let guess := max ((a.log2 : Int)-(b.log2 : Int)-52) minExponent
  let (c, d) := scale a b 2 (-guess)
  if c/d < minSignificand && guess > minExponent then guess-1 else guess

/-- The nearest number to `a/b`, halves to even, as if exponents had no upper bound. -/
def nearest (a b : Nat) : Binary :=
  if a = 0 then ⟨0, 0⟩
  else
    let e := binaryExponent a b
    let (c, d) := scale a b 2 (-e)
    let m := roundDiv c d
    if m = 2*minSignificand then ⟨minSignificand, e+1⟩ else ⟨m, e⟩

namespace Binary

def isFinite (x : Binary) : Bool := x.exponent ≤ maxExponent

def mul (x y : Binary) : Binary :=
  let (a, b) := scale (x.significand*y.significand) 1 2 (x.exponent+y.exponent)
  nearest a b

def div (x y : Binary) : Binary :=
  let (a, b) := scale x.significand y.significand 2 (x.exponent-y.exponent)
  nearest a b

def powerOfTen (n : Nat) : Binary := nearest (Nat.pow 10 n) 1

/-- The largest power of ten that is a finite number. -/
def maxPower : Nat := 308

/-- Moves the point to the left, by the largest power of ten at a time. -/
def shiftLeft (x : Binary) (places : Nat) : Binary :=
  if x.significand = 0 then x
  else if places ≤ maxPower then x.div (powerOfTen places)
  else (x.div (powerOfTen maxPower)).shiftLeft (places-maxPower)
termination_by places
decreasing_by simp only [maxPower] at *; omega

end Binary

/-- No number when the result is infinite; the sign is left out. -/
def Scientific.binary? (d : Scientific) : Option Binary :=
  let x := nearest d.coefficient 1
  if d.exponent < 0 then some (x.shiftLeft d.exponent.natAbs)
  else if x.significand = 0 then some x
  else if d.exponent > Binary.maxPower then none
  else
    let y := x.mul (Binary.powerOfTen d.exponent.toNat)
    if y.isFinite then some y else none

/-- The numbers that round to a binary64 number lie between two bounds, given in quarters of its
last place; the bounds belong to them when the significand is even. -/
structure Interval where
  low : Nat
  high : Nat
  closed : Bool

def Binary.interval (x : Binary) : Interval where
  low :=
    4*x.significand-(if x.significand = minSignificand && x.exponent > minExponent then 1 else 2)
  high := 4*x.significand+2
  closed := x.significand%2 = 0

/-- Is `a/b` in the interval, both in quarters of the last place? -/
def Interval.contains (i : Interval) (a b : Nat) : Bool :=
  if i.closed then i.low*b ≤ a && a ≤ i.high*b else i.low*b < a && a < i.high*b

def floorLog10 (a b : Nat) : Int :=
  let guess := (digits (a/b)).length
  if a ≥ b then guess-1
  else
    let zeros := (digits (b/a)).length
    if a*Nat.pow 10 (zeros-1) ≥ b then 1-(zeros : Int) else -(zeros : Int)

/-- The coefficient on the grid of step ten to the `power`, if a neighbour of the number on that
grid rounds to the number. -/
def Binary.onGrid? (x : Binary) (power : Int) : Option Nat :=
  let (a, b) := scale x.significand 1 2 x.exponent
  let (s, t) := scale 1 1 10 power
  let f := a*t/(b*s)
  let inside (c : Nat) : Bool :=
    let (n, d) := scale (4*c*s) t 2 (-x.exponent)
    x.interval.contains n d
  let below := a*t-f*b*s
  let above := (f+1)*b*s-a*t
  match inside f && f ≠ 0, inside (f+1) with
  | true, true => some (if below < above || (below = above && f%2 = 0) then f else f+1)
  | true, false => some f
  | false, true => some (f+1)
  | false, false => none

/-- The digits and the power of ten of the first digit. -/
def Binary.shortest (x : Binary) : List Char × Int :=
  let (a, b) := scale x.significand 1 2 x.exponent
  let top := floorLog10 a b
  let found := (List.range 17).findSome? fun (n : Nat) =>
    (x.onGrid? (top-n)).map fun c => (digits c, top-(n : Int))
  let (ds, power) := found.getD ((digits x.significand), 0)
  let first := power+ds.length-1
  ((ds.reverse.dropWhile (· = '0')).reverse, first)

def zeros (n : Nat) : List Char := List.replicate n '0'

/-- Positional when the first digit stands between the fifth place after the point and the
sixteenth before it; a point or an exponent is always written, an exponent with its sign. -/
def layout (ds : List Char) (first : Int) : List Char :=
  if 0 ≤ first && first ≤ 15 then
    let n := first.toNat+1
    if ds.length ≤ n then ds ++ zeros (n-ds.length) ++ ['.', '0']
    else ds.take n ++ '.' :: ds.drop n
  else if -5 ≤ first && first < 0 then '0' :: '.' :: zeros (-first-1).toNat ++ ds
  else
    let fraction := ds.drop 1
    ds.take 1 ++ (if fraction.isEmpty then [] else '.' :: fraction) ++
      ['e', if first < 0 then '-' else '+'] ++ digits first.natAbs

def Binary.text (x : Binary) : List Char :=
  if x.significand = 0 then ['0', '.', '0']
  else
    let (ds, first) := x.shortest
    layout ds first

/-- The text of the number that binary64 arithmetic reads, none when that is infinite. -/
def Scientific.shortest? (d : Scientific) : Option String :=
  d.binary?.map fun x => String.ofList ((if d.negative then ['-'] else []) ++ x.text)

end HardFork.Decimal
