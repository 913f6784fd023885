import HardFork.Decimal
import HardFork.Hex
import HardFork.Json

/-! # Chain ids: numbers of at most 256 bits -/
namespace HardFork

/-- The first number that takes more bits. -/
def ChainId.limit : Nat := Nat.pow 2 256

structure ChainId where
  val : Nat
  val_lt : val < ChainId.limit
deriving DecidableEq

namespace ChainId

instance : Inhabited ChainId := ⟨⟨0, by decide⟩⟩

def ofWord (w : UInt64) : ChainId :=
  ⟨w.toNat, Nat.lt_of_lt_of_le w.toNat_lt (by decide)⟩

protected def toString (id : ChainId) : String := String.ofList (Decimal.digits id.val)

instance : ToString ChainId := ⟨ChainId.toString⟩

/-- A number where a word holds it, else the text of its digits. -/
def toJson (id : ChainId) : Json :=
  if id.val < UInt64.size then .nat id.val else .string (toString id)

inductive Defect
  | decimalDigit
  | overflow
  | hexDigit (octet : UInt8) (position : Nat)
  | hexLength
deriving DecidableEq

inductive Error
  | numeral (text : String) (defect : Defect)
  | notScalar (value : Json)

def Defect.message : Defect → String
  | .decimalDigit => "InvalidCharacter"
  | .overflow => "InvalidLength"
  | .hexDigit octet position =>
    let shown := Text.quotedChar (Char.ofNat octet.toNat)
    s!"FromStrRadixErr \x7b kind: InvalidCharacter, source: Some(Hex(FromHexError \x7b inner: " ++
      s!"InvalidHexCharacter \x7b c: {shown}, index: {position} \x7d \x7d)) \x7d"
  | .hexLength =>
    "FromStrRadixErr \x7b kind: InvalidLength, source: Some(Hex(FromHexError \x7b inner: " ++
      "InvalidStringLength \x7d)) \x7d"

def Error.message : Error → String
  | .numeral text defect => s!"Invalid chain id: {text}: {defect.message}"
  | .notScalar value => s!"Invalid chain id: expected number or string, got {value.compact}"

/-- Decimal digits from the left; the value is checked after each of them. -/
def readDecimal : ChainId → List Char → Except Defect ChainId
  | id, [] => .ok id
  | id, c :: cs =>
    if c.isDigit then
      let n := 10*id.val+(c.toNat-48)
      if h : n < limit then readDecimal ⟨n, h⟩ cs else .error .overflow
    else .error .decimalDigit

def ofOctets (octets : List UInt8) : Nat := octets.foldl (fun n o => 256*n+o.toNat) 0

/-- Hexadecimal digits, after one more mark `0x` if there is one; an odd number of them has a zero
in front. -/
def readHex (text : List UInt8) : Except Defect ChainId :=
  let ds := match text with
    | 48 :: 120 :: rest => rest
    | ds => ds
  if ds.length > 64 then .error .hexLength
  else match Hex.readPairs 0 (if ds.length%2 = 0 then ds else 48 :: ds) with
    | .error (.invalidDigit octet position) => .error (.hexDigit octet position)
    | .error (.invalidLength _ _) => .error .hexLength
    | .ok octets =>
      if h : ofOctets octets < limit then .ok ⟨ofOctets octets, h⟩ else .error .hexLength

def readNumeral : List Char → Except Defect ChainId
  | '0' :: 'x' :: rest => readHex (utf8 (String.ofList rest))
  | '0' :: 'X' :: rest => readHex (utf8 (String.ofList rest))
  | cs => readDecimal default cs

def parse (text : String) : Except Error ChainId :=
  let trimmed := Text.trim text.toList
  (readNumeral trimmed).mapError (.numeral (String.ofList trimmed))

/-- A document gives the id as a number of any length, as text, or as null when there is none. -/
def ofJson : Option Json → Except Error (Option ChainId)
  | none | some .null => .ok none
  | some (.number literal) => do return some (← parse literal)
  | some (.string text) => do return some (← parse text)
  | some value => .error (.notScalar value)

end ChainId
end HardFork
