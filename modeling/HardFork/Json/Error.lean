import HardFork.Text

/-! # Why a JSON text is refused, and where

A reader knows how much of the text is left, and so where it stands. The place in the text, as a
line and a column of octets, is found from that at the end. -/
namespace HardFork.Json

inductive Place | value | string | list | object
deriving DecidableEq

inductive Fault
  | expectedValue
  | expectedWord
  | expectedColon
  | expectedCommaOr (close : Char)
  | keyNotString
  | trailingComma
  | trailingCharacters
  | invalidNumber
  | numberOutOfRange
  | invalidEscape
  | controlCharacter
  | unfinishedPair
  | loneSurrogate
  | tooDeep
deriving DecidableEq

/-- What stands in the text. -/
inductive Found
  | null
  | bool (b : Bool)
  | integer (i : Int)
  | number
  | float (text : String)
  | string (s : String)
  | list
  | object
deriving DecidableEq

/-- What is read there. -/
inductive Wanted
  | natural
  | bool
  | string
  | list
  | unit
  | record (name : String)
  | numeral
deriving DecidableEq

/-- A well-formed value that does not fit the type that is read. -/
inductive Misfit
  | missingField (name : String)
  | duplicateField (name : String)
  | tooShort (given : Nat) (record : String) (fields : Nat)
  | wrongType (found : Found) (wanted : Wanted)
  | negative (i : Int)
  | unknownVariant (name : String) (known : List String)
  | refused (reason : String)
deriving DecidableEq

inductive Cause
  | unfinished (place : Place)
  | malformed (fault : Fault)
  | misfit (reason : Misfit)
deriving DecidableEq

/-- A line, the first one being one, and the octets of this line that are in front. -/
structure Position where
  line : Nat
  column : Nat
deriving DecidableEq

structure Error where
  cause : Cause
  position : Option Position
deriving DecidableEq

def Place.phrase : Place → String
  | .value => "a value"
  | .string => "a string"
  | .list => "a list"
  | .object => "an object"

def Fault.message : Fault → String
  | .expectedValue => "expected value"
  | .expectedWord => "expected ident"
  | .expectedColon => "expected `:`"
  | .expectedCommaOr close => "expected `,` or `" ++ close.toString ++ "`"
  | .keyNotString => "key must be a string"
  | .trailingComma => "trailing comma"
  | .trailingCharacters => "trailing characters"
  | .invalidNumber => "invalid number"
  | .numberOutOfRange => "number out of range"
  | .invalidEscape => "invalid escape"
  | .controlCharacter => "control character (\\u0000-\\u001F) found while parsing a string"
  | .unfinishedPair => "unexpected end of hex escape"
  | .loneSurrogate => "lone leading surrogate in hex escape"
  | .tooDeep => "recursion limit exceeded"

def Found.phrase : Found → String
  | .null => "null"
  | .bool b => s!"boolean `{b}`"
  | .integer i => s!"integer `{i}`"
  | .number => "number"
  | .float text => s!"floating point `{text}`"
  | .string s => "string " ++ Text.quotedString s
  | .list => "sequence"
  | .object => "map"

def Wanted.phrase : Wanted → String
  | .natural => "u64"
  | .bool => "a boolean"
  | .string => "a string"
  | .list => "a sequence"
  | .unit => "unit"
  | .record name => s!"struct {name}"
  | .numeral => "string containing a number"

def Misfit.message : Misfit → String
  | .missingField name => s!"missing field `{name}`"
  | .duplicateField name => s!"duplicate field `{name}`"
  | .tooShort given record fields =>
    s!"invalid length {given}, expected struct {record} with {fields} elements"
  | .wrongType found wanted => s!"invalid type: {found.phrase}, expected {wanted.phrase}"
  | .negative i => s!"invalid value: integer `{i}`, expected u64"
  | .unknownVariant name known =>
    s!"unknown variant `{name}`, expected " ++ " or ".intercalate (known.map fun k => s!"`{k}`")
  | .refused reason => reason

def Cause.message : Cause → String
  | .unfinished place => s!"EOF while parsing {place.phrase}"
  | .malformed fault => fault.message
  | .misfit reason => reason.message

/-- What a message says of its position. -/
def Position.tail (p : Position) : String := s!" at line {p.line} column {p.column}"

def Error.message (e : Error) : String :=
  e.cause.message ++ (e.position.map Position.tail).getD ""

def octets (cs : List Char) : Nat := (cs.flatMap String.utf8EncodeChar).length

/-- The position with `left` octets of the text behind it. -/
def position (text : List Char) (left : Nat) : Position :=
  let all := text.flatMap String.utf8EncodeChar
  let passed := all.take (all.length-left)
  let isBreak (o : UInt8) : Bool := o = 10
  { line := passed.countP isBreak+1
    column := (passed.reverse.takeWhile fun o => !isBreak o).length }

/-- Where a reader stands when it refuses a text. -/
inductive Spot
  /-- With so many octets left. -/
  | before (left : Nat)
  /-- The same, but the first of them is looked at, and the position is behind it. -/
  | facing (left : Nat)
  /-- At a position in a text of its own. -/
  | within (p : Position)
  /-- Behind a value that was read well and then refused; what it is a part of says where. -/
  | behind (rest : List Char)

namespace Spot

def here (rest : List Char) : Spot := before (octets rest)

/-- One octet further. -/
def past (rest : List Char) : Spot := before (octets rest-1)

def ahead (rest : List Char) : Spot := facing (octets rest)

def left : Spot → Nat
  | before n | facing n => n
  | within _ => 0
  | behind rest => octets rest

def position? (text : List Char) : Spot → Option Position
  | before n => some (position text n)
  | facing n => some (position text (n-1))
  | within p => some p
  | behind _ => none

/-- Settles where a refused value is, by how far `next` looks behind it. -/
def settle (next : List Char → List Char) : Spot → Spot
  | behind rest => here (next rest)
  | spot => spot

end Spot

structure Refusal where
  cause : Cause
  spot : Spot

namespace Refusal

def settle (next : List Char → List Char) (r : Refusal) : Refusal :=
  {r with spot := r.spot.settle next}

def toError (text : List Char) (r : Refusal) : Error := ⟨r.cause, r.spot.position? text⟩

end Refusal

end HardFork.Json
