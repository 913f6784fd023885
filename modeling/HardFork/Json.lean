import HardFork.Decimal

/-! # JSON values and their two written forms

A number is kept as the text it is written with, and an object as its members in written order. -/
namespace HardFork

inductive Json
  | null
  | bool (value : Bool)
  | number (literal : String)
  | string (value : String)
  | array (items : List Json)
  | object (members : List (String × Json))

namespace Json

def nat (n : Nat) : Json := .number (String.ofList (Decimal.digits n))

/-- The last of the members with the given name. -/
def member? (name : String) : Json → Option Json
  | .object members => (members.reverse.find? fun m => m.1 = name).map (·.2)
  | _ => none

/-- Puts a member in place by name; an earlier member of that name is replaced. -/
def insertMember (name : String) (value : Json) : List (String × Json) → List (String × Json)
  | [] => [(name, value)]
  | (n, v) :: rest =>
    if name < n then (name, value) :: (n, v) :: rest
    else if name = n then (name, value) :: rest
    else (n, v) :: insertMember name value rest

def controlEscape (c : Char) : List Char :=
  let hex := Nat.toDigits 16 c.toNat
  ['\\', 'u'] ++ List.replicate (4-hex.length) '0' ++ hex

def escape (c : Char) : List Char :=
  if c = '"' || c = '\\' then ['\\', c]
  else if c = '\x08' then ['\\', 'b']
  else if c = '\x0c' then ['\\', 'f']
  else if c = '\n' then ['\\', 'n']
  else if c = '\r' then ['\\', 'r']
  else if c = '\t' then ['\\', 't']
  else if c.toNat < 0x20 then controlEscape c
  else [c]

def quote (s : String) : List Char := '"' :: s.toList.flatMap escape ++ ['"']

def word (b : Bool) : List Char := if b then ['t', 'r', 'u', 'e'] else ['f', 'a', 'l', 's', 'e']

/-- A break before an item or a closing bracket; none in the compact form. -/
def lineBreak : Option Nat → List Char
  | none => []
  | some indent => '\n' :: List.replicate (2*indent) ' '

def colon : Option Nat → List Char
  | none => [':']
  | some _ => [':', ' ']

mutual
/-- The written form; `layout` is the indentation of the pretty form, none for the compact one. -/
def write (layout : Option Nat) : Json → List Char
  | .null => ['n', 'u', 'l', 'l']
  | .bool b => word b
  | .number literal => literal.toList
  | .string s => quote s
  | .array [] => ['[', ']']
  | .array (x :: xs) => '[' :: writeItems (layout.map (·+1)) (x :: xs) ++ lineBreak layout ++ [']']
  | .object [] => ['\x7b', '\x7d']
  | .object (m :: ms) =>
    '\x7b' :: writeMembers (layout.map (·+1)) (m :: ms) ++ lineBreak layout ++ ['\x7d']
def writeItems (layout : Option Nat) : List Json → List Char
  | [] => []
  | [x] => lineBreak layout ++ write layout x
  | x :: y :: rest => lineBreak layout ++ write layout x ++ ',' :: writeItems layout (y :: rest)
def writeMembers (layout : Option Nat) : List (String × Json) → List Char
  | [] => []
  | [(name, x)] => lineBreak layout ++ quote name ++ colon layout ++ write layout x
  | (name, x) :: m :: rest =>
    lineBreak layout ++ quote name ++ colon layout ++ write layout x ++
      ',' :: writeMembers layout (m :: rest)
end

def compact (j : Json) : String := String.ofList (write none j)
def pretty (j : Json) : String := String.ofList (write (some 0) j)

end Json
end HardFork
