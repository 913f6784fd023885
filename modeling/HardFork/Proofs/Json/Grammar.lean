import HardFork.Json
import HardFork.Json.Numeral

/-! # The grammar of JSON texts

A value is kept as the tokens it is written with: what varies between its texts is the white space
between the tokens and the spelling of its numbers. A string is kept as its literal, since some
literals stand for no characters. -/
namespace HardFork.Json

def IsPlain (c : Char) : Prop := c ≠ '"' ∧ c ≠ '\\' ∧ 0x20 ≤ c.toNat

instance : DecidablePred IsPlain := fun c =>
  inferInstanceAs (Decidable (c ≠ '"' ∧ c ≠ '\\' ∧ 0x20 ≤ c.toNat))

/-- Four hexadecimal digits. -/
def IsCodeUnit (ds : List Char) (n : Nat) : Prop := ds.length = 4 ∧ hexRanks? ds = some n

/-- A character that stands for itself, a letter behind a backslash or the digits of a code unit. -/
inductive Piece
  | plain (c : Char) (h : IsPlain c)
  | letter (c e : Char) (h : escaped? c = some e)
  | unit (ds : List Char) (n : Nat) (h : IsCodeUnit ds n)

def Piece.text : Piece → List Char
  | plain c _ => [c]
  | letter c _ _ => ['\\', c]
  | unit ds _ _ => '\\' :: 'u' :: ds

abbrev Literal := List Piece

namespace Literal

/-- The literal up to its closing quote, which is part of it. -/
def untilQuote (s : Literal) : List Char := s.flatMap Piece.text ++ ['"']

def text (s : Literal) : List Char := '"' :: s.untilQuote

/-- The characters of a literal. A code unit of a surrogate pair has none without the other. -/
def decode? : Literal → Option (List Char)
  | [] => some []
  | .plain c _ :: s => (decode? s).map (c :: ·)
  | .letter _ e _ :: s => (decode? s).map (e :: ·)
  | .unit _ n _ :: s =>
    if isLowSurrogate n then none
    else if isHighSurrogate n then
      match s with
      | .unit _ low _ :: s =>
        if isLowSurrogate low then (decode? s).map (Char.ofNat (joinSurrogates n low) :: ·)
        else none
      | _ => none
    else (decode? s).map (Char.ofNat n :: ·)

/-- The name that a literal spells as a key. -/
def name? (s : Literal) : Option String := s.decode?.map String.ofList

end Literal

def IsDigits (ds : List Char) : Prop := ds ≠ [] ∧ ∀ c ∈ ds, c.isDigit

def IsWhole (ds : List Char) : Prop := IsDigits ds ∧ (ds.head? = some '0' → ds = ['0'])

inductive WritesFraction : List Char → List Char → Prop
  | none : WritesFraction [] []
  | digits {ds} (h : IsDigits ds) : WritesFraction ds ('.' :: ds)

inductive WritesSign : Bool → List Char → Prop
  | none : WritesSign false []
  | plus : WritesSign false ['+']
  | minus : WritesSign true ['-']

inductive WritesExponent : Option (Bool × List Char) → List Char → Prop
  | none : WritesExponent none []
  | digits {mark negative sign ds} (hm : mark = 'e' ∨ mark = 'E') (hs : WritesSign negative sign)
      (hd : IsDigits ds) : WritesExponent (some (negative, ds)) (mark :: (sign ++ ds))

inductive WritesNumber : Numeral → List Char → Prop
  | mk {negative whole fraction exponent behind last} (hw : IsWhole whole)
      (hf : WritesFraction fraction behind) (he : WritesExponent exponent last) :
      WritesNumber ⟨negative, whole, fraction, exponent⟩
        ((if negative then ['-'] else []) ++ (whole ++ (behind ++ last)))

inductive Tree
  | null
  | bool (b : Bool)
  | number (n : Numeral)
  | string (s : Literal)
  | array (items : List Tree)
  | object (members : List (Literal × Tree))

/-- What stands in front of an item or a key: a comma unless it is the first one. -/
inductive Opens : (first : Bool) → List Char → Prop
  | first {gap} (h : gap.all isSpace) : Opens true gap
  | comma {before after} (hb : before.all isSpace) (ha : after.all isSpace) :
      Opens false (before ++ ',' :: after)

inductive IsColon : List Char → Prop
  | mk {before after} (hb : before.all isSpace) (ha : after.all isSpace) :
      IsColon (before ++ ':' :: after)

mutual
inductive Writes : Tree → List Char → Prop
  | null : Writes .null ['n', 'u', 'l', 'l']
  | bool (b) : Writes (.bool b) (word b)
  | number {n text} (h : WritesNumber n text) : Writes (.number n) text
  | string (s) : Writes (.string s) s.text
  | array {xs body} (h : WritesItems true xs body) : Writes (.array xs) ('[' :: body)
  | object {ms body} (h : WritesMembers true ms body) : Writes (.object ms) ('\x7b' :: body)
/-- The items up to the closing bracket, which is part of the text. -/
inductive WritesItems : (first : Bool) → List Tree → List Char → Prop
  | close {first gap} (h : gap.all isSpace) : WritesItems first [] (gap ++ [']'])
  | item {first opening x text xs body} (ho : Opens first opening) (hx : Writes x text)
      (hs : WritesItems false xs body) : WritesItems first (x :: xs) (opening ++ (text ++ body))
/-- The members up to the closing brace, which is part of the text. -/
inductive WritesMembers : (first : Bool) → List (Literal × Tree) → List Char → Prop
  | close {first gap} (h : gap.all isSpace) : WritesMembers first [] (gap ++ ['\x7d'])
  | member {first opening key colon x text ms body} (ho : Opens first opening) (hc : IsColon colon)
      (hx : Writes x text) (hs : WritesMembers false ms body) :
      WritesMembers first ((key, x) :: ms) (opening ++ (key.text ++ (colon ++ (text ++ body))))
end

/-- A whole text: one value with white space around it. -/
def Tree.WrittenAs (t : Tree) (text : String) : Prop :=
  ∃ before body after, before.all isSpace ∧ after.all isSpace ∧ Writes t body ∧
    text.toList = before ++ (body ++ after)

end HardFork.Json
