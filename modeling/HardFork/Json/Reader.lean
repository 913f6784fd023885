import HardFork.Json.Error

/-! # Words, strings and brackets read from the left

A reader answers with what it read and the rest of the text, or with the first reason to refuse. -/
namespace HardFork.Json

abbrev Reader (α : Type) := List Char → Except Refusal (α × List Char)

variable {α : Type}

def unfinished (place : Place) : Except Refusal α := .error ⟨.unfinished place, .here []⟩

def malformed (fault : Fault) (spot : Spot) : Except Refusal α := .error ⟨.malformed fault, spot⟩

def misfit (reason : Misfit) (spot : Spot) : Except Refusal α := .error ⟨.misfit reason, spot⟩

def isSpace (c : Char) : Bool := c = ' ' || c = '\n' || c = '\t' || c = '\r'

def skipSpace (cs : List Char) : List Char := cs.dropWhile isSpace

def readWord : (word : List Char) → List Char → Except Refusal (List Char)
  | [], cs => .ok cs
  | _ :: _, [] => unfinished .value
  | w :: word, c :: cs =>
    if c = w then readWord word cs else malformed .expectedWord (.past (c :: cs))

def readTrue (cs : List Char) : Except Refusal (List Char) := readWord ['r', 'u', 'e'] cs
def readFalse (cs : List Char) : Except Refusal (List Char) := readWord ['a', 'l', 's', 'e'] cs
def readNull (cs : List Char) : Except Refusal (List Char) := readWord ['u', 'l', 'l'] cs

def hexRank? (c : Char) : Option Nat :=
  if '0' ≤ c && c ≤ '9' then some (c.toNat-48)
  else if 'a' ≤ c && c ≤ 'f' then some (c.toNat-87)
  else if 'A' ≤ c && c ≤ 'F' then some (c.toNat-55)
  else none

def hexRanks? (cs : List Char) : Option Nat :=
  cs.foldl (fun n c => do return 16*(← n)+(← hexRank? c)) (some 0)

/-- The four digits of an escape. They are four octets of the text, so a text that ends before
four octets is unfinished whatever these are. -/
def readUnit (cs : List Char) : Except Refusal (Nat × List Char) :=
  let four := cs.take 4
  if (four.flatMap String.utf8EncodeChar).length < 4 then unfinished .string
  else match hexRanks? four with
    | some n => .ok (n, cs.drop 4)
    | none => malformed .invalidEscape (.before (octets cs-4))

def isHighSurrogate (n : Nat) : Bool := 0xd800 ≤ n && n ≤ 0xdbff
def isLowSurrogate (n : Nat) : Bool := 0xdc00 ≤ n && n ≤ 0xdfff

def joinSurrogates (high low : Nat) : Nat := 0x10000+0x400*(high-0xd800)+(low-0xdc00)

def readLowSurrogate (high : Nat) (cs : List Char) : Except Refusal (Char × List Char) := do
  let (low, rest) ← readUnit cs
  if isLowSurrogate low then return (Char.ofNat (joinSurrogates high low), rest)
  else malformed .loneSurrogate (.here rest)

def readCodePoint (cs : List Char) : Except Refusal (Char × List Char) := do
  let (n, rest) ← readUnit cs
  if isLowSurrogate n then malformed .loneSurrogate (.here rest)
  else if isHighSurrogate n then
    match rest with
    | [] | ['\\'] => unfinished .string
    | '\\' :: 'u' :: rest => readLowSurrogate n rest
    | '\\' :: rest | rest => malformed .unfinishedPair (.past rest)
  else return (Char.ofNat n, rest)

/-- The character that stands for a letter after a backslash. -/
def escaped? (c : Char) : Option Char :=
  if c = '"' || c = '\\' || c = '/' then some c
  else if c = 'b' then some '\x08'
  else if c = 'f' then some '\x0c'
  else if c = 'n' then some '\n'
  else if c = 'r' then some '\r'
  else if c = 't' then some '\t'
  else none

def readEscape : List Char → Except Refusal (Char × List Char)
  | [] => unfinished .string
  | 'u' :: cs => readCodePoint cs
  | c :: cs => match escaped? c with
    | some e => .ok (e, cs)
    | none => malformed .invalidEscape (.past (c :: cs))

def readChars : (fuel : Nat) → Reader (List Char)
  | _, [] => unfinished .string
  | 0, _ => unfinished .string
  | fuel+1, c :: cs =>
    if c = '"' then .ok ([], cs)
    else if c = '\\' then do
      let (x, cs) ← readEscape cs
      let (xs, cs) ← readChars fuel cs
      return (x :: xs, cs)
    else if c.toNat < 0x20 then malformed .controlCharacter (.past (c :: cs))
    else do
      let (xs, cs) ← readChars fuel cs
      return (c :: xs, cs)

/-- Reads a string after its opening quote. -/
def readString (cs : List Char) : Except Refusal (String × List Char) := do
  let (xs, rest) ← readChars cs.length cs
  return (String.ofList xs, rest)

/-- Passes over an escape; its digits are looked at, the code point is not. -/
def skipEscape : List Char → Except Refusal (List Char)
  | [] => unfinished .string
  | 'u' :: cs => do
    let (_, rest) ← readUnit cs
    return rest
  | c :: cs =>
    if (escaped? c).isSome then .ok cs else malformed .invalidEscape (.past (c :: cs))

def skipChars : (fuel : Nat) → List Char → Except Refusal (List Char)
  | _, [] => unfinished .string
  | 0, _ => unfinished .string
  | fuel+1, c :: cs =>
    if c = '"' then .ok cs
    else if c = '\\' then do skipChars fuel (← skipEscape cs)
    else if c.toNat < 0x20 then malformed .controlCharacter (.here (c :: cs))
    else skipChars fuel cs

def skipString (cs : List Char) : Except Refusal (List Char) := skipChars cs.length cs

inductive Next (α : Type)
  | close (rest : List Char)
  | more (item : α) (rest : List Char)

/-- From the opening bracket or the end of an item to the next item or past the closing bracket. -/
def nextItem (first : Bool) (cs : List Char) : Except Refusal (Next Unit) :=
  match skipSpace cs with
  | [] => unfinished .list
  | c :: rest =>
    if c = ']' then .ok (.close rest)
    else if first then .ok (.more () (c :: rest))
    else if c = ',' then
      match skipSpace rest with
      | [] => unfinished .value
      | c :: rest =>
        if c = ']' then malformed .trailingComma (.ahead (c :: rest))
        else .ok (.more () (c :: rest))
    else malformed (.expectedCommaOr ']') (.ahead (c :: rest))

def readKey : List Char → Except Refusal (Next String)
  | '"' :: cs => do
    let (key, rest) ← readString cs
    return .more key rest
  | cs => malformed .keyNotString (.ahead cs)

/-- From the opening brace or the end of a member to the end of the next key or past the brace. -/
def nextKey (first : Bool) (cs : List Char) : Except Refusal (Next String) :=
  match skipSpace cs with
  | [] => unfinished .object
  | c :: rest =>
    if c = '\x7d' then .ok (.close rest)
    else if first then readKey (c :: rest)
    else if c = ',' then
      match skipSpace rest with
      | [] => unfinished .value
      | c :: rest =>
        if c = '\x7d' then malformed .trailingComma (.ahead (c :: rest)) else readKey (c :: rest)
    else malformed (.expectedCommaOr '\x7d') (.ahead (c :: rest))

def readColon (cs : List Char) : Except Refusal (List Char) :=
  match skipSpace cs with
  | [] => unfinished .object
  | c :: rest => if c = ':' then .ok rest else malformed .expectedColon (.ahead (c :: rest))

/-- The end of a list that holds no further item. -/
def closeList (cs : List Char) : Except Refusal (List Char) :=
  match skipSpace cs with
  | [] => unfinished .list
  | c :: rest =>
    if c = ']' then .ok rest
    else if c = ',' then
      let rest := skipSpace rest
      malformed (if rest.head? = some ']' then .trailingComma else .trailingCharacters)
        (.ahead rest)
    else malformed .trailingCharacters (.ahead (c :: rest))

/-- The end of an object that holds no further member. -/
def closeObject (cs : List Char) : Except Refusal (List Char) :=
  match skipSpace cs with
  | [] => unfinished .object
  | c :: rest =>
    if c = '\x7d' then .ok rest
    else
      malformed (if c = ',' then .trailingComma else .trailingCharacters) (.ahead (c :: rest))

/-- How far the end of a list is looked for behind an item that is refused. -/
def afterItem (cs : List Char) : List Char :=
  match skipSpace cs with
  | ']' :: rest => rest
  | ',' :: rest => skipSpace rest
  | rest => rest

/-- How far the end of an object is looked for behind a member that is refused. -/
def afterMember (cs : List Char) : List Char :=
  match skipSpace cs with
  | '\x7d' :: rest => rest
  | rest => rest

def readItems (item : Reader α) : (fuel : Nat) → (first : Bool) → Reader (List α)
  | 0, _, _ => unfinished .list
  | fuel+1, first, cs => do
    match ← nextItem first cs with
    | .close rest => return ([], rest)
    | .more _ rest =>
      let (x, rest) ← item rest
      let (xs, rest) ← readItems item fuel false rest
      return (x :: xs, rest)

def readMembers (member : α → String → Reader α) : (fuel : Nat) → (first : Bool) → α → Reader α
  | 0, _, _, _ => unfinished .object
  | fuel+1, first, a, cs => do
    match ← nextKey first cs with
    | .close rest => return (a, rest)
    | .more key rest =>
      let (a, rest) ← member a key rest
      readMembers member fuel false a rest

/-- Enters a list or an object; `levels` more of them may be open. -/
def descend (body : Nat → Reader α) : (levels : Nat) → Reader α
  | 0, cs => malformed .tooDeep (.here cs)
  | levels+1, cs => body levels cs

end HardFork.Json
