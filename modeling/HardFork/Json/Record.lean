import HardFork.Json.Value

/-! # Reading values of a known type

A record is written as an object, whose unknown members are passed over, or as the list of its
fields in order, of which the last may be left out when they have a default. -/
namespace HardFork.Json

variable {α β δ : Type}

def readOption (read : Reader α) : Reader (Option α) := fun cs =>
  match skipSpace cs with
  | 'n' :: rest => do return (none, ← readNull rest)
  | cs => do
    let (a, rest) ← read cs
    return (some a, rest)

def readList (item : Nat → Reader α) (levels : Nat) : Reader (List α) := fun cs =>
  match skipSpace cs with
  | '[' :: rest =>
    descend
      (fun levels cs =>
        (readItems (item levels) (cs.length+1) true cs).mapError (·.settle afterItem))
      levels rest
  | cs => wrongType .list cs

def findVariant (known : List (String × α)) (name : String) (rest : List Char) :
    Except Refusal α :=
  match known.lookup name with
  | some a => .ok a
  | none => misfit (.unknownVariant name (known.map (·.1))) (.here rest)

/-- Reads an object after its brace: its one member has the name of a value and is null. -/
def readVariantObject (known : List (String × α)) : Reader α := fun cs =>
  match skipSpace cs with
  | [] => unfinished .object
  | '"' :: rest => do
    let (name, rest) ← readString rest
    let a ← findVariant known name rest
    let (_, rest) ← readUnitValue (← readColon rest)
    match skipSpace rest with
    | [] => unfinished .object
    | c :: rest =>
      if c = '\x7d' then return (a, rest) else malformed .expectedValue (.here (c :: rest))
  | c :: rest =>
    malformed (if c = '\x7d' then .expectedValue else .keyNotString) (.ahead (c :: rest))

/-- A value of an enumeration is written as its name or as such an object. -/
def readVariant (known : List (String × α)) (levels : Nat) : Reader α := fun cs =>
  match skipSpace cs with
  | [] => unfinished .value
  | '"' :: rest => do
    let (name, rest) ← readString rest
    return (← findVariant known name rest, rest)
  | '\x7b' :: rest => descend (fun _ => readVariantObject known) levels rest
  | cs => malformed .expectedValue (.ahead cs)

/-- A field of a record that is filled in a draft `δ`. -/
structure Field (δ : Type) where
  name : String
  isGiven : δ → Bool
  read : (levels : Nat) → δ → Reader δ

def Field.of (name : String) (get : δ → Option β) (set : δ → β → δ) (read : Nat → Reader β) :
    Field δ where
  name := name
  isGiven d := (get d).isSome
  read levels d cs := do
    let (b, rest) ← read levels cs
    return (set d b, rest)

/-- `complete` makes the value of a draft, or names the first field that is missing. -/
structure Record (δ α : Type) where
  name : String
  fields : List (Field δ)
  blank : δ
  complete : δ → Except String α

namespace Record

def readMember (r : Record δ α) (levels : Nat) (d : δ) (key : String) : Reader δ := fun cs =>
  match r.fields.find? fun f => f.name = key with
  | none => do return (d, ← skipValue (← readColon cs))
  | some f =>
    if f.isGiven d then misfit (.duplicateField f.name) (.behind cs)
    else do f.read levels d (← readColon cs)

def readObject (r : Record δ α) (levels : Nat) : Reader α := fun cs => do
  let (d, rest) ← (readMembers (r.readMember levels) (cs.length+1) true r.blank cs).mapError
    (·.settle afterMember)
  match r.complete d with
  | .ok a => return (a, rest)
  | .error name => misfit (.missingField name) (.here rest)

def readFields (levels : Nat) : List (Field δ) → (first : Bool) → δ → Reader δ
  | [], _, d, cs => do return (d, ← closeList cs)
  | f :: fields, first, d, cs => do
    match ← nextItem first cs with
    | .close rest => return (d, rest)
    | .more _ rest =>
      let (d, rest) ← f.read levels d rest
      readFields levels fields false d rest

def readSequence (r : Record δ α) (levels : Nat) : Reader α := fun cs => do
  let (d, rest) ← (readFields levels r.fields true r.blank cs).mapError (·.settle afterItem)
  match r.complete d with
  | .ok a => return (a, rest)
  | .error name =>
    misfit (.tooShort (r.fields.findIdx fun f => f.name = name) r.name r.fields.length) (.here rest)

def read (r : Record δ α) (levels : Nat) : Reader α := fun cs =>
  match skipSpace cs with
  | '[' :: rest => descend r.readSequence levels rest
  | '\x7b' :: rest => descend r.readObject levels rest
  | cs => wrongType (.record r.name) cs

end Record

/-- The field `name` of a draft, required. -/
def required (name : String) : Option α → Except String α
  | some a => .ok a
  | none => .error name

def maxLevels : Nat := 127

/-- The whole text is one value, but for the space around it. -/
def decode (read : Nat → Reader α) (text : String) : Except Error α :=
  let whole : Except Refusal α := do
    let (a, rest) ← read maxLevels text.toList
    if (skipSpace rest).isEmpty then return a
    else malformed .trailingCharacters (.ahead (skipSpace rest))
  whole.mapError (·.toError text.toList)

def parse (text : String) : Except Error Json := decode readValue text

end HardFork.Json
