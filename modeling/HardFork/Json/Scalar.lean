import HardFork.Json.Numeral

/-! # Reading words, strings and nulls where they are expected -/
namespace HardFork.Json

variable {α : Type}

/-- The error of a value that stands where another type is read. -/
def wrongType (wanted : Wanted) : List Char → Except Refusal α
  | [] => unfinished .value
  | c :: cs =>
    let refuse (found : Found) (rest : List Char) : Except Refusal α :=
      misfit (.wrongType found wanted) (.here rest)
    if c = 'n' then do refuse .null (← readNull cs)
    else if c = 't' then do refuse (.bool true) (← readTrue cs)
    else if c = 'f' then do refuse (.bool false) (← readFalse cs)
    else if c = '"' then do
      let (s, rest) ← readString cs
      refuse (.string s) rest
    else if startsNumeral c then do
      let (n, rest) ← readNumeral (.unfinished .value) (c :: cs)
      refuse n.found rest
    else if c = '[' then refuse .list (c :: cs)
    else if c = '\x7b' then refuse .object (c :: cs)
    else malformed .expectedValue (.ahead (c :: cs))

/-- A number that is no word is named by the binary64 number it is read as; `rest` is what stands
behind it. -/
def Numeral.natural (n : Numeral) (rest : List Char) : Except Refusal UInt64 :=
  match n.word? with
  | some i => if i < 0 then misfit (.negative i) (.here rest) else .ok (UInt64.ofNat i.toNat)
  | none =>
    match n.scientific.shortest? with
    | some text => misfit (.wrongType (.float text) .natural) (.here rest)
    | none => malformed .numberOutOfRange (n.overflowSpot rest)

def readNatural : Reader UInt64 := fun cs =>
  match skipSpace cs with
  | c :: rest =>
    if startsNumeral c then do
      let (n, rest) ← readNumeral (.unfinished .value) (c :: rest)
      return (← n.natural rest, rest)
    else wrongType .natural (c :: rest)
  | [] => unfinished .value

def readBool : Reader Bool := fun cs =>
  match skipSpace cs with
  | 't' :: rest => do return (true, ← readTrue rest)
  | 'f' :: rest => do return (false, ← readFalse rest)
  | cs => wrongType .bool cs

def readText (wanted : Wanted) : Reader String := fun cs =>
  match skipSpace cs with
  | '"' :: rest => readString rest
  | cs => wrongType wanted cs

def readUnitValue : Reader Unit := fun cs =>
  match skipSpace cs with
  | 'n' :: rest => do return ((), ← readNull rest)
  | cs => wrongType .unit cs

end HardFork.Json
