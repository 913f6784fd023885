import HardFork.Json
import HardFork.Json.Scalar

/-! # Reading any value, and passing over one -/
namespace HardFork.Json

def readMember (value : Reader Json) (members : List (String × Json)) (key : String) :
    Reader (List (String × Json)) := fun cs => do
  let (x, rest) ← value (← readColon cs)
  return (insertMember key x members, rest)

/-- An object with this key in front stands for the number that its one member holds as a text. -/
def numberKey : String := "$serde_json::private::Number"

/-- The whole text is a number, or is refused at a place of its own. Behind a first fault the text is
looked at once more, which is why a spot is turned into one that faces what is left. -/
def numeralOf (s : String) : Except Refusal Numeral :=
  let refuse (cause : Cause) (left : Nat) : Except Refusal Numeral :=
    misfit (.refused cause.message) (.within (position s.toList (left-1)))
  match readNumeral (.unfinished .value) s.toList with
  | .ok (n, []) => .ok n
  | .ok (_, rest) => refuse (.malformed .invalidNumber) (octets rest)
  | .error r => refuse r.cause r.spot.left

def readNumberMember : Reader Json := fun cs => do
  let (s, rest) ← readText .numeral (← readColon cs)
  let n ← numeralOf s
  return (.number n.text, ← closeObject rest)

def readObject (value : Reader Json) : Reader Json := fun cs => do
  match ← nextKey true cs with
  | .close rest => return (.object [], rest)
  | .more key rest =>
    if key = numberKey then readNumberMember rest
    else
      let (ms, rest) ← readMember value [] key rest
      let (ms, rest) ← readMembers (readMember value) (cs.length+1) false ms rest
      return (.object ms, rest)

def readAny (list object : Reader Json) : Reader Json := fun cs =>
  match skipSpace cs with
  | [] => unfinished .value
  | c :: rest =>
    if c = 'n' then do return (.null, ← readNull rest)
    else if c = 't' then do return (.bool true, ← readTrue rest)
    else if c = 'f' then do return (.bool false, ← readFalse rest)
    else if c = '"' then do
      let (s, rest) ← readString rest
      return (.string s, rest)
    else if startsNumeral c then do
      let (n, rest) ← readNumeral (.unfinished .value) (c :: rest)
      return (.number n.text, rest)
    else if c = '[' then list rest
    else if c = '\x7b' then object rest
    else malformed .expectedValue (.ahead (c :: rest))

/-- Reads a value with at most `levels` lists and objects open at once. Members are ordered by
name, the last of one name counts. -/
def readValue : (levels : Nat) → Reader Json
  | 0 => readAny (fun cs => malformed .tooDeep (.here cs)) (fun cs => malformed .tooDeep (.here cs))
  | levels+1 =>
    readAny
      (fun cs => do
        let (xs, rest) ← readItems (readValue levels) (cs.length+1) true cs
        return (.array xs, rest))
      (readObject (readValue levels))

inductive Frame | list | object
deriving DecidableEq

def Frame.place : Frame → Place
  | .list => .list
  | .object => .object

def Frame.closing : Frame → Char
  | .list => ']'
  | .object => '\x7d'

def skipScalar : List Char → Except Refusal (List Char)
  | [] => unfinished .value
  | c :: cs =>
    if c = 'n' then readNull cs
    else if c = 't' then readTrue cs
    else if c = 'f' then readFalse cs
    else if c = '"' then skipString cs
    else if startsNumeral c then do
      let (_, rest) ← readNumeral (.malformed .invalidNumber) (c :: cs)
      return rest
    else malformed .expectedValue (.ahead (c :: cs))

def skipKey (cs : List Char) : Except Refusal (List Char) :=
  match skipSpace cs with
  | [] => unfinished .object
  | c :: rest =>
    if c = '"' then do readColon (← skipString rest)
    else malformed .keyNotString (.ahead (c :: rest))

def skipToItem (frame : Frame) (cs : List Char) : Except Refusal (List Char) :=
  match frame with
  | .list => .ok cs
  | .object => skipKey cs

/-- One move over the text: past a scalar, into a bracket or to the next item. The answer tells
whether a value ended there, and the brackets that are open. -/
def skipStep (ended : Bool) (frames : List Frame) (cs : List Char) :
    Except Refusal (Bool × List Frame × List Char) :=
  match ended, frames with
  | true, [] => .ok (true, [], cs)
  | true, frame :: outer =>
    match skipSpace cs with
    | [] => unfinished frame.place
    | c :: rest =>
      if c = frame.closing then .ok (true, outer, rest)
      else if c = ',' then do return (false, frames, ← skipToItem frame rest)
      else malformed (.expectedCommaOr frame.closing) (.ahead (c :: rest))
  | false, _ =>
    let enter (frame : Frame) (rest : List Char) : Except Refusal (Bool × List Frame × List Char) :=
      match skipSpace rest with
      | [] => unfinished frame.place
      | c :: cs =>
        if c = frame.closing then .ok (true, frames, cs)
        else do return (false, frame :: frames, ← skipToItem frame rest)
    match skipSpace cs with
    | '[' :: rest => enter .list rest
    | '\x7b' :: rest => enter .object rest
    | cs => do return (true, frames, ← skipScalar cs)

def skipFrom : (fuel : Nat) → Bool → List Frame → List Char → Except Refusal (List Char)
  | _, true, [], cs => .ok cs
  | 0, _, _, _ => unfinished .value
  | fuel+1, ended, frames, cs => do
    let (ended, frames, cs) ← skipStep ended frames cs
    skipFrom fuel ended frames cs

/-- Passes over a value, of which only the grammar is checked: to any depth, with any numbers,
repeated keys and lone surrogates. -/
def skipValue (cs : List Char) : Except Refusal (List Char) := skipFrom (cs.length+1) false [] cs

end HardFork.Json
