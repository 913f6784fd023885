/-! # Files found by their path from a working folder

A path is walked from name to name. Around the working folder there are folders too, but no file
of theirs is known. -/
namespace HardFork

/-- Why a path leads to no octets. -/
inductive Unreadable | missing | notFolder | isFolder | longName
deriving DecidableEq

def Unreadable.message : Unreadable → String
  | .missing => "No such file or directory (os error 2)"
  | .notFolder => "Not a directory (os error 20)"
  | .isFolder => "Is a directory (os error 21)"
  | .longName => "File name too long (os error 36)"

namespace Folder

/-- The names between the slashes, the empty ones too. -/
def names : List Char → List (List Char)
  | [] => [[]]
  | c :: cs =>
    if c = '/' then [] :: names cs
    else match names cs with
      | [] => [[c]]
      | name :: rest => (c :: name) :: rest

/-- Where a walk stands: in a folder inside the working folder, in one around it, or at a file. -/
inductive Place
  | inside (trail : List (List Char))
  | around
  | file (octets : ByteArray)

/-- Bounds on the octets of a name and of a path. -/
def maxName : Nat := 255
def maxPath : Nat := 4095

end Folder

/-- The files of a working folder, each under the names that lead to it. -/
structure Folder where
  files : List (List (List Char) × ByteArray)

namespace Folder

def ofList (files : List (String × ByteArray)) : Folder where
  files := files.map fun (path, octets) => (names path.toList, octets)

def enter (f : Folder) : Place → List Char → Except Unreadable Place
  | .file _, _ => .error .notFolder
  | place, [] => .ok place
  | place, ['.'] => .ok place
  | .inside (name :: trail), ['.', '.'] => .ok (.inside (name :: trail).dropLast)
  | _, ['.', '.'] => .ok .around
  | place, name =>
    if (String.ofList name).utf8ByteSize > maxName then .error .longName
    else match place with
      | .inside trail =>
        let trail := trail ++ [name]
        match f.files.lookup trail with
        | some octets => .ok (.file octets)
        | none =>
          if f.files.any fun (path, _) => trail.isPrefixOf path then .ok (.inside trail)
          else .error .missing
      | _ => .error .missing

def start : List Char → Place
  | '/' :: _ => .around
  | _ => .inside []

def walk (f : Folder) (path : List Char) : Except Unreadable Place :=
  (names path).foldlM f.enter (start path)

def read (f : Folder) (path : String) : Except Unreadable ByteArray :=
  if path.isEmpty then .error .missing
  else if path.utf8ByteSize > maxPath then .error .longName
  else match f.walk path.toList with
    | .ok (.file octets) => .ok octets
    | .ok _ => .error .isFolder
    | .error e => .error e

end Folder
end HardFork
