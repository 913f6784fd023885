import HardFork.CommandLine

/-! # The command line over the files of a working folder -/
namespace HardFork.CommandLine

/-- A folder and a file in place of one are told apart by the number of the error. -/
def unreadable : IO.Error → Unreadable
  | .inappropriateType _ code _ => if code = 21 then .isFolder else .notFolder
  | .invalidArgument .. => .longName
  | _ => .missing

def readFile (path : String) : IO (String × Except Unreadable ByteArray) := do
  try return (path, .ok (← IO.FS.readBinFile path))
  catch e => return (path, .error (unreadable e))

end HardFork.CommandLine

open HardFork in
def main (args : List String) : IO UInt32 := do
  let names := match CommandLine.parse args with
    | .ok command => command.files
    | .error _ => []
  let files ← names.mapM CommandLine.readFile
  let answer := CommandLine.answer (fun path => (files.lookup path).getD (.error .missing)) args
  (← IO.getStdout).putStr answer.out
  (← IO.getStderr).putStr answer.err
  return answer.exitCode.toUInt32
