import Tremolo.CommandLine

/-! # The program

Reads the one file that the arguments name and prints the report. -/

namespace Tremolo.CommandLine

def fileFault : IO.Error → String
  | .noFileOrDirectory .. => "No such file or directory (os error 2)"
  | e => toString e

def readFile (path : String) : IO (Except String String) := do
  try
    return .ok (← IO.FS.readFile path)
  catch e =>
    return .error (fileFault e)

end Tremolo.CommandLine

open Tremolo

def main (args : List String) : IO UInt32 := do
  let trace ← IO.getEnv "AUDIOSCRIPT_TRACE"
  let echo ← IO.getEnv "AUDIOSCRIPT_ECHO"
  let setting? : String → Option String := fun name =>
    if name = "AUDIOSCRIPT_TRACE" then trace
    else if name = "AUDIOSCRIPT_ECHO" then echo
    else none
  let contents ← match CommandLine.parseArgs args with
    | .ok (_, path) => CommandLine.readFile path
    | .error _ => pure (.error "")
  let report := CommandLine.run args (fun _ => contents) setting?
  IO.print report.stdout
  IO.eprint report.stderr
  return report.exit
