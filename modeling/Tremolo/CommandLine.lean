import Tremolo.Native.Host
import Tremolo.Run.Evaluator
import Tremolo.Syntax.Interchange
import Tremolo.Syntax.Parser.Program
import Tremolo.Token.Scanner

/-! # The command line

Runs one file, a script or a program in JSON, and reports the values of its top-level expressions and
its global variables. -/

namespace Tremolo

def version : String :=
  "0.1.0"

namespace CommandLine

/-- What a process leaves behind. -/
structure Report where
  exit : UInt32
  stdout : String
  stderr : String

/-- Why no program could be run. -/
inductive Fault where
  | usage
  | unreadable (path reason : String)
  | undecodable
  | empty (path : String)
  | script (error : Error)

def usage : String :=
  "Usage: cargo run --example run_file [--ast] <file>\n\nExample scripts in demos/scripts/:\n" ++
    "  - sum.as\n  - modules.as\n"

def Fault.text : Fault → String
  | .usage => CommandLine.usage
  | .unreadable path reason => "Error: reading " ++ path ++ ": " ++ reason ++ "\n"
  | .undecodable => "Error: decoding AST\n"
  | .empty path => "Error: " ++ path ++ " contains no statements\n"
  | .script error => "Error: " ++ error.message ++ "\n"

/-- The file to run, and whether it holds JSON. -/
def parseArgs : List String → Except Fault (Bool × String)
  | ["--ast", path] => .ok (true, path)
  | [path] => .ok (false, path)
  | _ => .error .usage

def programOf (isJson : Bool) (contents : String) : Except Fault Program :=
  if isJson then
    match Program.decode? contents with
    | some p => .ok p
    | none => .error .undecodable
  else
    match tokenize contents >>= parseTokens with
    | .ok p => .ok p
    | .error e => .error (.script e)

/-- The program of the file that the arguments name; a file without header and statements is
    refused. -/
def load (args : List String) (readFile : String → Except String String) :
    Except Fault Program := do
  let (isJson, path) ← parseArgs args
  let contents ← (readFile path).mapError (.unreadable path)
  let p ← programOf isJson contents
  if p.body.isEmpty && p.header.isNone then throw (.empty path)
  return p

def globalLine : String × Option TypedValue → String
  | (name, some value) => "  " ++ name ++ " = " ++ value.text ++ "\n"
  | (name, none) => "  " ++ name ++ " (unassigned)\n"

def resultLine (entry : TypedValue × Nat) : String :=
  "[" ++ Decimal.natText (entry.2 + 1) ++ "] " ++ entry.1.text ++ "\n"

def executionText (x : Execution) : String :=
  let results := String.join (x.results.zipIdx.map resultLine)
  if x.globals.isEmpty then results
  else results ++ "\nGlobals:\n" ++ String.join (x.globals.map globalLine)

/-- Runs a program and reports on it; what the run showed comes first. -/
def runProgram (p : Program) (config : Config) : Report :=
  let (report, _) := ((Evaluator.ofRegistry .bundled).withConfig config).execute ampleFuel p
  match report.outcome with
  | .done x => ⟨0, report.shown ++ executionText x, ""⟩
  | .failed e => ⟨1, report.shown, (Fault.script e).text⟩
  | .deadScope _ | .outOfFuel => ⟨1, report.shown, ""⟩

def run (args : List String) (readFile : String → Except String String)
    (setting? : String → Option String) : Report :=
  match load args readFile with
  | .ok p => runProgram p (.ofVariables setting?)
  | .error fault => ⟨1, "", fault.text⟩

end CommandLine

end Tremolo
