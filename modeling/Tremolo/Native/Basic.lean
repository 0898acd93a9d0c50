import Tremolo.Error
import Tremolo.Table
import Tremolo.Text.Quoted

/-! # Native functions

Functions that scripts call and the host provides, grouped into modules and kept in a registry.

* `NativeFunction.call` — a call with already checked arguments;
* `numberArg`, `stringArg` — how a native function reads its arguments;
* `NativeModule`, `Registry` — where scripts find them. -/

namespace Tremolo

/-- A function of the host.  Besides its arguments a call is told its serial number within the run,
    which serves as the identity of an object it may make. -/
structure NativeFunction where
  name : String
  description : String
  /-- The fixed number of arguments; none if it varies. -/
  arity : Option Nat
  call : (serial : Nat) → List Value → Except Error Value

/-- A function that makes no objects and has no description. -/
def NativeFunction.plain (name : String) (arity : Option Nat)
    (f : List Value → Except Error Value) : NativeFunction :=
  ⟨name, "", arity, fun _ => f⟩

/-! ## Arguments -/

def wrongArgument (function : String) (index : Nat) (wanted : String) (got : Value) : Error :=
  .nativeFailure function
    ("argument " ++ Decimal.natText (index + 1) ++ " must be a " ++ wanted ++ ", got " ++
      got.kindName)

def missingArgument (function : String) (index : Nat) : Error :=
  .nativeFailure function ("missing argument " ++ Decimal.natText (index + 1))

def numberArg (function : String) (args : List Value) (index : Nat) : Except Error Float :=
  match args[index]? with
  | none => .error (missingArgument function index)
  | some v =>
    match v.float? with
    | some x => .ok x
    | none => .error (wrongArgument function index "number" v)

def stringArg (function : String) (args : List Value) (index : Nat) : Except Error String :=
  match args[index]? with
  | none => .error (missingArgument function index)
  | some v =>
    match v.string? with
    | some s => .ok s
    | none => .error (wrongArgument function index "string" v)

/-! ## Modules -/

structure NativeModule where
  name : String
  functions : Table NativeFunction

namespace NativeModule

def empty (name : String) : NativeModule :=
  ⟨name, .empty⟩

/-- Adds a function; one of the same name is replaced. -/
def register (m : NativeModule) (f : NativeFunction) : NativeModule :=
  { m with functions := m.functions.insert f.name f }

/-- A module with the given functions; the last one of a name counts. -/
def ofFunctions (name : String) (functions : List NativeFunction) : NativeModule :=
  functions.foldl register (empty name)

def function? (m : NativeModule) (name : String) : Option NativeFunction :=
  m.functions.get? name

def listed (m : NativeModule) : List NativeFunction :=
  m.functions.sortedNames.filterMap m.function?

/-- A module as text: its name and the names of its functions, quoted. -/
def text (m : NativeModule) : String :=
  "NativeModule \x7b name: " ++ Text.quoted m.name ++ ", functions: [" ++
    ", ".intercalate (m.functions.sortedNames.map Text.quoted) ++ "] \x7d"

end NativeModule

/-! ## Registry -/

structure Registry where
  modules : Table NativeModule

namespace Registry

def empty : Registry :=
  ⟨.empty⟩

/-- Adds a module; one of the same name is replaced. -/
def register (r : Registry) (m : NativeModule) : Registry :=
  ⟨r.modules.insert m.name m⟩

def resolve? (r : Registry) (name : String) : Option NativeModule :=
  r.modules.get? name

def listed (r : Registry) : List String :=
  r.modules.sortedNames

end Registry

end Tremolo
