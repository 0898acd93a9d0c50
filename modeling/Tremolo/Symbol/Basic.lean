import Tremolo.Error
import Tremolo.Syntax.Basic

/-! # Symbols

What names are bound to: variables, types, functions of the script and functions of native
modules. -/

namespace Tremolo

/-- The place of a scope in the stack of scopes. -/
abbrev ScopeId := Nat

/-- A variable: a fixed type, and a value from the first assignment on. -/
structure Variable where
  name : String
  type : ValueType
  value : Option TypedValue
deriving DecidableEq

/-- A function of the script, with the scope in which it was declared. -/
structure FunctionDef where
  name : String
  params : List String
  body : List Stmt
  scope : ScopeId

/-- A function of a native module, with its declared signature. -/
structure ExternalFunction where
  name : String
  parameterTypes : List ValueType
  /-- `ValueType.null` when no type was declared. -/
  returnType : ValueType
deriving DecidableEq

inductive Symbol where
  | variable (v : Variable)
  | type (name : String)
  | function (f : FunctionDef)
  | external (f : ExternalFunction)

namespace Variable

def unset (name : String) (type : ValueType) : Variable :=
  ⟨name, type, none⟩

/-- The type under which a value is stored: a `VAR` keeps the type the value came with. -/
def storedAs (v : Variable) (value : TypedValue) : TypedValue :=
  match v.type with
  | .var => value
  | type => ⟨type, value.value⟩

/-- Stores a value that the declared type accepts. -/
def assign (v : Variable) (value : TypedValue) : Except Error Variable :=
  if v.type.accepts value then .ok { v with value := some (v.storedAs value) }
  else .error (.typeMismatch v.name v.type.name value.label)

def withValue (name : String) (type : ValueType) (value : TypedValue) : Except Error Variable :=
  (unset name type).assign value

end Variable

namespace Symbol

def name : Symbol → String
  | .variable v => v.name
  | .type n => n
  | .function f => f.name
  | .external f => f.name

def kind : Symbol → SymbolKind
  | .variable _ => .variable
  | .type _ => .type
  | .function _ => .function
  | .external _ => .external

def text : Symbol → String
  | .variable v =>
    let head := "<VarSymbol(" ++ v.name ++ ": " ++ v.type.name ++ ")>"
    match v.value with
    | some value => head ++ " = " ++ value.text
    | none => head
  | .type n => n
  | .function f => "<FunctionSymbol(" ++ f.name ++ "(" ++ ", ".intercalate f.params ++ "))>"
  | .external f =>
    "<ExternalFunctionSymbol(" ++ f.returnType.name ++ " " ++ f.name ++ "(" ++
      ", ".intercalate (f.parameterTypes.map ValueType.name) ++ "))>"

end Symbol

end Tremolo
