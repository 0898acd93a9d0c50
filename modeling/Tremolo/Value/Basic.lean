import Tremolo.Decimal.Shortest

/-! # Values and their types

Values are dynamic; beside each value a run carries the type under which it was produced or stored.

* `Value.same` — equality as scripts see it;
* `ValueType.accepts` — which typed values may be stored under a declared type;
* `TypedValue.label` — the type word used in messages. -/

namespace Tremolo

/-- An object owned by native code.  Two handles are the same object exactly when they are equal:
    objects given by the host are told apart by name, objects made during a run by the serial number
    of the call that made them. -/
inductive Handle where
  | given (name : String)
  | made (serial : Nat) (name : String)
deriving DecidableEq

def Handle.name : Handle → String
  | given name => name
  | made _ name => name

inductive Value where
  | null
  | bool (b : Bool)
  | int (n : Int64)
  | float (x : Float)
  | string (s : String)
  | native (h : Handle)
deriving DecidableEq

inductive ValueType where
  | number
  | string
  | var
  /-- The type of an absent result. -/
  | null
  /-- A type of native objects, declared in the header of a program. -/
  | named (name : String)
deriving DecidableEq

/-- A value with the type under which it was produced or stored. -/
structure TypedValue where
  type : ValueType
  value : Value
deriving DecidableEq

namespace Value

def kindName : Value → String
  | null => "null"
  | bool _ => "bool"
  | int _ => "int"
  | float _ => "float"
  | string _ => "string"
  | native _ => "native"

def isNumber : Value → Bool
  | int _ | float _ => true
  | _ => false

def isString : Value → Bool
  | string _ => true
  | _ => false

/-- The truth of a value as a condition. -/
def truthy : Value → Bool
  | null => false
  | bool b => b
  | int n => n != 0
  -- A float that is not a number differs from zero and so is true.
  | float x => x != 0.0
  | string s => !s.isEmpty
  | native _ => true

/-- Equality as scripts see it. -/
def same : Value → Value → Bool
  | null, null => true
  | bool a, bool b => a == b
  | int a, int b => a == b
  | float a, float b => a == b
  -- Numbers are equal by value; an integer beside a float is rounded to one.
  | int a, float b => Decimal.floatOfInt a == b
  | float a, int b => Decimal.floatOfInt b == a
  | string a, string b => a == b
  | native a, native b => a == b
  | _, _ => false

def float? : Value → Option Float
  | int n => some (Decimal.floatOfInt n)
  | float x => some x
  | _ => none

/-- The number as an integer: a float loses its fraction and is clamped to 64 bits. -/
def int? : Value → Option Int64
  | int n => some n
  | float x =>
    match Decimal.partsOf x with
    | .nan => some 0
    | .infinite negative => some (if negative then Int64.minValue else Int64.maxValue)
    | .finite negative m q =>
      let magnitude : Int := Decimal.truncated m q
      some (Decimal.clampInt64 (if negative then -magnitude else magnitude))
  | _ => none

def string? : Value → Option String
  | string s => some s
  | _ => none

/-- The type of a value that was produced without a declaration. -/
def naturalType : Value → ValueType
  | int _ | float _ => .number
  | string _ => .string
  | null => .null
  | bool _ | native _ => .var

/-- A value as text; strings stand between quotes, without escapes. -/
def text : Value → String
  | null => "null"
  | bool b => if b then "true" else "false"
  | int n => Decimal.intText n.toInt
  | float x => Decimal.floatText x
  | string s => "\"" ++ s ++ "\""
  | native _ => "<native>"

end Value

namespace ValueType

/-- The type that a name stands for; case does not matter in the builtin names. -/
def ofName (name : String) : ValueType :=
  let upper := name.map Char.toUpper
  if upper = "NUMBER" then number
  else if upper = "STRING" then string
  else if upper = "VAR" then var
  else named name

def name : ValueType → String
  | number => "NUMBER"
  | string => "STRING"
  | var => "VAR"
  | null => "NULL"
  | named n => n

/-- Whether a value may be stored in, or passed as, something of this type.  Numbers and strings are
    judged by the value; a declared type asks for a value that carries that very type. -/
def accepts : ValueType → TypedValue → Bool
  | var, _ => true
  | number, v => v.value.isNumber
  | string, v => v.value.isString
  | null, v => v.value == .null
  | named n, v => v.type == named n

end ValueType

namespace TypedValue

def natural (v : Value) : TypedValue :=
  ⟨v.naturalType, v⟩

/-- The result of a call that gives nothing back. -/
def null : TypedValue :=
  ⟨.null, .null⟩

def bool (b : Bool) : TypedValue :=
  ⟨.var, .bool b⟩

/-- The type word used in messages: the declared type, else the word for the kind of value. -/
def label (v : TypedValue) : String :=
  match v.type, v.value with
  | .named n, _ => n
  | _, .int _ | _, .float _ => "NUMBER"
  | _, .string _ => "STRING"
  | _, .null => "NULL"
  | _, .bool _ => "BOOL"
  | _, .native _ => "VAR"

def text (v : TypedValue) : String :=
  v.value.text

end TypedValue

end Tremolo
