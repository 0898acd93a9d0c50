import Tremolo.Json.Basic

/-! # Decoding JSON

A decoder turns a value into data.  It is told how many levels of arrays and objects it may still
enter, and it enters only what it looks at: fields nobody asked for are skipped at any depth.

* a record is an object, or an array of its fields in order;
* a variant is an object whose one key names it; one without content may be just its name. -/

namespace Tremolo.Json

def Decoder (α : Type) : Type :=
  Nat → Json → Option α

/-- How many levels of arrays and objects a text may nest. -/
def maxLevels : Nat :=
  127

namespace Decoder

variable {α β : Type}

def text : Decoder String
  | _, .string s => s
  | _, _ => none

def bool : Decoder Bool
  | _, .bool b => some b
  | _, _ => none

def int64 : Decoder Int64
  | _, .number n => n.int64?
  | _, _ => none

def nat64 : Decoder Nat
  | _, .number n => n.nat64?
  | _, _ => none

/-- Any number that is not too large. -/
def float : Decoder Float
  | _, .number n => n.float?
  | _, _ => none

def optional (item : Decoder α) : Decoder (Option α)
  | _, .null => some none
  | levels, j => (item levels j).map some

def list (item : Decoder α) : Decoder (List α)
  | levels + 1, .array items => items.mapM (item levels)
  | _, _ => none

/-- The name of a variant without content. -/
def choice (variants : List (String × α)) : Decoder α
  | _, .string (some tag) => variants.lookup tag
  | _ + 1, .object [(some tag, .null)] => variants.lookup tag
  | _, _ => none

/-! ## Records -/

/-- Every key is a text, and no known key occurs twice. -/
def keysFit (names : List String) (fields : List (Option String × Json)) : Bool :=
  let keys := fields.map (·.1)
  keys.all Option.isSome && names.all fun name => keys.count (some name) ≤ 1

/-- The values of the named fields, in the order of the names. -/
def fields? (names : List String) : Json → Option (List (Option Json))
  -- An array does not name its fields, so it has to have all of them.
  | .array items => if items.length = names.length then some (items.map some) else none
  | .object fields =>
    if keysFit names fields then some (names.map fun name => fields.lookup (some name)) else none
  | _ => none

def required (item : Decoder α) (levels : Nat) : Option Json → Option α
  | some j => item levels j
  | none => none

/-- A field that may be missing, which is the same as `null`. -/
def missing (item : Decoder α) (levels : Nat) : Option Json → Option (Option α)
  | some j => item.optional levels j
  | none => some none

/-- A record of the named fields. -/
def record (names : List String) (build : Nat → List (Option Json) → Option β) : Decoder β
  | levels + 1, j => fields? names j >>= build levels
  | 0, _ => none

end Decoder

end Tremolo.Json
