import Tremolo.Json.Numeral

/-! # JSON

Values of the interchange format, as they are written. -/

namespace Tremolo

/-- A JSON value.  Numbers keep their digits, objects the order of their fields.  A string is `none`
    if it names half of a surrogate pair, for which there is no character. -/
inductive Json where
  | null
  | bool (b : Bool)
  | number (n : Numeral)
  | string (s : Option String)
  | array (items : List Json)
  | object (fields : List (Option String × Json))
deriving Inhabited

namespace Json

def text (s : String) : Json :=
  .string (some s)

def texts (ss : List String) : Json :=
  .array (ss.map text)

def int (n : Int) : Json :=
  .number (.ofInt n)

/-- A float; `null` stands for one that is not finite. -/
def float (x : Float) : Json :=
  match Decimal.partsOf x with
  | .finite negative m q =>
    .number (.ofScaled negative (if m = 0 then ⟨0, 0⟩ else Decimal.shortest m q))
  | _ => .null

def record (fields : List (String × Json)) : Json :=
  .object (fields.map fun (key, value) => (some key, value))

/-- A variant with content: an object whose one key is the name of the variant. -/
def variant (tag : String) (content : Json) : Json :=
  record [(tag, content)]

end Json

end Tremolo
