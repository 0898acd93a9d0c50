import Tremolo.Error

/-! # Operations on values

Readings as numbers and strings, signs, arithmetic and comparisons.  Integers are computed exactly and
refused when the result leaves 64 bits; a division stays an integer when it is exact; an integer
beside a float becomes a float. -/

namespace Tremolo

/-! ## Readings -/

namespace Value

/-- The value that was wanted, or the complaint about the one that is there. -/
def wanted {α : Type} (v : Value) (type : ValueType) (found : Option α) : Except Error α :=
  match found with
  | some a => .ok a
  | none => .error (.typeMismatch "value" type.name v.kindName)

def asInt (v : Value) : Except Error Int64 :=
  v.wanted .number v.int?

def asFloat (v : Value) : Except Error Float :=
  v.wanted .number v.float?

def asString (v : Value) : Except Error String :=
  v.wanted .string v.string?

end Value

/-! ## Signs -/

def UnaryOp.apply (op : UnaryOp) (operand : TypedValue) : Except Error TypedValue :=
  match op, operand.value with
  | .plus, .int n => .ok ⟨.number, .int n⟩
  | .plus, .float x => .ok ⟨.number, .float x⟩
  | .neg, .int n =>
    match Decimal.int64? (-n.toInt) with
    | some m => .ok ⟨.number, .int m⟩
    | none => .error (.arithmetic (.negationOverflow n))
  | .neg, .float x => .ok ⟨.number, .float (-x)⟩
  | _, _ => .error (.typeMismatch op.text "NUMBER operand" operand.label)

/-! ## Arithmetic -/

def BinaryOp.keep (op : BinaryOp) (a b : Int64) (result : Int) : Except Error TypedValue :=
  match Decimal.int64? result with
  | some n => .ok ⟨.number, .int n⟩
  | none => .error (.arithmetic (.overflow a op b))

def BinaryOp.applyInt (op : BinaryOp) (a b : Int64) : Except Error TypedValue :=
  match op with
  | .add => op.keep a b (a.toInt + b.toInt)
  | .sub => op.keep a b (a.toInt - b.toInt)
  | .mul => op.keep a b (a.toInt * b.toInt)
  | .div =>
    if b = 0 then .error (.arithmetic .divisionByZero)
    else if a.toInt % b.toInt = 0 then op.keep a b (a.toInt / b.toInt)
    -- With a remainder the division is carried out on floats.
    else .ok ⟨.number, .float (Decimal.floatOfInt a / Decimal.floatOfInt b)⟩

def BinaryOp.applyFloat (op : BinaryOp) (a b : Float) : Except Error TypedValue :=
  match op with
  | .add => .ok ⟨.number, .float (a + b)⟩
  | .sub => .ok ⟨.number, .float (a - b)⟩
  | .mul => .ok ⟨.number, .float (a * b)⟩
  | .div =>
    if b == 0.0 then .error (.arithmetic .divisionByZero) else .ok ⟨.number, .float (a / b)⟩

def BinaryOp.operands : BinaryOp → String
  | add => "NUMBER or STRING operands"
  | _ => "NUMBER operands"

def pairLabel (left right : TypedValue) : String :=
  left.label ++ " and " ++ right.label

/-- Applies an arithmetic operator; `+` also joins two strings. -/
def BinaryOp.apply (op : BinaryOp) (left right : TypedValue) : Except Error TypedValue :=
  match op, left.value, right.value with
  | .add, .string a, .string b => .ok ⟨.string, .string (a ++ b)⟩
  | _, .int a, .int b => op.applyInt a b
  | _, a, b =>
    match a.float?, b.float? with
    | some x, some y => op.applyFloat x y
    | _, _ => .error (.typeMismatch op.text op.operands (pairLabel left right))

/-! ## Comparisons -/

/-- The order of two floats; a float that is not a number has no place in it. -/
def floatOrdering? (a b : Float) : Option Ordering :=
  if a < b then some .lt
  else if a == b then some .eq
  else if b < a then some .gt
  else none

/-- Compares two numbers or two strings.  The outer option says whether the two can be compared at
    all, the inner one whether they are ordered. -/
def Value.ordering? (left right : Value) : Option (Option Ordering) :=
  match left, right with
  | .int a, .int b => some (some (compare a.toInt b.toInt))
  | .string a, .string b => some (some (compare a b))
  | a, b =>
    match a.float?, b.float? with
    | some x, some y => some (floatOrdering? x y)
    | _, _ => none

/-- The truth of a comparison between operands in a given order; of unordered operands every
    comparison is false. -/
def CondOp.holds (op : CondOp) (order : Option Ordering) : Bool :=
  match op, order with
  | .lt, some .lt => true
  | .gt, some .gt => true
  | .le, some .lt | .le, some .eq => true
  | .ge, some .gt | .ge, some .eq => true
  | _, _ => false

def CondOp.order (op : CondOp) (left right : TypedValue) : Except Error TypedValue :=
  match left.value.ordering? right.value with
  | some order => .ok (.bool (op.holds order))
  | none =>
    .error (.typeMismatch op.text "two NUMBER or two STRING operands" (pairLabel left right))

def CondOp.apply (op : CondOp) (left right : TypedValue) : Except Error TypedValue :=
  match op with
  | .eq => .ok (.bool (left.value.same right.value))
  | .ne => .ok (.bool (!left.value.same right.value))
  | .lt | .gt | .le | .ge => op.order left right
  | .and => .ok (.bool (left.value.truthy && right.value.truthy))
  | .or => .ok (.bool (left.value.truthy || right.value.truthy))

/-- The result that a connective has by its left operand alone. -/
def CondOp.shortcut? (op : CondOp) (left : Value) : Option Bool :=
  match op, left.truthy with
  | .and, false => some false
  | .or, true => some true
  | _, _ => none

end Tremolo
