import Tremolo.Native.Basic
import Tremolo.Text.Case

/-! # The bundled modules -/

namespace Tremolo.Native

/-! ## The module `math` -/

def squareRoot (args : List Value) : Except Error Value := do
  let x ← numberArg "sqrtFn" args 0
  if x < 0.0 then
    throw (.nativeFailure "sqrtFn" ("square root of negative number " ++ Decimal.floatText x))
  return .float x.sqrt

def power (args : List Value) : Except Error Value := do
  let base ← numberArg "powFn" args 0
  let exponent ← numberArg "powFn" args 1
  return .float (base.pow exponent)

/-- The magnitude of a number; integers stay integers. -/
def magnitude (args : List Value) : Except Error Value :=
  match args with
  | .int n :: _ =>
    match Decimal.int64? n.toInt.natAbs with
    | some m => .ok (.int m)
    -- The least integer has no magnitude of 64 bits.
    | none => .error (.nativeFailure "absFn" "integer overflow")
  | _ => do return .float (← numberArg "absFn" args 0).abs

/-- The floor of a float, as an integer if possible. -/
def floorOf (x : Float) : Value :=
  match Decimal.floor? x with
  -- Larger floats and infinities are their own floor.
  | some n => if n.natAbs < Nat.pow 2 63 then .int (Int64.ofInt n) else .float x
  | none => .float x

def floor (args : List Value) : Except Error Value :=
  match args with
  | .int n :: _ => .ok (.int n)
  | _ => do return floorOf (← numberArg "floorFn" args 0)

def math : NativeModule :=
  .ofFunctions "math"
    [⟨"sqrtFn", "Square root", some 1, fun _ => squareRoot⟩,
     ⟨"powFn", "Power", some 2, fun _ => power⟩,
     ⟨"absFn", "Absolute value", some 1, fun _ => magnitude⟩,
     ⟨"floorFn", "Floor", some 1, fun _ => floor⟩]

/-! ## The module `text` -/

def upper (args : List Value) : Except Error Value := do
  return .string (Text.toUpper (← stringArg "upper" args 0))

def lower (args : List Value) : Except Error Value := do
  return .string (Text.toLower (← stringArg "lower" args 0))

def length (args : List Value) : Except Error Value := do
  return .int (Int64.ofNat (← stringArg "length" args 0).length)

def concat (args : List Value) : Except Error Value := do
  let parts ← (List.range args.length).mapM (stringArg "concat" args)
  return .string (String.join parts)

def text : NativeModule :=
  .ofFunctions "text"
    [.plain "upper" (some 1) upper, .plain "lower" (some 1) lower,
     .plain "length" (some 1) length, .plain "concat" none concat]

end Tremolo.Native
