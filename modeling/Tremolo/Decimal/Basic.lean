/-! # Integers and the binary numbers behind floats

Arithmetic is carried out on exact integers; a result is kept only if it fits into 64 bits. -/

namespace Tremolo.Decimal

/-! ## Integers -/

/-- The integer as a 64-bit one, if it is in range. -/
def int64? (n : Int) : Option Int64 :=
  if Int64.minValue.toInt ≤ n ∧ n ≤ Int64.maxValue.toInt then some (Int64.ofInt n) else none

def clampInt64 (n : Int) : Int64 :=
  if n < Int64.minValue.toInt then Int64.minValue
  else if Int64.maxValue.toInt < n then Int64.maxValue
  else Int64.ofInt n

def natText (n : Nat) : String :=
  String.ofList (Nat.toDigits 10 n)

/-- The decimal digits of an integer, behind a sign if it is negative. -/
def intText (n : Int) : String :=
  if n < 0 then "-" ++ natText n.natAbs else natText n.natAbs

def ofDigits (digits : List Char) : Nat :=
  digits.foldl (fun n c => 10 * n + (c.toNat - '0'.toNat)) 0

def floatOfInt (n : Int64) : Float :=
  Float.ofInt n.toInt

/-! ## Floats

Every float is a sign and a number `mantissa · 2 ^ exponent`, an infinity, or no number at all.
The functions here read those parts off the bits and round towards zero or downwards exactly. -/

inductive Parts where
  | nan
  | infinite (negative : Bool)
  /-- The number `± mantissa · 2 ^ exponent`. -/
  | finite (negative : Bool) (mantissa : Nat) (exponent : Int)
deriving DecidableEq

/-- The parts of a double: 1 bit of sign, 11 of exponent, 52 of fraction. -/
def partsOf (x : Float) : Parts :=
  let bits := x.toBits.toNat
  let negative := bits / Nat.pow 2 63 == 1
  let exponent : Nat := bits / Nat.pow 2 52 % Nat.pow 2 11
  let fraction := bits % Nat.pow 2 52
  if exponent = 2047 then
    if fraction = 0 then .infinite negative else .nan
  else if exponent = 0 then .finite negative fraction (-1074)
  else .finite negative (Nat.pow 2 52 + fraction) ((exponent : Int) - 1075)

/-- `mantissa · 2 ^ exponent` without its fraction. -/
def truncated (mantissa : Nat) (exponent : Int) : Nat :=
  if 0 ≤ exponent then mantissa * Nat.pow 2 exponent.toNat
  else mantissa / Nat.pow 2 (-exponent).toNat

/-- `mantissa · 2 ^ exponent` has no fraction. -/
def isWhole (mantissa : Nat) (exponent : Int) : Bool :=
  0 ≤ exponent || mantissa % Nat.pow 2 (-exponent).toNat == 0

/-- The greatest integer that is not above the float, if it is finite. -/
def floor? (x : Float) : Option Int :=
  match partsOf x with
  | .finite false m q => some (truncated m q)
  | .finite true m q => some (-(truncated m q + if isWhole m q then 0 else 1 : Int))
  | _ => none

end Tremolo.Decimal
