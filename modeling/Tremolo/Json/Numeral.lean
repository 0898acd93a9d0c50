import Tremolo.Decimal.Shortest

/-! # Numbers in JSON

A numeral keeps the digits that were written; what it denotes depends on who asks.

* `Numeral.int64?`, `Numeral.nat64?` — integers, from integer notation only;
* `Numeral.float?` — floats, from a 64-bit significand scaled by a power of ten. -/

namespace Tremolo

/-- A number as it is written: `-12.50e+3`. -/
structure Numeral where
  negative : Bool
  whole : List Char
  /-- Empty if there is no point. -/
  fraction : List Char
  exponent : Option (Bool × List Char)
deriving DecidableEq

namespace Numeral

/-! ## Integers -/

/-- No point and no exponent. -/
def isInteger (n : Numeral) : Bool :=
  n.fraction.isEmpty && n.exponent.isNone

/-- The integer that a numeral in integer notation denotes.  A negative zero denotes none. -/
def int? (n : Numeral) : Option Int :=
  let magnitude := Decimal.ofDigits n.whole
  if !n.isInteger then none
  else if !n.negative then some magnitude
  else if magnitude = 0 then none
  else some (-magnitude)

def int64? (n : Numeral) : Option Int64 :=
  n.int? >>= Decimal.int64?

def nat64? (n : Numeral) : Option Nat := do
  let k ← n.int?
  if 0 ≤ k ∧ k < Nat.pow 2 64 then some k.toNat else none

/-! ## Floats

Digits go into a significand as long as it fits into 64 bits without sign.  Further digits in front
of the point only raise the exponent, further digits behind it are dropped.  The significand is
rounded to a float once and scaled by a power of ten once more, so the result need not be the float
nearest to the numeral. -/

/-- A significand and the power of ten that belongs to it. -/
structure Scaled where
  significand : Nat
  exponent : Int

def digit (c : Char) : Nat :=
  c.toNat - '0'.toNat

/-- Takes one more digit, if the significand still fits. -/
def Scaled.push? (s : Scaled) (c : Char) : Option Nat :=
  let next := 10 * s.significand + digit c
  if next < Nat.pow 2 64 then some next else none

def Scaled.wholeDigits (s : Scaled) : List Char → Scaled
  | [] => s
  | c :: rest =>
    match s.push? c with
    | some next => Scaled.wholeDigits ⟨next, s.exponent⟩ rest
    -- The digits that no longer fit count as zeros.
    | none => ⟨s.significand, s.exponent + (c :: rest).length⟩

def Scaled.fractionDigits (s : Scaled) : List Char → Scaled
  | [] => s
  | c :: rest =>
    match s.push? c with
    | some next => Scaled.fractionDigits ⟨next, s.exponent - 1⟩ rest
    -- Behind the point they are dropped.
    | none => s

def powerOfTen (n : Nat) : Float :=
  Float.ofScientific 1 false n

/-- `x · 10 ^ exponent`, or nothing if that is too large. -/
def scale (x : Float) (exponent : Int) : Option Float :=
  if 0 ≤ exponent then
    if exponent ≤ 308 then
      let y := x * powerOfTen exponent.toNat
      if y.isInf then none else some y
    else if x == 0.0 then some x
    else none
  else if -308 ≤ exponent then some (x / powerOfTen (-exponent).toNat)
  else if x == 0.0 then some x
  -- No power of ten beyond this one is a float, so small numbers are reached in steps.
  else scale (x / powerOfTen 308) (exponent + 308)
termination_by (-exponent).toNat
decreasing_by omega

def Scaled.float? (s : Scaled) : Option Float :=
  scale (Float.ofNat s.significand) s.exponent

/-- The magnitude when a written exponent comes on top. -/
def Scaled.withExponent? (s : Scaled) (negative : Bool) (digits : List Char) : Option Float :=
  let e : Int := Decimal.ofDigits digits
  if e < Nat.pow 2 31 then
    Scaled.float? ⟨s.significand, if negative then s.exponent - e else s.exponent + e⟩
  -- Beyond 32 bits it is too large for every number but zero, and makes every number zero if negative.
  else if s.significand = 0 || negative then some 0.0
  else none

/-- The float that a numeral denotes; nothing if it is too large for a float. -/
def float? (n : Numeral) : Option Float :=
  let s := ((⟨0, 0⟩ : Scaled).wholeDigits n.whole).fractionDigits n.fraction
  let magnitude :=
    match n.exponent with
    | none => s.float?
    | some (negative, digits) => s.withExponent? negative digits
  magnitude.map fun x => if n.negative then -x else x

/-! ## Writing -/

def ofInt (n : Int) : Numeral :=
  ⟨n < 0, Nat.toDigits 10 n.natAbs, [], none⟩

/-- A finite number with a fraction or an exponent, by its shortest digits. -/
def ofScaled (negative : Bool) (d : Decimal.Scaled) : Numeral :=
  ⟨negative, Nat.toDigits 10 d.digits, [], some (d.exponent < 0, Nat.toDigits 10 d.exponent.natAbs)⟩

def text (n : Numeral) : List Char :=
  let sign := if n.negative then ['-'] else []
  let fraction := if n.fraction.isEmpty then [] else '.' :: n.fraction
  let exponent :=
    match n.exponent with
    | none => []
    | some (negative, digits) => 'e' :: (if negative then '-' :: digits else digits)
  sign ++ n.whole ++ fraction ++ exponent

end Numeral

end Tremolo
