import Tremolo.Decimal.Basic

/-! # The shortest decimal that reads back

`shortest m q` is the decimal with the fewest digits among those that round to the double
`m · 2 ^ q`.  On the grid of multiples of a power of ten only the two neighbours of the value can be
the nearest to it, so the grids are tried from coarse to fine and the first grid with a neighbour
inside the rounding interval wins. -/

namespace Tremolo.Decimal

/-- The number `digits · 10 ^ exponent`. -/
structure Scaled where
  digits : Nat
  exponent : Int
deriving DecidableEq, Repr

/-- A positive value with the interval of reals that round to it, all over one denominator. -/
structure Interval where
  low : Nat
  value : Nat
  high : Nat
  denominator : Nat
  /-- The ends themselves round to the value. -/
  closed : Bool

/-- The interval of the double `m · 2 ^ q`.  Below a power of two the neighbour is half as far,
    except at the smallest exponent; the ends belong to the interval when `m` is even. -/
def Interval.ofBinary (m : Nat) (q : Int) : Interval :=
  let below := if m = Nat.pow 2 52 ∧ q ≠ -1074 then 1 else 2
  let scale := Nat.pow 2 (q - 2).toNat
  { low := (4 * m - below) * scale
    value := 4 * m * scale
    high := (4 * m + 2) * scale
    denominator := Nat.pow 2 (2 - q).toNat
    closed := m % 2 == 0 }

def digitCount (n : Nat) : Nat :=
  (Nat.toDigits 10 n).length

/-- The exponent `e` with `10 ^ e ≤ value < 10 ^ (e + 1)`. -/
def Interval.magnitude (i : Interval) : Int :=
  let guess : Int := digitCount i.value - digitCount i.denominator
  if i.denominator * Nat.pow 10 guess.toNat ≤ i.value * Nat.pow 10 (-guess).toNat then guess
  else guess - 1

/-- The neighbour of the value on the grid of multiples of `10 ^ k` that lies in the interval; of
    two, the nearer, and the upper one when both are equally near. -/
def Interval.neighbour? (i : Interval) (k : Int) : Option Nat :=
  let unit := i.denominator * Nat.pow 10 k.toNat
  let scale := Nat.pow 10 (-k).toNat
  let value := i.value * scale
  let down := value / unit
  let reachable (edge point : Nat) : Bool := edge < point || i.closed && edge == point
  let lowHit := reachable (i.low * scale) (down * unit)
  let highHit := reachable ((down + 1) * unit) (i.high * scale)
  if highHit && (!lowHit || unit ≤ 2 * (value - down * unit)) then some (down + 1)
  else if lowHit then some down
  else none

/-- Tries the grids of `10 ^ k, 10 ^ (k - 1), …`, one for each further digit. -/
def Interval.search (i : Interval) (k : Int) : Nat → Scaled
  | 0 => ⟨i.value * Nat.pow 10 (-k).toNat / (i.denominator * Nat.pow 10 k.toNat), k⟩
  | tries + 1 =>
    match i.neighbour? k with
    | some d => ⟨d, k⟩
    | none => i.search (k - 1) tries

/-- The shortest decimal that rounds to the double `m · 2 ^ q`; seventeen digits always do. -/
def shortest (m : Nat) (q : Int) : Scaled :=
  let i := Interval.ofBinary m q
  i.search i.magnitude 17

/-! ## Floats as text

Floats are written positionally, with the fewest digits that read back: no exponent, however large
or small the number, no point behind a whole number, and a sign also for a negative zero. -/

/-- The digits without zeros at their end, and how many zeros stood there. -/
def dropZeros (digits : List Char) : List Char × Nat :=
  let kept := (digits.reverse.dropWhile (· == '0')).reverse
  (kept, digits.length - kept.length)

def Scaled.positional (d : Scaled) : String :=
  let (digits, zeros) := dropZeros (Nat.toDigits 10 d.digits)
  let exponent := d.exponent + zeros
  if 0 ≤ exponent then
    String.ofList (digits ++ List.replicate exponent.toNat '0')
  else
    let places := (-exponent).toNat
    let padded := List.replicate (places + 1 - digits.length) '0' ++ digits
    let whole := padded.take (padded.length - places)
    let fraction := padded.drop (padded.length - places)
    String.ofList (whole ++ '.' :: fraction)

def floatText (x : Float) : String :=
  match partsOf x with
  | .nan => "NaN"
  | .infinite negative => if negative then "-inf" else "inf"
  | .finite negative m q =>
    let magnitude := if m = 0 then "0" else (shortest m q).positional
    if negative then "-" ++ magnitude else magnitude

/-- The float nearest to `digits · 10 ^ (-places)`. -/
def nearestFloat (digits places : Nat) : Float :=
  Float.ofScientific digits true places

end Tremolo.Decimal
