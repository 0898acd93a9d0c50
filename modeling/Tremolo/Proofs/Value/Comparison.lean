import Mathlib
import Tremolo.Value.Operation
import Tremolo.Proofs.Decimal.Rounding

/-! # Comparisons

Two integers are compared exactly, an integer and a float by rounding the integer.  The rounded integer
is a rank like any other (`Value.rank?`), and rounding is monotone, so that the two rules never disagree
about what comes first: the six operators describe one order (`comparisons_agree`).  Rounding is not
injective, so they may disagree about what is equal: equality is transitive except for two integers with
the same float between them (`equality_transitive_iff`). -/

namespace Tremolo

open Decimal (Rank nearestRank)

/-! ## Floats -/

/-- Floats are compared by rank. -/
theorem floatOrdering?_eq (x y : Float) :
    floatOrdering? x y = Option.map₂ compare (Decimal.rank? x) (Decimal.rank? y) := by
  have hlt : x < y ↔ _ := Decimal.lt_iff
  have heq : x == y ↔ _ := Decimal.beq_iff
  have hgt : y < x ↔ _ := Decimal.gt_iff
  unfold floatOrdering?
  generalize Option.map₂ compare (Decimal.rank? x) (Decimal.rank? y) = order at *
  rcases order with _ | (_ | _ | _)
  · rw [if_neg (by simp [hlt]), if_neg (by simp [heq]), if_neg (by simp [hgt])]
  · rw [if_pos (hlt.2 rfl)]
  · rw [if_neg (by simp [hlt]), if_pos (heq.2 rfl)]
  · rw [if_neg (by simp [hlt]), if_neg (by simp [heq]), if_pos (hgt.2 rfl)]

/-! ## Values -/

namespace Value

/-- Floats only. -/
def isFloat : Value → Bool
  | float _ => true
  | _ => false

/-- A float that is not a number. -/
def isNaN : Value → Bool
  | float x => x.isNaN
  | _ => false

/-- Two numbers or two strings. -/
def Comparable (v w : Value) : Prop :=
  v.isNumber ∧ w.isNumber ∨ v.isString ∧ w.isString

/-- The rank of a number; an integer has that of the nearest float. -/
def rank? (v : Value) : Option Rank :=
  v.float?.bind Decimal.rank?

@[simp]
theorem rank?_int (n : Int64) : (int n).rank? = some (nearestRank n.toInt) :=
  Decimal.rank?_floatOfInt n

@[simp]
theorem rank?_float (x : Float) : (float x).rank? = Decimal.rank? x :=
  rfl

/-- As soon as a float takes part, numbers are compared by rank. -/
theorem ordering?_of_isFloat {v w : Value} (hv : v.isNumber) (hw : w.isNumber)
    (hfloat : v.isFloat ∨ w.isFloat) :
    v.ordering? w = some (Option.map₂ compare v.rank? w.rank?) := by
  cases v <;> cases w <;> simp_all [isNumber, isFloat, ordering?, float?, floatOrdering?_eq,
    Decimal.rank?_floatOfInt]

/-- The ways in which values are compared. -/
theorem ordering?_cases {v w : Value} {order : Option Ordering} (h : v.ordering? w = some order) :
    (∃ m n, v = int m ∧ w = int n ∧ order = some (compare m.toInt n.toInt)) ∨
      (∃ a b, v = string a ∧ w = string b ∧ order = some (compare a b)) ∨
      v.isNumber ∧ w.isNumber ∧ (v.isFloat ∨ w.isFloat) ∧
        order = Option.map₂ compare v.rank? w.rank? := by
  cases v <;> cases w <;>
    simp_all [ordering?, float?, isNumber, isFloat, floatOrdering?_eq, Decimal.rank?_floatOfInt]

theorem ordering?_isSome (v w : Value) : (v.ordering? w).isSome ↔ v.Comparable w := by
  cases v <;> cases w <;> simp [ordering?, float?, Comparable, isNumber, isString]

theorem same_of_isFloat {v w : Value} (h : v.isFloat ∨ w.isFloat) :
    v.same w ↔ ∃ r, v.rank? = some r ∧ w.rank? = some r := by
  cases v <;> cases w <;>
    simp_all [same, isFloat, Decimal.beq_iff_rank?, Decimal.rank?_floatOfInt, rank?, float?]

theorem same_of_not_isFloat {v w : Value} (h : ¬ (v.isFloat ∨ w.isFloat)) :
    v.same w ↔ v = w := by
  cases v <;> cases w <;> simp_all [same, isFloat]

theorem same_comm (v w : Value) : v.same w ↔ w.same v := by
  by_cases hfloat : v.isFloat ∨ w.isFloat
  · simp only [same_of_isFloat hfloat, same_of_isFloat hfloat.symm, and_comm]
  · rw [same_of_not_isFloat hfloat, same_of_not_isFloat (hfloat ∘ Or.symm), eq_comm]

variable {v w : Value} {order : Option Ordering}

/-- Equality is what the order says it is. -/
theorem same_eq (h : v.ordering? w = some order) : v.same w = (order == some .eq) := by
  rw [Bool.eq_iff_iff, beq_iff_eq]
  rcases ordering?_cases h with ⟨m, n, rfl, rfl, rfl⟩ | ⟨a, b, rfl, rfl, rfl⟩ | ⟨-, -, hfloat, rfl⟩
  · simp [same, Int64.toInt_inj]
  · simp [same]
  · simp [same_of_isFloat hfloat, Option.map₂_eq_some_iff]

/-- Exchanging the operands turns the order around. -/
theorem ordering?_swap (h : v.ordering? w = some order) :
    w.ordering? v = some (order.map Ordering.swap) := by
  rcases ordering?_cases h with ⟨m, n, rfl, rfl, rfl⟩ | ⟨a, b, rfl, rfl, rfl⟩ | ⟨hv, hw, hfloat, rfl⟩
  · rw [Option.map_some, ← Std.OrientedOrd.eq_swap]
    rfl
  · rw [Option.map_some, ← Std.OrientedOrd.eq_swap]
    rfl
  · rw [ordering?_of_isFloat hw hv hfloat.symm]
    cases v.rank? <;> cases w.rank? <;> simp [← Std.OrientedOrd.eq_swap]

theorem isNumber_of_rank? {r : Rank} (h : v.rank? = some r) : v.isNumber := by
  cases v <;> simp_all [isNumber, rank?, float?]

theorem rank?_eq_none (h : v.isNumber) : v.rank? = none ↔ v.isNaN := by
  cases v <;> simp_all [isNumber, isNaN, Decimal.rank?_eq_none]

/-- Only what is not a number is unordered. -/
theorem unordered_iff (h : v.ordering? w = some order) : order = none ↔ v.isNaN ∨ w.isNaN := by
  rcases ordering?_cases h with ⟨m, n, rfl, rfl, rfl⟩ | ⟨a, b, rfl, rfl, rfl⟩ | ⟨hv, hw, -, rfl⟩
  · simp [isNaN]
  · simp [isNaN]
  · rw [Option.map₂_eq_none_iff, rank?_eq_none hv, rank?_eq_none hw]

/-- How a value can come before another one. -/
theorem precedes_cases (h : v.ordering? w = some (some .lt)) :
    (∃ a b, v = string a ∧ w = string b ∧ a < b) ∨
      (∃ m n, v = int m ∧ w = int n ∧ m.toInt < n.toInt) ∨
      ∃ r s, v.rank? = some r ∧ w.rank? = some s ∧ r < s := by
  rcases ordering?_cases h with ⟨m, n, rfl, rfl, hlt⟩ | ⟨a, b, rfl, rfl, hlt⟩ | ⟨-, -, -, hlt⟩
  · exact .inr (.inl ⟨m, n, rfl, rfl, compare_lt_iff_lt.1 (Option.some.inj hlt).symm⟩)
  · exact .inl ⟨a, b, rfl, rfl, compare_lt_iff_lt.1 (Option.some.inj hlt).symm⟩
  · obtain ⟨r, s, hv, hw, hrs⟩ := Option.map₂_eq_some_iff.1 hlt.symm
    exact .inr (.inr ⟨r, s, hv, hw, compare_lt_iff_lt.1 hrs⟩)

theorem eq_int_of_isNumber (h : v.isNumber) (hfloat : ¬ v.isFloat) : ∃ n, v = int n := by
  cases v <;> simp_all [isNumber, isFloat]

/-- A number of lower rank comes first, also where both numbers are integers and ranks are not what
is compared. -/
theorem precedes_of_rank {r s : Rank} (hv : v.rank? = some r) (hw : w.rank? = some s) (h : r < s) :
    v.ordering? w = some (some .lt) := by
  have hnv := isNumber_of_rank? hv
  have hnw := isNumber_of_rank? hw
  by_cases hfloat : v.isFloat ∨ w.isFloat
  · rw [ordering?_of_isFloat hnv hnw hfloat, hv, hw]
    exact congrArg (some <| some ·) (compare_lt_iff_lt.2 h)
  · obtain ⟨hfv, hfw⟩ := not_or.1 hfloat
    obtain ⟨m, rfl⟩ := eq_int_of_isNumber hnv hfv
    obtain ⟨n, rfl⟩ := eq_int_of_isNumber hnw hfw
    obtain rfl := Option.some.inj ((rank?_int m).symm.trans hv)
    obtain rfl := Option.some.inj ((rank?_int n).symm.trans hw)
    have hlt := Decimal.nearestRank_mono.reflect_lt h
    exact congrArg (some <| some ·) (compare_lt_iff_lt.2 hlt)

theorem precedes_trans {u : Value} (h₁ : v.ordering? w = some (some .lt))
    (h₂ : w.ordering? u = some (some .lt)) : v.ordering? u = some (some .lt) := by
  rcases precedes_cases h₁ with ⟨a, b, rfl, rfl, hab⟩ | ⟨m, n, rfl, rfl, hmn⟩ | ⟨r, s, hv, hw, hrs⟩
  · rcases precedes_cases h₂ with ⟨_, c, ⟨⟩, rfl, hbc⟩ | ⟨_, _, ⟨⟩, _⟩ | ⟨_, _, ⟨⟩, _⟩
    exact congrArg (some <| some ·) (compare_lt_iff_lt.2 (hab.trans hbc))
  -- Rounding may bring two integers together but does not exchange them.
  · rcases precedes_cases h₂ with ⟨_, _, ⟨⟩, _⟩ | ⟨_, k, ⟨⟩, rfl, hnk⟩ | ⟨_, s, hn, hu, hns⟩
    · exact congrArg (some <| some ·) (compare_lt_iff_lt.2 (hmn.trans hnk))
    · obtain rfl := Option.some.inj ((rank?_int n).symm.trans hn)
      exact precedes_of_rank (rank?_int m) hu ((Decimal.nearestRank_mono hmn.le).trans_lt hns)
  · rcases precedes_cases h₂ with ⟨_, _, rfl, _⟩ | ⟨n, k, rfl, rfl, hnk⟩ | ⟨s', t, hw', hu, hst⟩
    · cases hw
    · obtain rfl := Option.some.inj ((rank?_int n).symm.trans hw)
      exact precedes_of_rank hv (rank?_int k) (hrs.trans_le (Decimal.nearestRank_mono hnk.le))
    · obtain rfl := Option.some.inj (hw.symm.trans hw')
      exact precedes_of_rank hv hu (hrs.trans hst)

/-- Two different integers with a float between them. -/
def Blurred (v w u : Value) : Prop :=
  ∃ m n, v = int m ∧ u = int n ∧ m ≠ n ∧ w.isFloat

theorem rank?_eq_of_same {u : Value} (hvw : v.same w) (hwu : w.same u)
    (hfloat : v.isFloat ∨ w.isFloat) (hfloat' : w.isFloat ∨ u.isFloat) :
    ∃ r, v.rank? = some r ∧ u.rank? = some r := by
  obtain ⟨r, hv, hw⟩ := (same_of_isFloat hfloat).1 hvw
  obtain ⟨s, hw', hu⟩ := (same_of_isFloat hfloat').1 hwu
  obtain rfl := Option.some.inj (hw.symm.trans hw')
  exact ⟨r, hv, hu⟩

/-- Equality is transitive except through a float that blurs two integers. -/
theorem same_trans_iff {u : Value} (hvw : v.same w) (hwu : w.same u) :
    v.same u ↔ ¬ Blurred v w u := by
  constructor
  · rintro hvu ⟨m, n, rfl, rfl, hne, -⟩
    exact hne (beq_iff_eq.1 hvu)
  intro hclear
  by_cases hfloat : v.isFloat ∨ w.isFloat
  · by_cases hfloat' : w.isFloat ∨ u.isFloat
    · obtain ⟨r, hv, hu⟩ := rank?_eq_of_same hvw hwu hfloat hfloat'
      by_cases hends : v.isFloat ∨ u.isFloat
      · exact (same_of_isFloat hends).2 ⟨r, hv, hu⟩
      -- Both ends are integers, and they are compared without their ranks.
      · obtain ⟨hend, hend'⟩ := not_or.1 hends
        obtain ⟨m, rfl⟩ := eq_int_of_isNumber (isNumber_of_rank? hv) hend
        obtain ⟨n, rfl⟩ := eq_int_of_isNumber (isNumber_of_rank? hu) hend'
        by_contra hne
        exact hclear ⟨m, n, rfl, rfl, fun heq => hne (beq_iff_eq.2 heq), hfloat.resolve_left hend⟩
    · obtain rfl := (same_of_not_isFloat hfloat').1 hwu
      exact hvw
  · obtain rfl := (same_of_not_isFloat hfloat).1 hvw
    exact hwu

/-- An integer below 2⁵³ is equal to no other integer through anything in between. -/
theorem eq_of_same_int {m n : Int64} (hm : (int m).same w) (hn : w.same (int n))
    (hshort : |m.toInt| < 2 ^ 53) : m = n := by
  by_cases hfloat : w.isFloat
  · obtain ⟨r, hr, hr'⟩ := rank?_eq_of_same hm hn (.inr hfloat) (.inl hfloat)
    rw [rank?_int] at hr hr'
    exact Int64.toInt_inj.1
      (Decimal.eq_of_nearestRank_eq (Option.some.inj (hr.trans hr'.symm)) hshort)
  · have hplain : ¬ ((int m).isFloat ∨ w.isFloat) := not_or.2 ⟨Bool.false_ne_true, hfloat⟩
    obtain rfl := (same_of_not_isFloat hplain).1 hm
    exact beq_iff_eq.1 hn

end Value

/-! ## Operators -/

namespace CondOp

variable {op : CondOp} {l r : TypedValue} {order : Option Ordering}

/-- The operators that ask for an order. -/
def orders : List CondOp :=
  [lt, gt, le, ge]

theorem apply_of_mem_orders (hop : op ∈ orders) : op.apply l r = op.order l r := by
  simp only [orders, List.mem_cons, List.not_mem_nil, or_false] at hop
  rcases hop with rfl | rfl | rfl | rfl <;> rfl

theorem order_eq_ok (op : CondOp) (h : l.value.ordering? r.value = some order) :
    op.order l r = .ok (.bool (op.holds order)) := by
  rw [CondOp.order, h]

theorem order_succeeds_iff :
    (∃ v, op.order l r = .ok v) ↔ l.value.Comparable r.value := by
  rw [← Value.ordering?_isSome, CondOp.order]
  cases l.value.ordering? r.value <;> simp

theorem lt_holds_iff : CondOp.lt.apply l r = .ok (.bool true) ↔
    l.value.ordering? r.value = some (some .lt) := by
  rw [apply_of_mem_orders (by simp [orders]), CondOp.order]
  rcases l.value.ordering? r.value with _ | _ | (_ | _ | _) <;> simp [holds, TypedValue.bool]

end CondOp

/-- Comparisons succeed together, on two numbers or two strings; then exactly one of `l < r`,
`l == r` and `l > r` holds unless an operand is not a number, the other operators follow from these
three, and operands may be exchanged.  The order is transitive. -/
theorem comparisons_agree (l r t : TypedValue) :
    (∀ op ∈ CondOp.orders, (∃ v, op.apply l r = .ok v) ↔ l.value.Comparable r.value) ∧
    (l.value.Comparable r.value → ∃ less same more : Bool,
      CondOp.lt.apply l r = .ok (.bool less) ∧ CondOp.gt.apply r l = .ok (.bool less) ∧
      CondOp.gt.apply l r = .ok (.bool more) ∧ CondOp.lt.apply r l = .ok (.bool more) ∧
      CondOp.eq.apply l r = .ok (.bool same) ∧ CondOp.ne.apply l r = .ok (.bool !same) ∧
      CondOp.le.apply l r = .ok (.bool (less || same)) ∧
      CondOp.ge.apply l r = .ok (.bool (more || same)) ∧
      less.toNat + same.toNat + more.toNat = if l.value.isNaN ∨ r.value.isNaN then 0 else 1) ∧
    (CondOp.lt.apply l r = .ok (.bool true) → CondOp.lt.apply r t = .ok (.bool true) →
      CondOp.lt.apply l t = .ok (.bool true)) := by
  refine ⟨fun op hop => ?_, fun hcomparable => ?_, fun hlr hrt => ?_⟩
  · rw [CondOp.apply_of_mem_orders hop]
    exact CondOp.order_succeeds_iff
  · obtain ⟨order, horder⟩ := Option.isSome_iff_exists.1 ((Value.ordering?_isSome ..).2 hcomparable)
    have hswap := Value.ordering?_swap horder
    have hsame := Value.same_eq horder
    have hnan := Value.unordered_iff horder
    refine ⟨order == some .lt, order == some .eq, order == some .gt, ?_⟩
    simp only [CondOp.apply, CondOp.order_eq_ok _ horder, CondOp.order_eq_ok _ hswap, hsame, ← hnan]
    rcases order with _ | (_ | _ | _) <;> simp [CondOp.holds]
  · rw [CondOp.lt_holds_iff] at *
    exact Value.precedes_trans hlr hrt

namespace Neighbours

/-- The first integer that no float is exactly. -/
def odd : TypedValue :=
  ⟨.number, .int 9007199254740993⟩

/-- The integer below it. -/
def even : TypedValue :=
  ⟨.number, .int 9007199254740992⟩

/-- The float that both are rounded to. -/
def rounded : TypedValue :=
  ⟨.number, .float 9007199254740992.0⟩

/-- The float behind that one. -/
def next : TypedValue :=
  ⟨.number, .float 9007199254740994.0⟩

end Neighbours

open Neighbours in
/-- The order leads on from two integers that have one float to the next float. -/
theorem comparisons_agree_rounded :
    CondOp.le ∈ CondOp.orders ∧ (∃ v, CondOp.le.apply even odd = .ok v) ∧
      even.value.Comparable odd.value ∧
      CondOp.lt.apply even odd = .ok (.bool true) ∧ CondOp.lt.apply odd next = .ok (.bool true) ∧
      CondOp.lt.apply even next = .ok (.bool true) := by
  have hmem : CondOp.le ∈ CondOp.orders := by decide
  have hcomparable : even.value.Comparable odd.value := .inl ⟨rfl, rfl⟩
  have heven : CondOp.lt.apply even odd = .ok (.bool true) := by decide +kernel
  have hodd : CondOp.lt.apply odd next = .ok (.bool true) := by decide +kernel
  obtain ⟨hsucceeds, -, htrans⟩ := comparisons_agree even odd next
  exact ⟨hmem, (hsucceeds _ hmem).2 hcomparable, hcomparable, heven, hodd, htrans heven hodd⟩

theorem CondOp.eq_holds_iff {a b : TypedValue} :
    CondOp.eq.apply a b = .ok (.bool true) ↔ a.value.same b.value := by
  simp [CondOp.apply, TypedValue.bool]

/-- Of three values, each equal to the next, the outer two are equal unless they are different
integers and the middle one is a float.  Two integers equal to one value are equal to each other if
one of them is below 2⁵³. -/
theorem equality_transitive_iff {a b c : TypedValue}
    (hab : CondOp.eq.apply a b = .ok (.bool true)) (hbc : CondOp.eq.apply b c = .ok (.bool true)) :
    (CondOp.eq.apply a c = .ok (.bool true) ↔ ¬ a.value.Blurred b.value c.value) ∧
      ∀ m n, a.value = .int m → c.value = .int n →
        |m.toInt| < 2 ^ 53 ∨ |n.toInt| < 2 ^ 53 → m = n := by
  rw [CondOp.eq_holds_iff] at *
  refine ⟨Value.same_trans_iff hab hbc, fun m n hm hn hshort => ?_⟩
  rw [hm] at hab
  rw [hn] at hbc
  rcases hshort with hshort | hshort
  · exact Value.eq_of_same_int hab hbc hshort
  · rw [Value.same_comm] at hab hbc
    exact (Value.eq_of_same_int hbc hab hshort).symm

open Neighbours in
/-- Equality is not transitive. -/
theorem equality_transitive_iff_rounded :
    CondOp.eq.apply odd rounded = .ok (.bool true) ∧
      CondOp.eq.apply rounded even = .ok (.bool true) ∧
      CondOp.eq.apply odd even = .ok (.bool false) ∧
      odd.value.Blurred rounded.value even.value := by
  have hodd : CondOp.eq.apply odd rounded = .ok (.bool true) := by decide +kernel
  have heven : CondOp.eq.apply rounded even = .ok (.bool true) := by decide +kernel
  have hends : CondOp.eq.apply odd even = .ok (.bool false) := by decide +kernel
  refine ⟨hodd, heven, hends, ?_⟩
  by_contra hclear
  have hsame := (equality_transitive_iff hodd heven).1.2 hclear
  rw [hends] at hsame
  cases hsame

end Tremolo
