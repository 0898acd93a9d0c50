import Mathlib

/-! # The order of floats

A float that is a number has a rank among the others: first comes its sign, with the infinities outermost,
then its exponent, then its mantissa.  Ranks are ordered linearly, and floats are compared as their ranks
are (`compare_eq_compare`).  Both zeros have the same rank, and what is not a number has none. -/

namespace Tremolo.Decimal

open Float.Model

/-- A place in the order of floats. -/
def Rank : Type :=
  ℤ ×ₗ ℤ ×ₗ ℤ

instance : LinearOrder Rank :=
  inferInstanceAs (LinearOrder (ℤ ×ₗ ℤ ×ₗ ℤ))

/-- The rank with the given parts, the most important first. -/
def Rank.of (tier exponent mantissa : ℤ) : Rank :=
  toLex (tier, toLex (exponent, mantissa))

/-- The rank of a float that is a number. -/
def rankOf : UnpackedFloat → Option Rank
  | .notANumber => none
  | .infinity .negative => some (.of (-2) 0 0)
  | .finite .negative m e _ => some (.of (-1) (-e) (-m))
  | .zero _ => some (.of 0 0 0)
  | .finite .positive m e _ => some (.of 1 e m)
  | .infinity .positive => some (.of 2 0 0)

/-- The rank of a float, if it is a number. -/
def rank? (x : Float) : Option Rank :=
  rankOf x.toModel.unpack

theorem Rank.of_le {t e m t' e' m' : ℤ} :
    Rank.of t e m ≤ Rank.of t' e' m' ↔ t < t' ∨ t = t' ∧ (e < e' ∨ e = e' ∧ m ≤ m') := by
  change (toLex (t, toLex (e, m)) : ℤ ×ₗ ℤ ×ₗ ℤ) ≤ toLex (t', toLex (e', m')) ↔ _
  simp [Prod.Lex.toLex_le_toLex]

theorem Rank.of_inj {t e m t' e' m' : ℤ} :
    Rank.of t e m = Rank.of t' e' m' ↔ t = t' ∧ e = e' ∧ m = m' := by
  change (toLex (t, toLex (e, m)) : ℤ ×ₗ ℤ ×ₗ ℤ) = toLex (t', toLex (e', m')) ↔ _
  simp

/-- Ranks are compared part by part. -/
theorem Rank.compare_of (t e m t' e' m' : ℤ) :
    compare (Rank.of t e m) (Rank.of t' e' m') =
      (compare t t').then ((compare e e').then (compare m m')) :=
  rfl

theorem compare_natCast (m n : ℕ) : compare (m : ℤ) (n : ℤ) = compare m n := by
  rcases lt_trichotomy m n with h | rfl | h
  · rw [compare_lt_iff_lt.2 h, compare_lt_iff_lt.2 (Int.ofNat_lt.2 h)]
  · rw [compare_eq_iff_eq.2 rfl, compare_eq_iff_eq.2 rfl]
  · rw [compare_gt_iff_gt.2 h, compare_gt_iff_gt.2 (Int.ofNat_lt.2 h)]

theorem compare_neg_neg (a b : ℤ) : compare (-a) (-b) = (compare a b).swap := by
  rcases lt_trichotomy a b with h | rfl | h
  · rw [compare_lt_iff_lt.2 h, compare_gt_iff_gt.2 (Int.neg_lt_neg h)]
    rfl
  · rw [compare_eq_iff_eq.2 rfl, compare_eq_iff_eq.2 rfl]
    rfl
  · rw [compare_gt_iff_gt.2 h, compare_lt_iff_lt.2 (Int.neg_lt_neg h)]
    rfl

/-- Floats are compared as their ranks are. -/
theorem compare_eq_compare (a b : UnpackedFloat) :
    a.compare b = Option.map₂ compare (rankOf a) (rankOf b) := by
  rcases a with (_ | _) | _ | _ | ⟨_ | _, m, e, _⟩ <;>
    rcases b with (_ | _) | _ | _ | ⟨_ | _, m', e', _⟩
  case finite.negative.finite.negative =>
    simp only [UnpackedFloat.compare, rankOf, Option.map₂_some_some, Rank.compare_of, compare_neg_neg,
      compare_natCast, Ordering.swap_then]
    rfl
  case finite.positive.finite.positive =>
    simp only [UnpackedFloat.compare, rankOf, Option.map₂_some_some, Rank.compare_of, compare_natCast]
    rfl
  all_goals rfl

section Floats

variable {x y : Float}

theorem lt_iff : x < y ↔ Option.map₂ compare (rank? x) (rank? y) = some .lt := by
  rw [rank?, rank?, ← compare_eq_compare]
  exact decide_eq_true_iff.trans beq_iff_eq

theorem gt_iff : y < x ↔ Option.map₂ compare (rank? x) (rank? y) = some .gt := by
  rw [lt_iff]
  cases rank? x <;> cases rank? y <;> simp [compare_lt_iff_lt, compare_gt_iff_gt]

theorem beq_iff : x == y ↔ Option.map₂ compare (rank? x) (rank? y) = some .eq := by
  rw [rank?, rank?, ← compare_eq_compare]
  change (x.toModel.unpack.compare y.toModel.unpack == some .eq) = true ↔ _
  exact beq_iff_eq

/-- Two floats are equal if they have the same rank. -/
theorem beq_iff_rank? : x == y ↔ ∃ r, rank? x = some r ∧ rank? y = some r := by
  rw [beq_iff, Option.map₂_eq_some_iff]
  simp only [compare_eq_iff_eq]
  constructor
  · rintro ⟨r, _, hx, hy, rfl⟩
    exact ⟨r, hx, hy⟩
  · rintro ⟨r, hx, hy⟩
    exact ⟨r, r, hx, hy, rfl⟩

theorem rank?_eq_none : rank? x = none ↔ x.isNaN := by
  unfold rank? Float.isNaN Float.Model.isNaN
  rcases x.toModel.unpack with (_ | _) | _ | _ | ⟨_ | _, m, e, _⟩ <;> simp [rankOf, UnpackedFloat.isNaN]

end Floats

end Tremolo.Decimal
