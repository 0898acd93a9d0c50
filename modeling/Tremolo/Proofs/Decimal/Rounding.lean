import Mathlib
import Tremolo.Decimal.Basic
import Tremolo.Proofs.Decimal.Order

/-! # Integers rounded to floats

The float nearest to an integer is found by shifting bits out of the mantissa and rounding, ties to even
(`halfEven`), and by one more shift when rounding has made the mantissa too long (`carried`).  Read off the
parts of the float, this is a function of the integer alone (`nearest`), whichever way the conversion goes
(`unpack_ofNat`).

* `nearestRank_mono` — rounding keeps the order of integers;
* `nearestRank_injOn` — integers of at most 53 bits stay apart. -/

namespace Tremolo.Decimal

open Float.Model UnpackedFloat

/-! ## To the nearest, ties to even -/

/-- The natural number nearest to `m / 2 ^ k`; of two, the even one. -/
def halfEven (m k : ℕ) : ℕ :=
  if 2 * (m % 2 ^ k) < 2 ^ k then m / 2 ^ k
  else if 2 * (m % 2 ^ k) = 2 ^ k then m / 2 ^ k + m / 2 ^ k % 2
  else m / 2 ^ k + 1

theorem halfEven_bounds (m k : ℕ) : m / 2 ^ k ≤ halfEven m k ∧ halfEven m k ≤ m / 2 ^ k + 1 := by
  unfold halfEven
  split_ifs <;> omega

theorem halfEven_mul (a k : ℕ) : halfEven (a * 2 ^ k) k = a := by
  simp [halfEven]

theorem halfEven_zero (m : ℕ) : halfEven m 0 = m := by
  simpa using halfEven_mul m 0

theorem halfEven_mono {m n : ℕ} (h : m ≤ n) (k : ℕ) : halfEven m k ≤ halfEven n k := by
  rcases (Nat.div_le_div_right (c := 2 ^ k) h).lt_or_eq with hlt | heq
  · exact (halfEven_bounds m k).2.trans (Nat.succ_le_of_lt hlt |>.trans (halfEven_bounds n k).1)
  · -- The quotients agree, so the remainders are ordered as the numbers are.
    have hmod : m % 2 ^ k ≤ n % 2 ^ k := by
      have hm := Nat.div_add_mod m (2 ^ k)
      have hn := Nat.div_add_mod n (2 ^ k)
      rw [heq] at hm
      omega
    unfold halfEven
    rw [heq]
    split_ifs <;> omega

/-- What is left of a mantissa after `k` of its bits have been shifted out: the rest, the last bit that
    went, and whether there was a bit set among those before. -/
theorem shiftRight_exact (m k : ℕ) :
    ExtendedMantissa.ofMantissaAndAccuracy m .exact >>> k =
      ⟨m / 2 ^ k, decide (2 ^ k ≤ 2 * (m % 2 ^ k)),
        decide (2 * (m % 2 ^ k) ≠ 0 ∧ 2 * (m % 2 ^ k) ≠ 2 ^ k)⟩ := by
  change Nat.repeat ExtendedMantissa.shiftRightOne k _ = _
  induction k with
  | zero => simp [Nat.repeat, ExtendedMantissa.ofMantissaAndAccuracy, Nat.mod_one]
  | succ k ih =>
    have hpos : 0 < 2 ^ k := Nat.two_pow_pos k
    have hlt : m % 2 ^ k < 2 ^ k := Nat.mod_lt m hpos
    have hmod : m % 2 ^ (k + 1) = m % 2 ^ k + 2 ^ k * (m / 2 ^ k % 2) := by
      rw [pow_succ, Nat.mod_mul]
    rw [Nat.repeat, ih, ExtendedMantissa.shiftRightOne, hmod, pow_succ, ← Nat.div_div_eq_div_mul]
    rcases Nat.mod_two_eq_zero_or_one (m / 2 ^ k) with hbit | hbit
    all_goals
      simp only [hbit, ExtendedMantissa.mk.injEq, true_and]
      constructor
      · grind
      · grind

theorem roundedMantissa_shiftRight (m k : ℕ) :
    (ExtendedMantissa.ofMantissaAndAccuracy m .exact >>> k).roundedMantissa = halfEven m k := by
  have hpos : 0 < 2 ^ k := Nat.two_pow_pos k
  rw [shiftRight_exact, halfEven]
  rcases lt_trichotomy (2 * (m % 2 ^ k)) (2 ^ k) with h | h | h
  · rw [if_pos h, decide_eq_false (by omega)]
    cases decide (2 * (m % 2 ^ k) ≠ 0 ∧ 2 * (m % 2 ^ k) ≠ 2 ^ k) <;> rfl
  · rw [if_neg (by omega), if_pos h, decide_eq_true (by omega), decide_eq_false (by omega)]
    rfl
  · rw [if_neg (by omega), if_neg (by omega), decide_eq_true (by omega), decide_eq_true (by omega)]
    rfl

/-! ## Mantissas of 53 bits -/

/-- The float with a mantissa and an exponent. -/
def assembled (s : Sign) (m : ℕ) (e : ℤ) : UnpackedFloat :=
  if h : m = 0 then .zero s else .finite s m e (Nat.pos_of_ne_zero h)

/-- A rounded mantissa and its exponent, halved once more if rounding has made the mantissa too long. -/
def carried (m : ℕ) (e : ℤ) : ℕ × ℤ :=
  if m < 2 ^ 53 then (m, e) else (2 ^ 52, e + 1)

/-- The mantissa is as long as it can be, and the exponent is one of a finite float. -/
structure Normal (m : ℕ) (e : ℤ) : Prop where
  long : 2 ^ 52 ≤ m
  short : m < 2 ^ 53
  low : -1074 ≤ e
  high : e ≤ 971

theorem log2_of_long {m : ℕ} (hlong : 2 ^ 52 ≤ m) (hshort : m < 2 ^ 53) : m.log2 = 52 :=
  (Nat.log2_eq_iff (by omega)).2 ⟨hlong, hshort⟩

theorem targetExponent_eq (m : ℕ) (e : ℤ) :
    Format.binary64.targetExponent (totalExponent m e) = max (m.log2 + e - 52) (-1074) := by
  have h : Format.binary64.targetExponent (totalExponent m e) =
      max (m.log2 + 1 + e - (53 : ℕ)) (-1074) := rfl
  rw [h]
  congr 1
  push_cast
  omega

theorem shiftToTargetExponent_eq {m k : ℕ} {e : ℤ} (hk : max (m.log2 + e - 52) (-1074) - e = k) :
    shiftToTargetExponent .binary64 m e .exact =
      (ExtendedMantissa.ofMantissaAndAccuracy m .exact >>> k, e + k) := by
  simp [shiftToTargetExponent, shiftToExponent, targetExponent_eq, hk]

theorem halfEven_long {m k : ℕ} (hm : m ≠ 0) (hk : m.log2 = 52 + k) :
    2 ^ 52 ≤ halfEven m k ∧ halfEven m k ≤ 2 ^ 53 := by
  have hpos : 0 < 2 ^ k := Nat.two_pow_pos k
  have hlow : 2 ^ 52 ≤ m / 2 ^ k := by
    rw [Nat.le_div_iff_mul_le hpos, ← pow_add, ← hk]
    exact Nat.log2_self_le hm
  have hhigh : m / 2 ^ k < 2 ^ 53 := by
    rw [Nat.div_lt_iff_lt_mul hpos, ← pow_add, show 53 + k = m.log2 + 1 by omega]
    exact Nat.lt_log2_self
  have hbounds := halfEven_bounds m k
  omega

/-- The last step of rounding shortens a mantissa that has become too long. -/
theorem carried_eq {m : ℕ} {e : ℤ} (hlong : 2 ^ 52 ≤ m) (hshort : m ≤ 2 ^ 53) (he : -1074 ≤ e) :
    (shiftToTargetExponent .binary64 m e .exact).1.mantissa = (carried m e).1 ∧
      (shiftToTargetExponent .binary64 m e .exact).2 = (carried m e).2 := by
  rcases hshort.lt_or_eq with hlt | rfl
  · have hlog := log2_of_long hlong hlt
    rw [shiftToTargetExponent_eq (k := 0) (by omega), shiftRight_exact]
    rw [carried, if_pos hlt]
    simp
  · have hlog : (2 ^ 53 : ℕ).log2 = 53 := Nat.log2_two_pow
    rw [shiftToTargetExponent_eq (k := 1) (by omega), shiftRight_exact]
    simp [carried]

theorem roundWithAccuracy_assembled (s : Sign) (m : ℕ) (e : ℤ) :
    let first := shiftToTargetExponent .binary64 m e .exact
    let last := shiftToTargetExponent .binary64 first.1.roundedMantissa first.2 .exact
    roundWithAccuracy .binary64 s m e .exact = assembled s last.1.mantissa last.2 :=
  rfl

/-- Rounding to a float, when no bits are missing at the end of the mantissa. -/
theorem roundWithAccuracy_eq (s : Sign) {m k : ℕ} {e : ℤ} (hm : m ≠ 0) (hk : m.log2 = 52 + k)
    (he : -1074 ≤ e + k) : roundWithAccuracy .binary64 s m e .exact =
      assembled s (carried (halfEven m k) (e + k)).1 (carried (halfEven m k) (e + k)).2 := by
  have hfirst := shiftToTargetExponent_eq (m := m) (k := k) (e := e) (by omega)
  obtain ⟨hlong, hshort⟩ := halfEven_long hm hk
  obtain ⟨hmantissa, hexponent⟩ := carried_eq hlong hshort he
  rw [roundWithAccuracy_assembled, hfirst, roundedMantissa_shiftRight, hmantissa, hexponent]

/-- A leading bit before a mantissa. -/
theorem toNat_one_append {w : ℕ} (v : BitVec w) : (1#1 ++ v).toNat = 2 ^ w + v.toNat := by
  rw [BitVec.toNat_append, ← Nat.shiftLeft_add_eq_or_of_lt v.isLt]
  simp [Nat.shiftLeft_eq]

/-- A normal float is kept as it is. -/
theorem unpack_pack {s : Sign} {m : ℕ} {e : ℤ} (h : Normal m e) :
    (Float.Model.pack (assembled s m e)).unpack = assembled s m e := by
  obtain ⟨hlong, hshort, hlow, hhigh⟩ := h
  have hm : m ≠ 0 := by omega
  have hlog := log2_of_long hlong hshort
  have hbias : (e + (Format.binary64.exponentBias : ℕ) + (52 : ℕ)).toNat = (e + 1075).toNat := by
    change (e + (1023 : ℕ) + (52 : ℕ)).toNat = _
    omega
  -- The stored exponent is neither of the two that stand for special floats.
  have hexponent : (BitVec.ofNat 11 (e + 1075).toNat).toNat = (e + 1075).toNat := by
    rw [BitVec.toNat_ofNat]
    omega
  have htop : BitVec.ofNat 11 (e + 1075).toNat ≠ -1#11 := by
    rw [ne_eq, ← BitVec.toNat_inj, hexponent]
    simp
    omega
  have hbottom : BitVec.ofNat 11 (e + 1075).toNat ≠ 0#11 := by
    rw [ne_eq, ← BitVec.toNat_inj, hexponent]
    simp
    omega
  have hmantissa : (1#1 ++ BitVec.ofNat 52 m).toNat = m := by
    rw [toNat_one_append, BitVec.toNat_ofNat]
    omega
  have hpack : UnpackedFloat.pack .binary64 (assembled s m e) =
      packComponents .binary64 s (BitVec.ofNat 11 (e + 1075).toNat) (BitVec.ofNat 52 m) := by
    rw [assembled, dif_neg hm, UnpackedFloat.pack]
    simp only [hlog]
    rw [hbias, if_neg (by omega)]
    exact if_pos rfl
  change UnpackedFloat.unpack .binary64 (UnpackedFloat.pack .binary64 (assembled s m e)) = _
  rw [hpack, UnpackedFloat.unpack]
  simp only [unpackMantissa_packComponents, unpackExponent_packComponents, unpackSign_packComponents,
    Sign.ofBitVec_toBitVec]
  rw [if_neg htop, if_neg hbottom, assembled, dif_neg hm]
  simp only [hmantissa, hexponent, finite.injEq, true_and]
  change ((e + 1075).toNat : ℤ) - ((1023 : ℕ) + (52 : ℕ)) = e
  omega

/-! ## Integers as floats -/

/-- The mantissa and the exponent of the float nearest to a positive number. -/
def nearest (n : ℕ) : ℕ × ℤ :=
  carried (halfEven (n * 2 ^ 53) (n.log2 + 1)) (n.log2 - 52)

/-- The exponent is one higher if rounding has reached the next power of two. -/
theorem nearest_exponent (n : ℕ) : (nearest n).2 = n.log2 - 52 ∨
    (nearest n).2 = n.log2 - 52 + 1 ∧ (nearest n).1 = 2 ^ 52 := by
  unfold nearest carried
  split
  · exact .inl rfl
  · exact .inr ⟨rfl, rfl⟩

theorem log2_mul_two_pow {n : ℕ} (hn : n ≠ 0) (k : ℕ) : (n * 2 ^ k).log2 = n.log2 + k := by
  have hpos : n * 2 ^ k ≠ 0 := Nat.mul_ne_zero hn (Nat.two_pow_pos k).ne'
  rw [Nat.log2_eq_iff hpos, pow_add, show n.log2 + k + 1 = n.log2 + 1 + k by omega, pow_add]
  exact ⟨Nat.mul_le_mul_right _ (Nat.log2_self_le hn),
    Nat.mul_lt_mul_of_pos_right Nat.lt_log2_self (Nat.two_pow_pos k)⟩

/-- A number of at most 53 bits, filled up with zeros. -/
theorem filled_bounds {n : ℕ} (hn : n ≠ 0) (hlog : n.log2 ≤ 52) :
    2 ^ 52 ≤ n * 2 ^ (52 - n.log2) ∧ n * 2 ^ (52 - n.log2) < 2 ^ 53 := by
  have hne : n * 2 ^ (52 - n.log2) ≠ 0 := Nat.mul_ne_zero hn (Nat.two_pow_pos _).ne'
  have hfull : (n * 2 ^ (52 - n.log2)).log2 = 52 := by
    rw [log2_mul_two_pow hn]
    omega
  exact (Nat.log2_eq_iff hne).1 hfull

/-- A number of at most 53 bits is not rounded. -/
theorem nearest_of_short {n : ℕ} (hn : n ≠ 0) (hlog : n.log2 ≤ 52) :
    nearest n = (n * 2 ^ (52 - n.log2), (n.log2 : ℤ) - 52) := by
  have hsplit : n * 2 ^ 53 = n * 2 ^ (52 - n.log2) * 2 ^ (n.log2 + 1) := by
    rw [mul_assoc, ← pow_add]
    congr 2
    omega
  rw [nearest, hsplit, halfEven_mul, carried, if_pos (filled_bounds hn hlog).2]

theorem log2_widened {n : ℕ} (hn : n ≠ 0) : (n * 2 ^ 53).log2 = 52 + (n.log2 + 1) := by
  rw [log2_mul_two_pow hn]
  omega

theorem nearest_bounds {n : ℕ} (hn : n ≠ 0) : 2 ^ 52 ≤ (nearest n).1 ∧ (nearest n).1 < 2 ^ 53 := by
  have hlong := (halfEven_long (Nat.mul_ne_zero hn (by norm_num)) (log2_widened hn)).1
  unfold nearest carried
  split
  · exact ⟨hlong, by assumption⟩
  · norm_num

theorem nearest_normal {n : ℕ} (hn : n ≠ 0) (hrange : n.log2 ≤ 1022) :
    Normal (nearest n).1 (nearest n).2 := by
  obtain ⟨hlong, hshort⟩ := nearest_bounds hn
  have hexponent := nearest_exponent n
  exact ⟨hlong, hshort, by omega, by omega⟩

/-- A short number is only shifted. -/
theorem round_short {n : ℕ} (hn : n ≠ 0) (hlog : n.log2 ≤ 52) :
    UnpackedFloat.round .binary64 .positive n 0 = assembled .positive (nearest n).1 (nearest n).2 := by
  obtain ⟨hlong, hshort⟩ := filled_bounds hn hlog
  have hshift : (0 - max ((n.log2 : ℤ) + 0 - 52) (-1074)).toNat = 52 - n.log2 := by omega
  change roundWithAccuracy .binary64 .positive
    (n <<< (0 - Format.binary64.targetExponent (totalExponent n 0)).toNat)
    (0 - ((0 - Format.binary64.targetExponent (totalExponent n 0)).toNat : ℤ)) .exact = _
  rw [targetExponent_eq, hshift, Nat.shiftLeft_eq,
    roundWithAccuracy_eq .positive (k := 0) (by omega) (log2_of_long hlong hshort) (by omega),
    halfEven_zero, carried, if_pos hshort, nearest_of_short hn hlog]
  congr 1
  push_cast
  omega

theorem unpack_ofUInt64 {n : ℕ} (hn : n ≠ 0) (hlog : n.log2 ≤ 52) :
    n.toUInt64.toFloat.toModel.unpack = assembled .positive (nearest n).1 (nearest n).2 := by
  have hword : n.toUInt64.toNat = n := by
    have hlt : n < 2 ^ 53 := (Nat.log2_lt hn).1 (by omega)
    exact Nat.mod_eq_of_lt (by omega)
  have hround : UnpackedFloat.ofNat .binary64 n = UnpackedFloat.round .binary64 .positive n 0 := by
    have hpos : compare (n : ℤ) 0 = .gt := compare_gt_iff_gt.2 (by omega)
    rw [UnpackedFloat.ofNat, UnpackedFloat.ofInt, UnpackedFloat.normalize, hpos]
    rfl
  change (Float.Model.pack (UnpackedFloat.ofNat .binary64 n.toUInt64.toNat)).unpack = _
  rw [hword, hround, round_short hn hlog, unpack_pack (nearest_normal hn (by omega))]

theorem unpack_mul (x y : Float) : (x * y).toModel.unpack =
    (Float.Model.pack (UnpackedFloat.mul .binary64 x.toModel.unpack y.toModel.unpack)).unpack :=
  rfl

theorem mul_assembled {s t : Sign} {m n : ℕ} {e f : ℤ} (hm : m ≠ 0) (hn : n ≠ 0) :
    UnpackedFloat.mul .binary64 (assembled s m e) (assembled t n f) =
      roundWithAccuracy .binary64 (s * t) (m * n) (e + f) .exact := by
  rw [assembled, dif_neg hm, assembled, dif_neg hn]
  rfl

/-- Multiplying by one changes nothing. -/
theorem mul_one_assembled {m : ℕ} {e : ℤ} (h : Normal m e) (he : -1074 + 52 ≤ e) :
    UnpackedFloat.mul .binary64 (assembled .positive m e) (assembled .positive (2 ^ 52) (-52)) =
      assembled .positive m e := by
  have hm : m ≠ 0 := by
    have := h.long
    omega
  have hlog : (m * 2 ^ 52).log2 = 52 + 52 := by
    rw [log2_mul_two_pow hm, log2_of_long h.long h.short]
  rw [mul_assembled hm (by norm_num), roundWithAccuracy_eq _ (Nat.mul_ne_zero hm (by norm_num)) hlog
    (by omega), halfEven_mul, carried, if_pos h.short]
  congr 1
  push_cast
  omega

theorem unpack_ofNat {n : ℕ} (hn : n ≠ 0) (hrange : n.log2 ≤ 1022) :
    (Float.ofNat n).toModel.unpack = assembled .positive (nearest n).1 (nearest n).2 := by
  have hnormal := nearest_normal hn hrange
  by_cases hshort : n < 2 ^ 53
  · have hlog : n.log2 ≤ 52 := Nat.le_of_lt_succ ((Nat.log2_lt hn).2 hshort)
    have hfast : Float.ofNat n = n.toUInt64.toFloat * Float.ofBits 0x3FF0000000000000 := by
      change Float.ofScientific n false 0 = _
      rw [Float.ofScientific, dif_pos ⟨hshort, by norm_num⟩]
      rfl
    have hone : (Float.ofBits 0x3FF0000000000000).toModel.unpack =
        assembled .positive (2 ^ 52) (-52) := rfl
    have hexponent : -1074 + 52 ≤ (nearest n).2 := by
      rw [nearest_of_short hn hlog]
      simp only
      omega
    rw [hfast, unpack_mul, unpack_ofUInt64 hn hlog, hone, mul_one_assembled hnormal hexponent,
      unpack_pack hnormal]
  · have hslow : Float.ofNat n = ⟨Float.Model.ofScientific n 0⟩ := by
      change Float.ofScientific n false 0 = _
      rw [Float.ofScientific, dif_neg fun h => hshort h.1]
      rfl
    have hexact : UnpackedFloat.ofScientific .binary64 n 0 =
        roundWithAccuracy .binary64 .positive (n * 2 ^ 53) (-53) .exact := by
      have hsmall : ¬ (0 : ℤ) < -((2 ^ 11 : ℤ) + n.log2) := by omega
      rw [UnpackedFloat.ofScientific, dif_neg hn, if_neg (by norm_num), if_neg hsmall, if_pos le_rfl,
        ← Nat.shiftLeft_eq, ← Nat.mul_one (n <<< 53)]
      rfl
    have hround := roundWithAccuracy_eq .positive (e := -53) (Nat.mul_ne_zero hn (by norm_num))
      (log2_widened hn) (by omega)
    have hexponent : (-53 : ℤ) + (n.log2 + 1 : ℕ) = n.log2 - 52 := by omega
    rw [hexponent] at hround
    rw [hslow]
    change (Float.Model.pack (UnpackedFloat.ofScientific .binary64 n 0)).unpack = _
    rw [hexact, hround]
    exact unpack_pack hnormal

/-! ## Their order -/

theorem carried_le {m n : ℕ} (h : m ≤ n) (e : ℤ) : (carried m e).2 < (carried n e).2 ∨
    (carried m e).2 = (carried n e).2 ∧ (carried m e).1 ≤ (carried n e).1 := by
  unfold carried
  split_ifs with hm hn
  · exact .inr ⟨rfl, h⟩
  · exact .inl (lt_add_one e)
  · omega
  · exact .inr ⟨rfl, le_rfl⟩

theorem log2_le_log2 {m n : ℕ} (hm : m ≠ 0) (h : m ≤ n) : m.log2 ≤ n.log2 :=
  (Nat.le_log2 (by omega)).2 ((Nat.log2_self_le hm).trans h)

/-- Rounding keeps the order, also from one length of the mantissa to the next. -/
theorem nearest_le {m n : ℕ} (hm : m ≠ 0) (h : m ≤ n) :
    (nearest m).2 < (nearest n).2 ∨
      (nearest m).2 = (nearest n).2 ∧ (nearest m).1 ≤ (nearest n).1 := by
  rcases (log2_le_log2 hm h).lt_or_eq with hlt | heq
  · -- The shorter number reaches at most the first mantissa of the next length.
    have hlong := (nearest_bounds (n := n) (by omega)).1
    have hsmall := nearest_exponent m
    have hlarge := nearest_exponent n
    omega
  · have hmul : m * 2 ^ 53 ≤ n * 2 ^ 53 := Nat.mul_le_mul_right _ h
    unfold nearest
    rw [heq]
    exact carried_le (halfEven_mono hmul _) _

/-- Numbers of at most 53 bits stay apart. -/
theorem nearest_lt {m n : ℕ} (hm : m ≠ 0) (h : m < n) (hshort : n ≤ 2 ^ 53) :
    (nearest m).2 < (nearest n).2 ∨
      (nearest m).2 = (nearest n).2 ∧ (nearest m).1 < (nearest n).1 := by
  have hlog : m.log2 ≤ 52 := Nat.le_of_lt_succ ((Nat.log2_lt hm).2 (by omega))
  rw [nearest_of_short hm hlog]
  rcases (log2_le_log2 hm h.le).lt_or_eq with hlt | heq
  · have hlarge := nearest_exponent n
    omega
  · rw [nearest_of_short (by omega) (heq ▸ hlog), ← heq]
    exact .inr ⟨rfl, Nat.mul_lt_mul_of_pos_right h (Nat.two_pow_pos _)⟩

theorem nearest_ne_zero {n : ℕ} (hn : n ≠ 0) : (nearest n).1 ≠ 0 := by
  have hlong := (nearest_bounds hn).1
  omega

theorem rank?_ofNat {n : ℕ} (hn : n ≠ 0) (hrange : n.log2 ≤ 1022) :
    rank? (Float.ofNat n) = some (.of 1 (nearest n).2 (nearest n).1) := by
  rw [rank?, unpack_ofNat hn hrange, assembled, dif_neg (nearest_ne_zero hn), rankOf]

theorem rank?_neg_ofNat {n : ℕ} (hn : n ≠ 0) (hrange : n.log2 ≤ 1022) :
    rank? (Float.ofNat n).neg = some (.of (-1) (-(nearest n).2) (-(nearest n).1)) := by
  have hm := nearest_ne_zero hn
  have hneg : (assembled .positive (nearest n).1 (nearest n).2).neg =
      assembled .negative (nearest n).1 (nearest n).2 := by
    rw [assembled, dif_neg hm, assembled, dif_neg hm]
    rfl
  have hunpack : (Float.ofNat n).neg.toModel.unpack =
      (Float.Model.pack (Float.ofNat n).toModel.unpack.neg).unpack := rfl
  rw [rank?, hunpack, unpack_ofNat hn hrange, hneg, unpack_pack (nearest_normal hn hrange), assembled,
    dif_neg hm, rankOf]

/-- The rank of the float nearest to an integer. -/
def nearestRank : ℤ → Rank
  | .ofNat 0 => .of 0 0 0
  | .ofNat (n + 1) => .of 1 (nearest (n + 1)).2 (nearest (n + 1)).1
  | .negSucc n => .of (-1) (-(nearest (n + 1)).2) (-(nearest (n + 1)).1)

/-- The float nearest to an integer is a number. -/
theorem rank?_floatOfInt (n : Int64) : rank? (floatOfInt n) = some (nearestRank n.toInt) := by
  have hrange : n.toInt.natAbs.log2 ≤ 1022 := by
    have hlow := n.le_toInt
    have hhigh := n.toInt_lt
    by_cases hzero : n.toInt.natAbs = 0
    · simp [hzero]
    · have hlt : n.toInt.natAbs.log2 < 64 := (Nat.log2_lt hzero).2 (by omega)
      omega
  unfold floatOfInt
  generalize n.toInt = k at hrange
  rcases k with (_ | k) | k
  · rfl
  · exact rank?_ofNat (Nat.succ_ne_zero k) hrange
  · exact rank?_neg_ofNat (Nat.succ_ne_zero k) hrange

/-- Conversion keeps the order. -/
theorem nearestRank_mono : Monotone nearestRank := by
  apply monotone_int_of_le_succ
  intro n
  rcases n with (_ | n) | (_ | n)
  · exact Rank.of_le.2 (.inl zero_lt_one)
  · have hle := nearest_le (Nat.succ_ne_zero n) (Nat.le_succ (n + 1))
    exact Rank.of_le.2 (.inr ⟨rfl, by simp only [Nat.cast_le]; exact hle⟩)
  · exact Rank.of_le.2 (.inl (by norm_num))
  · have hle := nearest_le (Nat.succ_ne_zero n) (Nat.le_succ (n + 1))
    exact Rank.of_le.2 (.inr ⟨rfl, by
      simp only [neg_lt_neg_iff, neg_inj, neg_le_neg_iff, Nat.cast_le, eq_comm]; exact hle⟩)

theorem nearest_inj {m n : ℕ} (hm : m ≠ 0) (hn : n ≠ 0) (hshort : m ≤ 2 ^ 53) (hshort' : n ≤ 2 ^ 53)
    (h : nearest m = nearest n) : m = n := by
  rcases lt_trichotomy m n with hlt | heq | hgt
  · have := nearest_lt hm hlt hshort'
    rw [h] at this
    omega
  · exact heq
  · have := nearest_lt hn hgt hshort
    rw [h] at this
    omega

/-- Conversion is exact as long as 53 bits are enough. -/
theorem nearestRank_injOn : Set.InjOn nearestRank (Set.Icc (-2 ^ 53) (2 ^ 53)) := by
  rintro ((_ | m) | m) ⟨hlow, hhigh⟩ ((_ | n) | n) ⟨hlow', hhigh'⟩ h <;>
    obtain ⟨htier, hexponent, hmantissa⟩ := Rank.of_inj.1 h
  case ofNat.zero.ofNat.zero => rfl
  case ofNat.succ.ofNat.succ =>
    have hm : ((m + 1 : ℕ) : ℤ) ≤ 2 ^ 53 := hhigh
    have hn : ((n + 1 : ℕ) : ℤ) ≤ 2 ^ 53 := hhigh'
    have hsame : nearest (m + 1) = nearest (n + 1) := Prod.ext (Int.ofNat.inj hmantissa) hexponent
    have heq := nearest_inj (Nat.succ_ne_zero m) (Nat.succ_ne_zero n) (by omega) (by omega) hsame
    exact congrArg Int.ofNat heq
  case negSucc.negSucc =>
    have hsame : nearest (m + 1) = nearest (n + 1) :=
      Prod.ext (Int.ofNat.inj (neg_inj.1 hmantissa)) (neg_inj.1 hexponent)
    rw [Int.negSucc_eq] at hlow hlow'
    have heq := nearest_inj (Nat.succ_ne_zero m) (Nat.succ_ne_zero n) (by omega) (by omega) hsame
    exact congrArg Int.negSucc (Nat.succ_inj.1 heq)
  all_goals exact absurd htier (by norm_num)

/-- An integer below 2⁵³ shares its float with no other integer. -/
theorem eq_of_nearestRank_eq {m n : ℤ} (h : nearestRank m = nearestRank n) (hshort : |m| < 2 ^ 53) :
    m = n := by
  obtain ⟨hlow, hhigh⟩ := abs_lt.1 hshort
  rcases lt_trichotomy m n with hlt | heq | hgt
  -- What lies between `m` and `n` has the same float, and the next integer is still exact.
  · have hnext : nearestRank m = nearestRank (m + 1) :=
      le_antisymm (nearestRank_mono (by omega)) (h ▸ nearestRank_mono (by omega))
    have := nearestRank_injOn ⟨by omega, by omega⟩ ⟨by omega, by omega⟩ hnext
    omega
  · exact heq
  · have hnext : nearestRank (m - 1) = nearestRank m :=
      le_antisymm (nearestRank_mono (by omega)) (h ▸ nearestRank_mono (by omega))
    have := nearestRank_injOn ⟨by omega, by omega⟩ ⟨by omega, by omega⟩ hnext
    omega

end Tremolo.Decimal
