import Mathlib
import Tremolo.Run.Eval

/-! # Integer arithmetic is exact or refused

An expression of integers, signs and the four operations has an exact value among the rational numbers,
unless something is divided by zero.  Evaluation gives this value as an integer as long as all values on
the way are integers of 64 bits.  Where one of them is not, the expression is refused, or a division has
left the integers for good.

* `Arithmetic` — these expressions, with their exact values (`Arithmetic.exactValue?`);
* `UnaryOp.apply_int`, `BinaryOp.applyInt_exact` — what one operation does with two integers;
* `Arithmetic.computes` — what evaluation does with the whole expression. -/

namespace Tremolo

/-! ## Exact values -/

/-- The exact value of a number with a sign. -/
def UnaryOp.exactValue : UnaryOp → ℚ → ℚ
  | .plus, a => a
  | .neg, a => -a

/-- The exact value of an operation; there is none for a division by zero. -/
def BinaryOp.exactValue? : BinaryOp → ℚ → ℚ → Option ℚ
  | .add, a, b => some (a + b)
  | .sub, a, b => some (a - b)
  | .mul, a, b => some (a * b)
  | .div, a, b => if b = 0 then none else some (a / b)

/-- Expressions of integers, signs and arithmetic operators. -/
inductive Arithmetic where
  | int (n : Int64)
  | unary (op : UnaryOp) (operand : Arithmetic)
  | binary (op : BinaryOp) (left right : Arithmetic)
deriving DecidableEq

namespace Arithmetic

/-- The expression that is evaluated. -/
def expr : Arithmetic → Expr
  | .int n => .int n
  | .unary op operand => .unary op operand.expr
  | .binary op left right => .binary op left.expr right.expr

/-- The exact value of the whole. -/
def exactValue? : Arithmetic → Option ℚ
  | .int n => some n.toInt
  | .unary op operand => operand.exactValue?.map op.exactValue
  | .binary op left right => left.exactValue?.bind fun a => right.exactValue?.bind fun b => op.exactValue? a b

/-- All subexpressions, the whole included. -/
def parts : Arithmetic → List Arithmetic
  | .int n => [.int n]
  | .unary op operand => .unary op operand :: operand.parts
  | .binary op left right => .binary op left right :: (left.parts ++ right.parts)

/-- Whether there is a division in it. -/
def divides : Arithmetic → Bool
  | .int _ => false
  | .unary _ operand => operand.divides
  | .binary op left right => op = .div || left.divides || right.divides

/-- How deep operators are nested, which is the fuel that evaluation needs. -/
def height : Arithmetic → Nat
  | .int _ => 1
  | .unary _ operand => operand.height + 1
  | .binary _ left right => max left.height right.height + 1

/-- The exact value exists and is an integer of 64 bits. -/
def IsInt64 (e : Arithmetic) : Prop :=
  ∃ k : Int64, e.exactValue? = some (k.toInt : ℚ)

/-- All values on the way to the value of the whole are integers of 64 bits. -/
def Integral (e : Arithmetic) : Prop :=
  ∀ part ∈ e.parts, part.IsInt64

variable {e left right operand : Arithmetic}

theorem self_mem_parts (e : Arithmetic) : e ∈ e.parts := by
  cases e <;> simp [parts]

theorem Integral.isInt64 (h : e.Integral) : e.IsInt64 :=
  h e e.self_mem_parts

theorem integral_int (n : Int64) : (int n).Integral := by
  simp only [Integral, parts, List.mem_singleton, forall_eq]
  exact ⟨n, rfl⟩

theorem integral_unary {op : UnaryOp} :
    (unary op operand).Integral ↔ (unary op operand).IsInt64 ∧ operand.Integral := by
  simp [Integral, parts]

theorem integral_binary {op : BinaryOp} :
    (binary op left right).Integral ↔
      (binary op left right).IsInt64 ∧ left.Integral ∧ right.Integral := by
  simp [Integral, parts, or_imp, forall_and]

end Arithmetic

/-! ## One operation -/

namespace Decimal

theorem toInt_of_int64? {n : Int} {k : Int64} (h : int64? n = some k) : k.toInt = n := by
  unfold int64? at h
  split at h
  case isTrue hrange =>
    rw [Int64.toInt_minValue, Int64.toInt_maxValue] at hrange
    cases h
    exact Int64.toInt_ofInt_of_le hrange.1 (by omega)
  case isFalse => cases h

theorem toInt_ne_of_int64? {n : Int} (h : int64? n = none) (k : Int64) : k.toInt ≠ n := by
  rintro rfl
  rw [int64?, if_pos ⟨Int64.minValue_le_toInt k, Int64.toInt_le k⟩] at h
  cases h

end Decimal

/-- What arithmetic may give: an integer that is `right`, or where no integer is, an error or a float,
    which there is only if `inexact`. -/
inductive Computes (right : Int64 → Prop) (inexact : Prop) : Except Error TypedValue → Prop
  | exact {n : Int64} : right n → Computes right inexact (.ok ⟨.number, .int n⟩)
  | float {x : Float} : (∀ k, ¬ right k) → inexact → Computes right inexact (.ok ⟨.number, .float x⟩)
  | refused {fault : ArithmeticFault} : (∀ k, ¬ right k) →
      Computes right inexact (.error (.arithmetic fault))

theorem Computes.congr {right right' : Int64 → Prop} {inexact inexact' : Prop}
    {r : Except Error TypedValue} (h : Computes right inexact r) (hright : ∀ k, right k ↔ right' k)
    (hinexact : inexact → inexact') : Computes right' inexact' r := by
  cases h with
  | exact hn => exact .exact ((hright _).1 hn)
  | float hnone hx => exact .float (fun k hk => hnone k ((hright k).2 hk)) (hinexact hx)
  | refused hnone => exact .refused fun k hk => hnone k ((hright k).2 hk)

/-- The integer is the exact value. -/
def Equals (value? : Option ℚ) (n : Int64) : Prop :=
  value? = some (n.toInt : ℚ)

theorem Equals.unique {value? : Option ℚ} {n k : Int64} (hn : Equals value? n) (hk : Equals value? k) :
    n = k := by
  have hsame : (n.toInt : ℚ) = k.toInt := Option.some.inj (hn.symm.trans hk)
  exact Int64.toInt_inj.1 (by exact_mod_cast hsame)

theorem UnaryOp.apply_int (op : UnaryOp) (n : Int64) :
    Computes (Equals (some (op.exactValue n.toInt))) False (op.apply ⟨.number, .int n⟩) := by
  cases op with
  | plus => exact .exact rfl
  | neg =>
    simp only [UnaryOp.apply]
    cases hfits : Decimal.int64? (-n.toInt) with
    | some m =>
      refine .exact ?_
      rw [Equals, Decimal.toInt_of_int64? hfits, UnaryOp.exactValue, Int.cast_neg]
    | none =>
      refine .refused fun k hk => Decimal.toInt_ne_of_int64? hfits k ?_
      have hvalue : -(n.toInt : ℚ) = k.toInt := Option.some.inj hk
      exact_mod_cast hvalue.symm

/-- A result is kept exactly if it fits. -/
theorem BinaryOp.keep_exact (op : BinaryOp) (a b : Int64) (result : Int) (inexact : Prop) :
    Computes (Equals (some (result : ℚ))) inexact (op.keep a b result) := by
  unfold BinaryOp.keep
  cases hfits : Decimal.int64? result with
  | some n =>
    refine .exact ?_
    rw [Equals, Decimal.toInt_of_int64? hfits]
  | none =>
    refine .refused fun k hk => Decimal.toInt_ne_of_int64? hfits k ?_
    exact_mod_cast (Option.some.inj hk).symm

/-- A quotient that leaves a remainder is no integer. -/
theorem quotient_ne {a b : Int} (hb : b ≠ 0) (hrest : a % b ≠ 0) (k : Int) : (a / b : ℚ) ≠ k := by
  intro hk
  have hproduct : (a : ℚ) = k * b := (div_eq_iff (by exact_mod_cast hb)).1 hk
  have hdvd : b ∣ a := ⟨k, by rw [mul_comm]; exact_mod_cast hproduct⟩
  exact hrest (Int.emod_eq_zero_of_dvd hdvd)

theorem BinaryOp.applyInt_exact (op : BinaryOp) (a b : Int64) :
    Computes (Equals (op.exactValue? a.toInt b.toInt)) (op = .div) (op.applyInt a b) := by
  cases op with
  | add =>
    have hkeep := keep_exact .add a b (a.toInt + b.toInt) (BinaryOp.add = .div)
    rwa [Int.cast_add] at hkeep
  | sub =>
    have hkeep := keep_exact .sub a b (a.toInt - b.toInt) (BinaryOp.sub = .div)
    rwa [Int.cast_sub] at hkeep
  | mul =>
    have hkeep := keep_exact .mul a b (a.toInt * b.toInt) (BinaryOp.mul = .div)
    rwa [Int.cast_mul] at hkeep
  | div =>
    simp only [BinaryOp.applyInt, BinaryOp.exactValue?]
    by_cases hzero : b = 0
    · subst hzero
      exact .refused (by simp [Equals])
    · have hdivisor : b.toInt ≠ 0 := fun h => hzero (Int64.toInt_inj.1 h)
      have hquotient : ¬ (b.toInt : ℚ) = 0 := by exact_mod_cast hdivisor
      rw [if_neg hzero, if_neg hquotient]
      by_cases hrest : a.toInt % b.toInt = 0
      · -- The smallest integer divided by -1 leaves no remainder either, but does not fit.
        rw [if_pos hrest, ← Int.cast_div (Int.dvd_of_emod_eq_zero hrest) hquotient]
        exact keep_exact .div a b _ _
      · rw [if_neg hrest]
        exact .float (fun k hk => quotient_ne hdivisor hrest k.toInt (Option.some.inj hk)) trivial

/-- Next to a float, every number counts as one. -/
theorem BinaryOp.apply_float {right : Int64 → Prop} {inexact : Prop} (hnone : ∀ k, ¬ right k)
    (hinexact : inexact) (op : BinaryOp) {v w : Value} {x y : Float} (hv : v.float? = some x)
    (hw : w.float? = some y) (hfloat : v = .float x ∨ w = .float y) :
    Computes right inexact (op.apply ⟨.number, v⟩ ⟨.number, w⟩) := by
  have happly : op.apply ⟨.number, v⟩ ⟨.number, w⟩ = op.applyFloat x y := by
    rcases hfloat with rfl | rfl
    · cases w <;> cases hw <;> cases op <;> rfl
    · cases v <;> cases hv <;> cases op <;> rfl
  rw [happly]
  cases op with
  | add | sub | mul => exact .float hnone hinexact
  | div =>
    simp only [BinaryOp.applyFloat]
    split
    · exact .refused hnone
    · exact .float hnone hinexact

/-! ## Expressions -/

namespace Arithmetic

variable {e left right operand : Arithmetic} {r r' : Except Error TypedValue}

/-- What evaluation may make of the expression. -/
abbrev Yields (e : Arithmetic) : Except Error TypedValue → Prop :=
  Computes (fun n => e.Integral ∧ Equals e.exactValue? n) (e.divides = true)

/-- Where no integer is right, some value on the way is none. -/
theorem not_integral (hnone : ∀ k, ¬ (e.Integral ∧ Equals e.exactValue? k)) : ¬ e.Integral := by
  intro hintegral
  obtain ⟨k, hk⟩ := hintegral.isInt64
  exact hnone k ⟨hintegral, hk⟩

theorem unary_yields (h : operand.Yields r) (op : UnaryOp) :
    (unary op operand).Yields (r >>= op.apply) := by
  have hlost : ¬ operand.Integral → ∀ k, ¬ ((unary op operand).Integral ∧
      Equals (unary op operand).exactValue? k) :=
    fun hoperand k hk => hoperand (integral_unary.1 hk.1).2
  cases h with
  | @exact n hn =>
    obtain ⟨hintegral, hvalue⟩ := hn
    have hexact : (unary op operand).exactValue? = some (op.exactValue n.toInt) := by
      rw [exactValue?, hvalue, Option.map_some]
    refine (op.apply_int n).congr (fun k => ?_) (by simp)
    rw [← hexact]
    exact ⟨fun hk => ⟨integral_unary.2 ⟨⟨k, hk⟩, hintegral⟩, hk⟩, fun hk => hk.2⟩
  | float hnone hdivides =>
    cases op with
    | plus | neg => exact .float (hlost (not_integral hnone)) hdivides
  | refused hnone => exact .refused (hlost (not_integral hnone))

theorem binary_yields (hleft : left.Yields r) (hright : right.Yields r') (op : BinaryOp) :
    (binary op left right).Yields (r >>= fun a => r' >>= fun b => op.apply a b) := by
  have hlost : ¬ left.Integral ∨ ¬ right.Integral → ∀ k, ¬ ((binary op left right).Integral ∧
      Equals (binary op left right).exactValue? k) := by
    rintro hpart k ⟨hwhole, -⟩
    obtain ⟨-, hleft, hright⟩ := integral_binary.1 hwhole
    exact hpart.elim (· hleft) (· hright)
  have hdivides : left.divides = true ∨ right.divides = true →
      (binary op left right).divides = true := by
    rintro (h | h) <;> simp [divides, h]
  cases hleft with
  | @exact a ha =>
    cases hright with
    | @exact b hb =>
      -- Only here can the result be exact, and it is if this one operation is.
      obtain ⟨hleft, ha⟩ := ha
      obtain ⟨hright, hb⟩ := hb
      have hexact : (binary op left right).exactValue? = op.exactValue? a.toInt b.toInt := by
        rw [exactValue?, ha, hb, Option.bind_some, Option.bind_some]
      have happly : op.apply ⟨.number, .int a⟩ ⟨.number, .int b⟩ = op.applyInt a b := by
        cases op <;> rfl
      change Computes _ _ (op.apply _ _)
      rw [happly]
      refine (op.applyInt_exact a b).congr (fun k => ?_) (by simp +contextual [divides])
      rw [← hexact]
      exact ⟨fun hk => ⟨integral_binary.2 ⟨⟨k, hk⟩, hleft, hright⟩, hk⟩, fun hk => hk.2⟩
    | float hnone hy =>
      exact op.apply_float (hlost (.inr (not_integral hnone))) (hdivides (.inr hy)) rfl rfl (.inr rfl)
    | refused hnone => exact .refused (hlost (.inr (not_integral hnone)))
  | float hnone hx =>
    have hwrong := hlost (.inl (not_integral hnone))
    cases hright with
    | exact | float => exact op.apply_float hwrong (hdivides (.inl hx)) rfl rfl (.inl rfl)
    | refused => exact .refused hwrong
  | refused hnone => exact .refused (hlost (.inl (not_integral hnone)))

variable {σ : Type} [ScopeStore σ]

/-- Evaluation touches nothing and gives what the expression may yield.  By induction on the expression;
    the fuel for its height is enough. -/
theorem computes (e : Arithmetic) {fuel : Nat} (hfuel : e.height ≤ fuel) :
    ∃ r, e.Yields r ∧ (evalExpr fuel e.expr : EvalM σ TypedValue) = EvalM.ofExcept r := by
  induction e generalizing fuel with
  | int n =>
    obtain ⟨fuel, rfl⟩ := Nat.exists_eq_add_of_le' hfuel
    exact ⟨_, .exact ⟨integral_int n, rfl⟩, rfl⟩
  | unary op operand ih =>
    obtain ⟨fuel, rfl⟩ := Nat.exists_eq_add_of_le' (Nat.le_trans (Nat.le_add_left 1 _) hfuel)
    obtain ⟨r, hr, heval⟩ := ih (Nat.le_of_succ_le_succ hfuel)
    refine ⟨_, unary_yields hr op, ?_⟩
    rw [expr, evalExpr, evalExprWith, heval]
    cases r <;> rfl
  | binary op left right ihleft ihright =>
    obtain ⟨fuel, rfl⟩ := Nat.exists_eq_add_of_le' (Nat.le_trans (Nat.le_add_left 1 _) hfuel)
    have hparts : max left.height right.height ≤ fuel := Nat.le_of_succ_le_succ hfuel
    obtain ⟨r, hr, hleft⟩ := ihleft (Nat.le_trans (Nat.le_max_left _ _) hparts)
    obtain ⟨r', hr', hright⟩ := ihright (Nat.le_trans (Nat.le_max_right _ _) hparts)
    refine ⟨_, binary_yields hr hr' op, ?_⟩
    rw [expr, evalExpr, evalExprWith, hleft, hright]
    cases r <;> cases r' <;> rfl

end Arithmetic

/-- An expression of integers, signs and arithmetic operators has an integer as its value exactly if its
    own exact value and those of all its subexpressions are integers of 64 bits, and it is the exact one.
    Otherwise evaluation gives a float or an arithmetic error, and always the error if there is no division
    in the expression. -/
theorem arithmetic_exact_or_refused {σ : Type} [ScopeStore σ] (e : Arithmetic) (fuel : Nat)
    (hfuel : e.height ≤ fuel) (host : Host) (m : Machine σ) :
    let run := evalExpr fuel e.expr host m
    (∀ n, run.1 = .done ⟨.number, .int n⟩ ↔ e.Integral ∧ e.exactValue? = some (n.toInt : ℚ)) ∧
    (¬ e.Integral →
      ((∃ x, run.1 = .done ⟨.number, .float x⟩) ∨ ∃ fault, run.1 = .failed (.arithmetic fault)) ∧
      (e.divides = false → ∃ fault, run.1 = .failed (.arithmetic fault))) ∧
    run.2 = m := by
  obtain ⟨r, hr, heval⟩ := e.computes (σ := σ) hfuel
  simp only [heval]
  cases hr with
  | exact hn =>
    refine ⟨fun k => ⟨?_, fun hk => ?_⟩, fun hnot => absurd hn.1 hnot, rfl⟩
    · rintro ⟨⟩
      exact hn
    · rw [hn.2.unique hk.2]
      rfl
  | @float x hnone hdivides =>
    refine ⟨fun k => ⟨?_, fun hk => absurd hk (hnone k)⟩, fun _ => ⟨.inl ⟨x, rfl⟩, fun hdivisions => ?_⟩,
      rfl⟩
    · rintro ⟨⟩
    · rw [hdivides] at hdivisions
      cases hdivisions
  | @refused fault hnone =>
    refine ⟨fun k => ⟨?_, fun hk => absurd hk (hnone k)⟩, fun _ => ⟨.inr ⟨fault, rfl⟩, fun _ => ⟨fault, rfl⟩⟩,
      rfl⟩
    rintro ⟨⟩

namespace Arithmetic

/-- `(7 * 6) / -3` -/
def Sample.quotient : Arithmetic :=
  .binary .div (.binary .mul (.int 7) (.int 6)) (.unary .neg (.int 3))

/-- `-(0 - 9223372036854775807 - 1)`, whose value is too large by one. -/
def Sample.magnitude : Arithmetic :=
  .unary .neg (.binary .sub (.binary .sub (.int 0) (.int 9223372036854775807)) (.int 1))

theorem Sample.quotient_exact : quotient.exactValue? = some ((-14 : Int64).toInt : ℚ) := by
  simp [quotient, exactValue?, UnaryOp.exactValue, BinaryOp.exactValue?]
  norm_num

theorem Sample.quotient_integral : quotient.Integral := by
  refine integral_binary.2 ⟨⟨-14, quotient_exact⟩, integral_binary.2 ⟨⟨42, ?_⟩, ?_, ?_⟩,
    integral_unary.2 ⟨⟨-3, ?_⟩, ?_⟩⟩
  · simp [exactValue?, BinaryOp.exactValue?]
    norm_num
  · exact integral_int 7
  · exact integral_int 6
  · simp [exactValue?, UnaryOp.exactValue]
  · exact integral_int 3

theorem Sample.magnitude_not_integral : ¬ magnitude.Integral := by
  intro h
  obtain ⟨k, hk⟩ := h.isInt64
  have hvalue : (k.toInt : ℚ) = (9223372036854775808 : Int) := by
    simp [magnitude, exactValue?, UnaryOp.exactValue, BinaryOp.exactValue?] at hk
    rw [← hk]
    norm_num
  have hrange := k.toInt_lt
  have : k.toInt = 9223372036854775808 := by exact_mod_cast hvalue
  omega

end Arithmetic

open Arithmetic Sample in
theorem arithmetic_exact_or_refused_sample :
    (evalExpr 3 quotient.expr ⟨.empty, {}⟩ (.initial : Machine Environment)).1 =
        .done ⟨.number, .int (-14)⟩ ∧
      ∃ fault, (evalExpr 4 magnitude.expr ⟨.empty, {}⟩ (.initial : Machine Environment)).1 =
        .failed (.arithmetic fault) := by
  refine ⟨?_, ?_⟩
  · exact ((arithmetic_exact_or_refused quotient 3 (by decide) _ _).1 (-14)).2
      ⟨quotient_integral, quotient_exact⟩
  · exact ((arithmetic_exact_or_refused magnitude 4 (by decide) _ _).2.1
      magnitude_not_integral).2 (by decide)

end Tremolo
