import Tremolo.Proofs.Json.Decoding
import Tremolo.Syntax.Interchange

/-! # Programs survive interchange

The decoder of programs is exact for programs without floats (`Program.FloatFree.exact`), and what it
reads is never written deeper than it was found (`Program.bounded`).  Together with the fact that the
text of such a program is read back (`Program.FloatFree.plain`) this says when a program survives the way
through its text: if and only if the text nests no deeper than a decoder may enter (`decode?_encode`). -/

namespace Tremolo

open Json (Decoder Plain Within Inside fits fits_under bind_fits fits_bind_some map_fits depthItems
  depth_array depth_record depth_text depth_texts depth_variant deepest)

/-! ## Programs without floats -/

/-- There is no float literal in the expression. -/
inductive Expr.FloatFree : Expr → Prop
  | int (n : Int64) : FloatFree (.int n)
  | string (s : String) : FloatFree (.string s)
  | bool (b : Bool) : FloatFree (.bool b)
  | var (name : String) : FloatFree (.var name)
  | unary {op : UnaryOp} {operand : Expr} : operand.FloatFree → FloatFree (.unary op operand)
  | binary {op : BinaryOp} {left right : Expr} :
    left.FloatFree → right.FloatFree → FloatFree (.binary op left right)
  | cond {op : CondOp} {left right : Expr} :
    left.FloatFree → right.FloatFree → FloatFree (.cond op left right)
  | call {name : String} {args : List Expr} :
    (∀ e ∈ args, e.FloatFree) → FloatFree (.call name args)

/-- There is no float literal in the statement. -/
inductive Stmt.FloatFree : Stmt → Prop
  | skip : FloatFree .skip
  | block {body : List Stmt} : (∀ s ∈ body, s.FloatFree) → FloatFree (.block body)
  | declare {type : String} {names : List String} : FloatFree (.declare type names)
  | define {name : String} {params : List String} {body : List Stmt} :
    (∀ s ∈ body, s.FloatFree) → FloatFree (.define name params body)
  | assign {name : String} {value : Expr} : value.FloatFree → FloatFree (.assign name value)
  | when {condition : Expr} {body : List Stmt} :
    condition.FloatFree → (∀ s ∈ body, s.FloatFree) → FloatFree (.when condition body)
  | loop {condition : Expr} {body : List Stmt} :
    condition.FloatFree → (∀ s ∈ body, s.FloatFree) → FloatFree (.loop condition body)
  | ret {value : Option Expr} : (∀ e ∈ value, e.FloatFree) → FloatFree (.ret value)
  | expr {e : Expr} : e.FloatFree → FloatFree (.expr e)

/-- There is no float literal in the program. -/
def Program.FloatFree (p : Program) : Prop :=
  ∀ s ∈ p.body, s.FloatFree

/-! ## Expressions -/

theorem UnaryOp.lookup_tag (op : UnaryOp) : UnaryOp.tags.lookup op.tag = some op := by
  cases op <;> rfl

theorem BinaryOp.lookup_tag (op : BinaryOp) : BinaryOp.tags.lookup op.tag = some op := by
  cases op <;> rfl

theorem CondOp.lookup_tag (op : CondOp) : CondOp.tags.lookup op.tag = some op := by
  cases op <;> rfl

theorem argsToJson_eq (style : LiteralStyle) (args : List Expr) :
    argsToJson style args = args.map (Expr.toJson style) := by
  induction args with
  | nil => rfl
  | cons e es ih => rw [argsToJson, ih, List.map_cons]

theorem stmtsToJson_eq (style : LiteralStyle) (body : List Stmt) :
    stmtsToJson style body = body.map (Stmt.toJson style) := by
  induction body with
  | nil => rfl
  | cons s ss ih => rw [stmtsToJson, ih, List.map_cons]

theorem int?_ofInt (k : Int) : (Numeral.ofInt k).int? = some k := by
  have hinteger : (Numeral.ofInt k).isInteger = true := rfl
  have hnegative : (Numeral.ofInt k).negative = decide (k < 0) := rfl
  have hwhole : Decimal.ofDigits (Numeral.ofInt k).whole = k.natAbs := by
    change Decimal.ofDigits (Nat.toDigits 10 k.natAbs) = k.natAbs
    rw [Decimal.ofDigits, ← Nat.ofDigitChars_eq_foldl, Nat.ofDigitChars_ten_toDigits]
  simp only [Numeral.int?, hinteger, hnegative, hwhole, Bool.not_true, Bool.false_eq_true, if_false]
  by_cases hk : k < 0
  · simp only [hk, decide_true, Bool.not_true, Bool.false_eq_true, if_false]
    rw [if_neg (by omega), show -(k.natAbs : Int) = k by omega]
  · simp only [hk, decide_false, Bool.not_false, if_true]
    rw [show (k.natAbs : Int) = k by omega]

/-- Every integer of 64 bits is read back. -/
theorem int64?_ofInt (n : Int64) : (Numeral.ofInt n.toInt).int64? = some n := by
  have hrange : Int64.minValue.toInt ≤ n.toInt ∧ n.toInt ≤ Int64.maxValue.toInt :=
    ⟨Int64.minValue_le_toInt n, Int64.toInt_le n⟩
  simp only [Numeral.int64?, int?_ofInt, bind, Option.bind, Decimal.int64?, if_pos hrange,
    Int64.ofInt_toInt]

/-- Two operands are read side by side. -/
theorem operands_fits {left right : Expr} (hl : Decoder.Exact Expr.ofJson? (Expr.toJson .plain) left)
    (hr : Decoder.Exact Expr.ofJson? (Expr.toJson .plain) right) (build : Expr → Expr → Expr) (n : Nat) :
    ((Expr.ofJson? n (left.toJson .plain)).bind fun l =>
      (Expr.ofJson? n (right.toJson .plain)).bind fun r => some (build l r)) =
      fits (max (left.toJson .plain).depth (right.toJson .plain).depth) (build left right) n := by
  rw [hl n, hr n]
  exact bind_fits (fits_bind_some _ _ _ n)

theorem Expr.FloatFree.exact {e : Expr} (h : e.FloatFree) :
    Decoder.Exact Expr.ofJson? (Expr.toJson .plain) e := by
  induction h with
  | int n =>
    simp only [Decoder.Exact, Expr.toJson, depth_variant]
    refine fits_under rfl fun m => ?_
    change ((Numeral.ofInt n.toInt).int64?).map Expr.int = _
    rw [int64?_ofInt]
    exact (Json.fits_zero _ m).symm
  | string s =>
    simp only [Decoder.Exact, Expr.toJson, depth_variant]
    exact fits_under rfl fun m => (Json.fits_zero _ m).symm
  | bool b =>
    simp only [Decoder.Exact, Expr.toJson, depth_variant]
    exact fits_under rfl fun m => (Json.fits_zero _ m).symm
  | var name =>
    simp only [Decoder.Exact, Expr.toJson, depth_variant]
    exact fits_under rfl fun m => (Json.fits_zero _ m).symm
  | @unary op operand _ ih =>
    simp only [Decoder.Exact, Expr.toJson, depth_variant, depth_record, deepest, Nat.max_zero,
      depth_text, Nat.zero_max]
    refine fits_under rfl (fits_under rfl fun m => ?_)
    change ((Decoder.choice UnaryOp.tags m (.text op.tag)).bind fun op =>
      (Expr.ofJson? m (operand.toJson .plain)).bind fun e => some (Expr.unary op e)) = _
    rw [Decoder.choice_text, op.lookup_tag, ih m]
    exact fits_bind_some _ _ _ m
  | @binary op left right _ _ ihl ihr =>
    simp only [Decoder.Exact, Expr.toJson, depth_variant, depth_record, deepest, Nat.max_zero,
      depth_text, Nat.zero_max]
    refine fits_under rfl (fits_under rfl fun m => ?_)
    change ((Decoder.choice BinaryOp.tags m (.text op.tag)).bind fun op =>
      (Expr.ofJson? m (left.toJson .plain)).bind fun l =>
        (Expr.ofJson? m (right.toJson .plain)).bind fun r => some (Expr.binary op l r)) = _
    rw [Decoder.choice_text, op.lookup_tag]
    exact operands_fits ihl ihr (Expr.binary op) m
  | @cond op left right _ _ ihl ihr =>
    simp only [Decoder.Exact, Expr.toJson, depth_variant, depth_record, deepest, Nat.max_zero,
      depth_text, Nat.zero_max]
    refine fits_under rfl (fits_under rfl fun m => ?_)
    change ((Decoder.choice CondOp.tags m (.text op.tag)).bind fun op =>
      (Expr.ofJson? m (left.toJson .plain)).bind fun l =>
        (Expr.ofJson? m (right.toJson .plain)).bind fun r => some (Expr.cond op l r)) = _
    rw [Decoder.choice_text, op.lookup_tag]
    exact operands_fits ihl ihr (Expr.cond op) m
  | @call name args _ ih =>
    simp only [Decoder.Exact, Expr.toJson, argsToJson_eq, depth_variant, depth_record, deepest,
      Nat.max_zero, depth_text, depth_array, Nat.zero_max]
    -- One level each for the variant, its record and the list of arguments.
    refine fits_under rfl (fits_under rfl (fits_under rfl fun m => ?_))
    change (((args.map (Expr.toJson .plain)).mapM (Expr.ofJson? m)).bind fun es =>
      some (Expr.call name es)) = _
    rw [Decoder.mapM_exact ih]
    exact fits_bind_some _ _ _ m

/-! ## Statements -/

/-- The bodies of conditions and loops lie one level deeper than the condition. -/
theorem conditional_fits {condition : Expr} {body : List Stmt} (hcondition : condition.FloatFree)
    (hbody : ∀ s ∈ body, Decoder.Exact Stmt.ofJson? (Stmt.toJson .plain) s)
    (build : Expr → List Stmt → Stmt) (n : Nat) :
    ((Expr.ofJson? (n + 1) (condition.toJson .plain)).bind fun c =>
      ((body.map (Stmt.toJson .plain)).mapM (Stmt.ofJson? n)).bind fun ss => some (build c ss)) =
      fits (max (condition.toJson .plain).depth (depthItems (body.map (Stmt.toJson .plain)) + 1))
        (build condition body) (n + 1) := by
  rw [hcondition.exact, Decoder.mapM_exact hbody]
  refine bind_fits ?_
  rw [Json.fits_succ_succ]
  exact fits_bind_some _ _ _ n

theorem fits_max_zero {α : Type} (k l : Nat) (a : α) : fits (max k (l + 1)) a 0 = none := by
  simp [fits]

theorem Stmt.FloatFree.exact {s : Stmt} (h : s.FloatFree) :
    Decoder.Exact Stmt.ofJson? (Stmt.toJson .plain) s := by
  induction h with
  | skip =>
    intro n
    cases n <;> rfl
  | @block body _ ih =>
    simp only [Decoder.Exact, Stmt.toJson, stmtsToJson_eq, depth_variant, depth_array]
    refine fits_under rfl (fits_under rfl fun m => ?_)
    change (((body.map (Stmt.toJson .plain)).mapM (Stmt.ofJson? m)).bind fun ss =>
      some (Stmt.block ss)) = _
    rw [Decoder.mapM_exact ih]
    exact fits_bind_some _ _ _ m
  | @declare type names =>
    simp only [Decoder.Exact, Stmt.toJson, depth_variant, depth_record, deepest, Nat.max_zero,
      depth_text, depth_texts, Nat.zero_max]
    refine fits_under rfl (fits_under rfl fun m => ?_)
    change ((Decoder.list .text m (.texts names)).bind fun ss => some (Stmt.declare type ss)) = _
    rw [Decoder.list_texts]
    exact fits_bind_some _ _ _ m
  | @define name params body _ ih =>
    -- The parameters are a list as well, but one without anything inside.
    have hmax : ∀ k, max 1 (k + 1) = k + 1 := fun k => by omega
    simp only [Decoder.Exact, Stmt.toJson, stmtsToJson_eq, depth_variant, depth_record, deepest,
      Nat.max_zero, depth_text, depth_texts, depth_array, Nat.zero_max, hmax]
    refine fits_under rfl (fits_under rfl (fits_under rfl fun m => ?_))
    change ((Decoder.list .text (m + 1) (.texts params)).bind fun ps =>
      ((body.map (Stmt.toJson .plain)).mapM (Stmt.ofJson? m)).bind fun ss =>
        some (Stmt.define name ps ss)) = _
    rw [Decoder.list_texts, Decoder.mapM_exact ih, Json.fits_succ_succ, Json.fits_zero]
    exact fits_bind_some _ _ _ m
  | @assign name value hvalue =>
    simp only [Decoder.Exact, Stmt.toJson, depth_variant, depth_record, deepest, Nat.max_zero,
      depth_text, Nat.zero_max]
    refine fits_under rfl (fits_under rfl fun m => ?_)
    change ((Expr.ofJson? m (value.toJson .plain)).bind fun e => some (Stmt.assign name e)) = _
    rw [hvalue.exact m]
    exact fits_bind_some _ _ _ m
  | @when condition body hcondition _ ih =>
    simp only [Decoder.Exact, Stmt.toJson, stmtsToJson_eq, depth_variant, depth_record, deepest,
      Nat.max_zero, depth_array]
    refine fits_under rfl (fits_under rfl fun m => ?_)
    -- Without a level left the list of the body cannot be entered, however flat the condition is.
    cases m with
    | zero => exact (fits_max_zero _ _ _).symm
    | succ m => exact conditional_fits hcondition ih Stmt.when m
  | @loop condition body hcondition _ ih =>
    simp only [Decoder.Exact, Stmt.toJson, stmtsToJson_eq, depth_variant, depth_record, deepest,
      Nat.max_zero, depth_array]
    refine fits_under rfl (fits_under rfl fun m => ?_)
    cases m with
    | zero => exact (fits_max_zero _ _ _).symm
    | succ m => exact conditional_fits hcondition ih Stmt.loop m
  | @ret value hvalue =>
    simp only [Decoder.Exact, Stmt.toJson, depth_variant, depth_record, deepest, Nat.max_zero]
    refine fits_under rfl (fits_under rfl fun m => ?_)
    change ((Decoder.missing Expr.ofJson? m (some (Decoder.orNull (Expr.toJson .plain) value))).bind
      fun e => some (Stmt.ret e)) = fits (Decoder.orNull (Expr.toJson .plain) value).depth _ m
    rw [Decoder.exact_missing (fun e he => (hvalue e he).exact) fun e => by cases e <;> nofun]
    exact fits_bind_some _ _ _ m
  | @expr e he =>
    simp only [Decoder.Exact, Stmt.toJson, depth_variant]
    refine fits_under rfl fun m => ?_
    change (Expr.ofJson? m (e.toJson .plain)).map Stmt.expr = _
    rw [he.exact m]
    exact map_fits _ _ _ m

/-! ## Headers and programs -/

theorem Signature.exact (s : Signature) : Decoder.Exact Signature.ofJson? Signature.toJson s := by
  obtain ⟨name, parameterTypes, returnType⟩ := s
  simp only [Decoder.Exact, Signature.toJson, depth_record, deepest, Nat.max_zero, depth_text,
    depth_texts, Nat.zero_max]
  refine fits_under rfl fun m => ?_
  change ((Decoder.list .text m (.texts parameterTypes)).bind fun parameters =>
    (Decoder.text.missing m (some (Decoder.orNull Json.text returnType))).bind fun returns =>
      some (Signature.mk name parameters returns)) =
      fits (max 1 (Decoder.orNull Json.text returnType).depth) _ m
  rw [Decoder.list_texts, Decoder.exact_missing (fun t _ => Decoder.exact_text t) nofun]
  exact bind_fits (fits_bind_some _ _ _ m)

theorem ModuleUse.exact (use : ModuleUse) : Decoder.Exact ModuleUse.ofJson? ModuleUse.toJson use := by
  obtain ⟨name, functions⟩ := use
  simp only [Decoder.Exact, ModuleUse.toJson, depth_record, deepest, Nat.max_zero, depth_text,
    Nat.zero_max]
  refine fits_under rfl fun m => ?_
  change ((Decoder.list Signature.ofJson? m (.array (functions.map Signature.toJson))).bind
    fun signatures => some (ModuleUse.mk name signatures)) = _
  rw [Decoder.exact_list (fun s _ => s.exact) m]
  exact fits_bind_some _ _ _ m

/-- How the name of a declared type is written. -/
def declaredTypeToJson (name : String) : Json :=
  .record [("name", .text name)]

theorem declaredType_exact (name : String) :
    Decoder.Exact declaredTypeOfJson? declaredTypeToJson name := by
  simp only [Decoder.Exact, declaredTypeToJson, depth_record, deepest, Nat.max_zero, depth_text]
  exact fits_under rfl fun m => (Json.fits_zero _ m).symm

theorem Header.exact (header : Header) : Decoder.Exact Header.ofJson? Header.toJson header := by
  obtain ⟨types, modules⟩ := header
  simp only [Decoder.Exact, Header.toJson, depth_record, deepest, Nat.max_zero]
  refine fits_under rfl fun m => ?_
  change ((Decoder.list declaredTypeOfJson? m (.array (types.map declaredTypeToJson))).bind fun ts =>
    (Decoder.list ModuleUse.ofJson? m (.array (modules.map ModuleUse.toJson))).bind fun ms =>
      some (Header.mk ts ms)) = _
  rw [Decoder.exact_list (fun t _ => declaredType_exact t) m,
    Decoder.exact_list (fun use _ => use.exact) m]
  exact bind_fits (fits_bind_some _ _ _ m)

theorem Program.FloatFree.exact {p : Program} (h : p.FloatFree) :
    Decoder.Exact Program.ofJson? Program.toJson p := by
  obtain ⟨header, body⟩ := p
  simp only [Decoder.Exact, Program.toJson, Program.toJsonIn, stmtsToJson_eq, depth_record, deepest,
    Nat.max_zero]
  refine fits_under rfl fun m => ?_
  change ((Decoder.missing Header.ofJson? m (some (Decoder.orNull Header.toJson header))).bind fun x =>
    (Decoder.list Stmt.ofJson? m (.array (body.map (Stmt.toJson .plain)))).bind fun ss =>
      some (Program.mk x ss)) = fits (max (Decoder.orNull Header.toJson header).depth _) _ m
  rw [Decoder.exact_missing (fun x _ => x.exact) nofun, Decoder.exact_list (fun s hs => (h s hs).exact) m]
  exact bind_fits (fits_bind_some _ _ _ m)

/-! ## Depth of what was read -/

/-- Two operands, beside the name of their operator. -/
theorem operands_within {n : Nat} {content left right l r : Json} {x : Option Json}
    (hxs : Decoder.fields? ["op", "left", "right"] content = some [x, some left, some right])
    (hl : Within l n left) (hr : Within r n right) (tag : String) :
    Within (.record [("op", .text tag), ("left", l), ("right", r)]) (n + 1) content := by
  refine Decoder.within_record hxs ?_
  simp [hl.inside, hr.inside]

/-- The induction is on the levels: the parts of an expression are read with fewer of them. -/
theorem Expr.bounded : Decoder.Bounded Expr.ofJson? (Expr.toJson .plain) := by
  intro n
  induction n using Nat.strongRecOn with
  | _ n ih =>
    intro j e h
    unfold Expr.ofJson? at h
    split at h
    next levels tag content =>
      -- The kinds of expressions come in the order in which the decoder tries their tags.
      split at h
      next n =>
        obtain ⟨k, -, rfl⟩ := Option.map_eq_some_iff.1 h
        exact Within.variant (.flat rfl _ content) "IntLiteral" _
      next n =>
        obtain ⟨x, -, rfl⟩ := Option.map_eq_some_iff.1 h
        exact Within.variant (.flat (Json.depth_float x) _ content) "FloatLiteral" _
      next n =>
        obtain ⟨s, -, rfl⟩ := Option.map_eq_some_iff.1 h
        exact Within.variant (.flat rfl _ content) "StringLiteral" _
      next n =>
        obtain ⟨b, -, rfl⟩ := Option.map_eq_some_iff.1 h
        exact Within.variant (.flat rfl _ content) "BoolLiteral" _
      next n =>
        obtain ⟨name, -, rfl⟩ := Option.map_eq_some_iff.1 h
        exact Within.variant (.flat rfl _ content) "Variable" _
      next n =>
        obtain ⟨xs, hxs, h⟩ := Option.bind_eq_some_iff.1 h
        split at h
        next name items =>
          simp only [bind, Option.bind_eq_some_iff, pure, Option.some.injEq] at h
          obtain ⟨name, -, args, hargs, rfl⟩ := h
          have hitems := Decoder.within_of_mapM (ih n (by omega)) hargs
          rw [Expr.toJson, argsToJson_eq]
          refine Within.variant (Decoder.within_record hxs ?_) _ _
          simp [hitems.inside]
        next => cases h
      next n =>
        obtain ⟨xs, hxs, h⟩ := Option.bind_eq_some_iff.1 h
        split at h
        next op left right =>
          simp only [bind, Option.bind_eq_some_iff, pure, Option.some.injEq] at h
          obtain ⟨op, -, l, hl, r, hr, rfl⟩ := h
          exact (operands_within hxs (ih n (by omega) left l hl) (ih n (by omega) right r hr)
            op.tag).variant _ _
        next => cases h
      next n =>
        obtain ⟨xs, hxs, h⟩ := Option.bind_eq_some_iff.1 h
        split at h
        next op operand =>
          simp only [bind, Option.bind_eq_some_iff, pure, Option.some.injEq] at h
          obtain ⟨op, -, e, he, rfl⟩ := h
          have hoperand := ih n (by omega) operand e he
          refine Within.variant (Decoder.within_record hxs ?_) _ _
          simp [hoperand.inside]
        next => cases h
      next n =>
        obtain ⟨xs, hxs, h⟩ := Option.bind_eq_some_iff.1 h
        split at h
        next op left right =>
          simp only [bind, Option.bind_eq_some_iff, pure, Option.some.injEq] at h
          obtain ⟨op, -, l, hl, r, hr, rfl⟩ := h
          exact (operands_within hxs (ih n (by omega) left l hl) (ih n (by omega) right r hr)
            op.tag).variant _ _
        next => cases h
      next => cases h
    next => cases h

/-- A condition, beside the statements that it is for. -/
theorem conditional_within {n : Nat} {content items body : Json} {x : Option Json} {condition : Expr}
    (hxs : Decoder.fields? ["condition", "body"] content = some [x, some items])
    (hcondition : Decoder.required Expr.ofJson? n x = some condition) (hbody : Within body n items) :
    Within (.record [("condition", condition.toJson .plain), ("body", body)]) (n + 1) content := by
  refine Decoder.within_record hxs ?_
  simp [Expr.bounded.required hcondition, hbody.inside]

theorem Stmt.bounded : Decoder.Bounded Stmt.ofJson? (Stmt.toJson .plain) := by
  intro n
  induction n using Nat.strongRecOn with
  | _ n ih =>
    intro j s h
    unfold Stmt.ofJson? at h
    split at h
    next tag =>
      simp only [Option.ite_none_right_eq_some, Option.some.injEq] at h
      obtain ⟨-, rfl⟩ := h
      exact .flat rfl n _
    next levels tag content =>
      split at h
      next =>
        split at h
        · cases h
          exact .flat rfl _ _
        · cases h
      next n =>
        split at h
        next items =>
          simp only [bind, Option.bind_eq_some_iff, pure, Option.some.injEq] at h
          obtain ⟨body, hbody, rfl⟩ := h
          rw [Stmt.toJson, stmtsToJson_eq]
          exact Within.variant (Decoder.within_of_mapM (ih n (by omega)) hbody) _ _
        next => cases h
      next n =>
        obtain ⟨m, xs, rfl, hxs, h⟩ := Decoder.record_eq_some h
        split at h
        next x y =>
          simp only [bind, Option.bind_eq_some_iff, pure, Option.some.injEq] at h
          obtain ⟨type, -, names, hnames, rfl⟩ := h
          refine Within.variant (Decoder.within_record hxs ?_) _ _
          simp [Decoder.inside_texts hnames]
        next => cases h
      next n =>
        obtain ⟨xs, hxs, h⟩ := Option.bind_eq_some_iff.1 h
        split at h
        next x y items =>
          simp only [bind, Option.bind_eq_some_iff, pure, Option.some.injEq] at h
          obtain ⟨name, -, params, hparams, body, hbody, rfl⟩ := h
          have hitems := Decoder.within_of_mapM (ih n (by omega)) hbody
          rw [Stmt.toJson, stmtsToJson_eq]
          refine Within.variant (Decoder.within_record hxs ?_) _ _
          simp [Decoder.inside_texts hparams, hitems.inside]
        next => cases h
      next n =>
        obtain ⟨m, xs, rfl, hxs, h⟩ := Decoder.record_eq_some h
        split at h
        next x y =>
          simp only [bind, Option.bind_eq_some_iff, pure, Option.some.injEq] at h
          obtain ⟨name, -, value, hvalue, rfl⟩ := h
          refine Within.variant (Decoder.within_record hxs ?_) _ _
          simp [Expr.bounded.required hvalue]
        next => cases h
      next n =>
        obtain ⟨xs, hxs, h⟩ := Option.bind_eq_some_iff.1 h
        split at h
        next x items =>
          simp only [bind, Option.bind_eq_some_iff, pure, Option.some.injEq] at h
          obtain ⟨condition, hcondition, body, hbody, rfl⟩ := h
          rw [Stmt.toJson, stmtsToJson_eq]
          exact (conditional_within hxs hcondition
            (Decoder.within_of_mapM (ih n (by omega)) hbody)).variant _ _
        next => cases h
      next n =>
        obtain ⟨xs, hxs, h⟩ := Option.bind_eq_some_iff.1 h
        split at h
        next x items =>
          simp only [bind, Option.bind_eq_some_iff, pure, Option.some.injEq] at h
          obtain ⟨condition, hcondition, body, hbody, rfl⟩ := h
          rw [Stmt.toJson, stmtsToJson_eq]
          exact (conditional_within hxs hcondition
            (Decoder.within_of_mapM (ih n (by omega)) hbody)).variant _ _
        next => cases h
      next n =>
        obtain ⟨m, xs, rfl, hxs, h⟩ := Decoder.record_eq_some h
        split at h
        next x =>
          simp only [bind, Option.bind_eq_some_iff, pure, Option.some.injEq] at h
          obtain ⟨value, hvalue, rfl⟩ := h
          refine Within.variant (Decoder.within_record hxs ?_) _ _
          have hinside : Inside ((value.map (Expr.toJson .plain)).getD .null) m [x] :=
            Expr.bounded.missing hvalue List.mem_cons_self
          simp [hinside]
        next => cases h
      next n =>
        obtain ⟨e, he, rfl⟩ := Option.map_eq_some_iff.1 h
        exact Within.variant (Expr.bounded _ _ e he) _ _
      next => cases h
    next => cases h

theorem Signature.bounded : Decoder.Bounded Signature.ofJson? Signature.toJson := by
  intro n j s h
  obtain ⟨m, xs, rfl, hxs, h⟩ := Decoder.record_eq_some h
  split at h
  next x y z =>
    simp only [bind, Option.bind_eq_some_iff, pure, Option.some.injEq] at h
    obtain ⟨name, -, parameters, hparameters, returns, hreturns, rfl⟩ := h
    have hinside : Inside ((returns.map Json.text).getD .null) m [x, y, z] :=
      Decoder.bounded_text.missing hreturns (by simp)
    refine Decoder.within_record hxs ?_
    simp [Decoder.inside_texts hparameters, hinside]
  next => cases h

theorem ModuleUse.bounded : Decoder.Bounded ModuleUse.ofJson? ModuleUse.toJson := by
  intro n j use h
  obtain ⟨m, xs, rfl, hxs, h⟩ := Decoder.record_eq_some h
  split at h
  next x y =>
    simp only [bind, Option.bind_eq_some_iff, pure, Option.some.injEq] at h
    obtain ⟨name, -, functions, hfunctions, rfl⟩ := h
    refine Decoder.within_record hxs ?_
    simp [Signature.bounded.list.required hfunctions]
  next => cases h

theorem declaredType_bounded : Decoder.Bounded declaredTypeOfJson? declaredTypeToJson := by
  intro n j name h
  obtain ⟨m, xs, rfl, hxs, -⟩ := Decoder.record_eq_some h
  refine Decoder.within_record hxs ?_
  simp

theorem Header.bounded : Decoder.Bounded Header.ofJson? Header.toJson := by
  intro n j header h
  obtain ⟨m, xs, rfl, hxs, h⟩ := Decoder.record_eq_some h
  split at h
  next x y =>
    simp only [bind, Option.bind_eq_some_iff, pure, Option.some.injEq] at h
    obtain ⟨types, htypes, modules, hmodules, rfl⟩ := h
    have hinside : Inside (.array (types.map declaredTypeToJson)) m [x, y] :=
      declaredType_bounded.list.required htypes (by simp)
    refine Decoder.within_record hxs (List.forall_mem_cons.2 ⟨hinside, ?_⟩)
    simp [ModuleUse.bounded.list.required hmodules]
  next => cases h

theorem Program.bounded : Decoder.Bounded Program.ofJson? Program.toJson := by
  intro n j p h
  obtain ⟨m, xs, rfl, hxs, h⟩ := Decoder.record_eq_some h
  split at h
  next x y =>
    simp only [bind, Option.bind_eq_some_iff, pure, Option.some.injEq] at h
    obtain ⟨header, hheader, body, hbody, rfl⟩ := h
    have hinside : Inside ((header.map Header.toJson).getD .null) m [x, y] :=
      Header.bounded.missing hheader (by simp)
    rw [Program.toJson, Program.toJsonIn, stmtsToJson_eq]
    refine Decoder.within_record hxs ?_
    simp [Stmt.bounded.list.required hbody, hinside]
  next => cases h

/-! ## Texts -/

theorem Expr.FloatFree.plain {e : Expr} (h : e.FloatFree) : (e.toJson .plain).Plain := by
  induction h with
  | int n => exact .variant (.int n.toInt) _
  | string s => exact .variant (.text s) _
  | bool b => exact .variant (.bool b) _
  | var name => exact .variant (.text name) _
  | unary _ ih => exact .variant (.record (by simp [Plain.text, ih])) _
  | binary _ _ ihl ihr => exact .variant (.record (by simp [Plain.text, ihl, ihr])) _
  | cond _ _ ihl ihr => exact .variant (.record (by simp [Plain.text, ihl, ihr])) _
  | @call name args _ ih =>
    rw [Expr.toJson, argsToJson_eq]
    exact .variant (.record (by simp [Plain.text, Plain.map ih])) _

theorem Stmt.FloatFree.plain {s : Stmt} (h : s.FloatFree) : (s.toJson .plain).Plain := by
  induction h with
  | skip => exact .text "NoOp"
  | @block body _ ih =>
    rw [Stmt.toJson, stmtsToJson_eq]
    exact .variant (.map ih) _
  | declare => exact .variant (.record (by simp [Plain.text, Plain.texts])) _
  | @define name params body _ ih =>
    rw [Stmt.toJson, stmtsToJson_eq]
    exact .variant (.record (by simp [Plain.text, Plain.texts, Plain.map ih])) _
  | assign hvalue => exact .variant (.record (by simp [Plain.text, hvalue.plain])) _
  | @when condition body hcondition _ ih =>
    rw [Stmt.toJson, stmtsToJson_eq]
    exact .variant (.record (by simp [hcondition.plain, Plain.map ih])) _
  | @loop condition body hcondition _ ih =>
    rw [Stmt.toJson, stmtsToJson_eq]
    exact .variant (.record (by simp [hcondition.plain, Plain.map ih])) _
  | ret hvalue =>
    have hnull := Plain.orNull fun e he => (hvalue e he).plain
    exact .variant (.record (by simp [hnull])) _
  | expr he => exact .variant he.plain _

theorem Signature.plain (s : Signature) : s.toJson.Plain := by
  have hreturns : ((s.returnType.map Json.text).getD .null).Plain := .orNull fun t _ => .text t
  exact .record (by simp [Plain.text, Plain.texts, hreturns])

theorem ModuleUse.plain (use : ModuleUse) : use.toJson.Plain := by
  have hfunctions : (Json.array (use.functions.map Signature.toJson)).Plain := .map fun s _ => s.plain
  exact .record (by simp [Plain.text, hfunctions])

theorem Header.plain (header : Header) : header.toJson.Plain := by
  have htype : ∀ name, (declaredTypeToJson name).Plain := fun name => .record (by simp [Plain.text])
  have htypes : (Json.array (header.types.map declaredTypeToJson)).Plain := .map fun name _ => htype name
  have hmodules : (Json.array (header.modules.map ModuleUse.toJson)).Plain :=
    .map fun use _ => use.plain
  exact .record (List.forall_mem_cons.2 ⟨htypes, by simp [hmodules]⟩)

theorem Program.FloatFree.plain {p : Program} (h : p.FloatFree) : p.toJson.Plain := by
  have hheader : ((p.header.map Header.toJson).getD .null).Plain := .orNull fun header _ => header.plain
  have hbody : (Json.array (p.body.map (Stmt.toJson .plain))).Plain := .map fun s hs => (h s hs).plain
  rw [Program.toJson, Program.toJsonIn, stmtsToJson_eq]
  exact .record (by simp [hheader, hbody])

/-- A program without floats is read back from its own text if that nests at most 127 levels, and refused
    otherwise.  No text from which the program can be read nests less than its own, so a program that was
    read once can be written and read again. -/
theorem decode?_encode (p : Program) (hp : p.FloatFree) :
    ∃ d, Json.nesting? p.encode = some d ∧
      Program.decode? p.encode = (if d ≤ 127 then some p else none) ∧
      ∀ s, Program.decode? s = some p →
        (∃ d', Json.nesting? s = some d' ∧ d ≤ d') ∧ Program.decode? p.encode = some p := by
  have hparse : Json.parse? p.encode = some p.toJson := hp.plain.parse?_toText
  have hdecode : Program.decode? p.encode = if p.toJson.depth ≤ 127 then some p else none := by
    rw [Program.decode?, hparse]
    exact hp.exact 127
  refine ⟨p.toJson.depth, by rw [Json.nesting?, hparse]; rfl, hdecode, fun s hs => ?_⟩
  obtain ⟨j, hj, hread⟩ := Option.bind_eq_some_iff.1 hs
  have hwithin := Program.bounded 127 j p hread
  refine ⟨⟨j.depth, by rw [Json.nesting?, hj]; rfl, hwithin.depth⟩, ?_⟩
  rw [hdecode, if_pos hwithin.levels]

/-- A program with a header, a function, an escaped string and the least integer. -/
def Program.excerpt : Program where
  header := some ⟨["Note"], [⟨"host", [⟨"play", ["Note"], none⟩]⟩]⟩
  body :=
    [.define "f" ["a"] [.ret (some (.binary .add (.var "a") (.int (-9223372036854775808))))],
     .when (.bool true) [.expr (.call "f" [.string "\"\n\\"])]]

theorem Program.excerpt_floatFree : Program.excerpt.FloatFree := by
  intro s hs
  simp only [Program.excerpt, List.mem_cons, List.not_mem_nil, or_false] at hs
  rcases hs with rfl | rfl
  · exact .define (by simp [Stmt.FloatFree.ret, Expr.FloatFree.binary, Expr.FloatFree.var,
      Expr.FloatFree.int])
  · exact .when (.bool true) (by simp [Stmt.FloatFree.expr, Expr.FloatFree.call,
      Expr.FloatFree.string])

theorem decode?_encode_excerpt :
    Program.excerpt.FloatFree ∧
    ∃ d, Json.nesting? Program.excerpt.encode = some d ∧
      Program.decode? Program.excerpt.encode = (if d ≤ 127 then some Program.excerpt else none) ∧
      ∀ s, Program.decode? s = some Program.excerpt →
        (∃ d', Json.nesting? s = some d' ∧ d ≤ d') ∧
          Program.decode? Program.excerpt.encode = some Program.excerpt :=
  ⟨Program.excerpt_floatFree, decode?_encode Program.excerpt Program.excerpt_floatFree⟩

/-! A program may also be an array of its fields, and an empty statement an object. -/

example : Program.decode? "[null,[\x7b\"NoOp\":null\x7d]]" = some ⟨none, [.skip]⟩ :=
  rfl

end Tremolo
