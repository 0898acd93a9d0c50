import Tremolo.Proofs.Syntax.Reading

/-! # Expressions are read as the grammar writes them

Level by level, from factors to whole expressions: each level is sound and complete if the next one is,
and a factor is if the expressions nested in it are (`expressionAt_sound`, `expressionAt_complete`).  An
expression ends before the first token that could not continue it. -/

namespace Tremolo.Parse

open Grammar

/-! ## Operators -/

section Operators

variable {β : Type}

theorem mem_of_lookup {ops : List (TokenKind × β)} {k : TokenKind} {op : β}
    (h : ops.lookup k = some op) : (k, op) ∈ ops := by
  obtain ⟨front, back, rfl, -⟩ := List.lookup_eq_some_iff.1 h
  simp

theorem lookup_termOps (k : TokenKind) (op : BinaryOp) :
    termOps.lookup k = some op ↔ TermOp k op := by
  constructor
  · intro h
    have hmem := mem_of_lookup h
    simp only [termOps, List.mem_cons, Prod.mk.injEq, List.not_mem_nil, or_false] at hmem
    rcases hmem with ⟨rfl, rfl⟩ | ⟨rfl, rfl⟩
    · exact .star
    · exact .slash
  · rintro ⟨⟩ <;> rfl

theorem lookup_sumOps (k : TokenKind) (op : BinaryOp) : sumOps.lookup k = some op ↔ SumOp k op := by
  constructor
  · intro h
    have hmem := mem_of_lookup h
    simp only [sumOps, List.mem_cons, Prod.mk.injEq, List.not_mem_nil, or_false] at hmem
    rcases hmem with ⟨rfl, rfl⟩ | ⟨rfl, rfl⟩
    · exact .plus
    · exact .minus
  · rintro ⟨⟩ <;> rfl

theorem lookup_comparisonOps (k : TokenKind) (op : CondOp) :
    comparisonOps.lookup k = some op ↔ ComparisonOp k op := by
  constructor
  · intro h
    have hmem := mem_of_lookup h
    simp only [comparisonOps, List.mem_cons, Prod.mk.injEq, List.not_mem_nil, or_false] at hmem
    rcases hmem with ⟨rfl, rfl⟩ | ⟨rfl, rfl⟩ | ⟨rfl, rfl⟩ | ⟨rfl, rfl⟩ | ⟨rfl, rfl⟩ | ⟨rfl, rfl⟩
    · exact .eq
    · exact .ne
    · exact .lt
    · exact .gt
    · exact .le
    · exact .ge
  · rintro ⟨⟩ <;> rfl

theorem lookup_connective (word : TokenKind) (connective : CondOp) (k : TokenKind) (op : CondOp) :
    [(word, connective)].lookup k = some op ↔ Connective word connective k op := by
  constructor
  · intro h
    have hmem := mem_of_lookup h
    simp only [List.mem_cons, Prod.mk.injEq, List.not_mem_nil, or_false] at hmem
    obtain ⟨rfl, rfl⟩ := hmem
    exact .mk
  · rintro ⟨⟩
    exact List.lookup_cons_self

end Operators

/-! ## What can continue an expression -/

/-- The tokens that can continue a term. -/
def continuesTerm (k : TokenKind) : Prop :=
  k = .leftParen ∨ ∃ op, TermOp k op

/-- The tokens that can continue a sum. -/
def continuesSum (k : TokenKind) : Prop :=
  continuesTerm k ∨ ∃ op, SumOp k op

/-- The tokens that can continue a comparison. -/
def continuesComparison (k : TokenKind) : Prop :=
  continuesSum k ∨ ∃ op, ComparisonOp k op

/-- The tokens that can continue a conjunction. -/
def continuesConjunction (k : TokenKind) : Prop :=
  continuesComparison k ∨ ∃ op, Connective .andWord .and k op

/-- The tokens that can continue an expression. -/
def continuesExpression (k : TokenKind) : Prop :=
  continuesConjunction k ∨ ∃ op, Connective .orWord .or k op

/-- The same tokens, to be decided. -/
def continues : TokenKind → Bool
  | .leftParen | .star | .slash | .plus | .minus | .eq | .notEq | .lt | .gt | .ltEq | .gtEq | .andWord
  | .orWord => true
  | _ => false

theorem continues_of_continuesExpression {k : TokenKind} (h : continuesExpression k) :
    continues k = true := by
  rcases h with ((((rfl | ⟨_, ⟨⟩⟩) | ⟨_, ⟨⟩⟩) | ⟨_, ⟨⟩⟩) | ⟨_, ⟨⟩⟩) | ⟨_, ⟨⟩⟩ <;> rfl

section Opening

variable {ks : List TokenKind} {e : Expr}

theorem term_opening (h : Term ks e) : Opening continuesTerm ks :=
  h.chained.opening fun _ _ => Factor.opening

theorem sum_opening (h : Sum ks e) : Opening continuesSum ks :=
  h.chained.opening fun _ _ => term_opening

theorem comparison_opening (h : Comparison ks e) : Opening continuesComparison ks := by
  cases h with
  | sum h => exact (sum_opening h).mono fun _ => .inl
  | compare hl hop _ =>
    refine (sum_opening hl).append fun k hk => ?_
    cases hk
    exact ⟨_, hop⟩

theorem conjunction_opening (h : Conjunction ks e) : Opening continuesConjunction ks :=
  h.chained.opening fun _ _ => comparison_opening

theorem disjunction_opening (h : Disjunction ks e) : Opening (continues · = true) ks :=
  (h.chained.opening fun _ _ => conjunction_opening).mono fun _ => continues_of_continuesExpression

end Opening

/-! ## Factors -/

section Levels

variable {nested : Parse Expr} {n : Nat}

theorem nameOrCall_sound (hnested : Sound nested Disjunction) (x : String) :
    Sound (nameOrCall nested x) (fun ks e => Factor (.identifier x :: ks) e) := by
  intro ts e rest h
  rw [nameOrCall, ifNext_eq] at h
  split at h
  · simp only [bind_eq_ok, expect_eq_ok, pure_eq_ok] at h
    obtain ⟨-, _, ⟨t, rfl, ht⟩, args, _, hread, rfl, rfl⟩ := h
    obtain ⟨front, rfl, hargs⟩ := parenList_sound hnested hread
    refine ⟨t :: front, rfl, ?_⟩
    rw [kinds_cons, ht]
    generalize kinds front = ks at hargs
    cases hargs with
    | empty => exact .call
    | items hargs => exact .callArgs (hargs.recurse .one .more)
  · obtain ⟨rfl, rfl⟩ := pure_eq_ok.1 h
    exact ⟨[], rfl, .var⟩

theorem factor_sound (hnested : Sound nested Disjunction) : Sound (factor nested) Factor := by
  intro ts
  induction ts with
  | nil =>
    intro e rest h
    cases h
  | cons t ts ih =>
    intro e rest h
    simp only [factor] at h
    split at h
    next hk =>
      obtain ⟨e, hread, rfl⟩ := map_eq_ok.1 h
      obtain ⟨front, rfl, he⟩ := ih hread
      exact ⟨t :: front, rfl, .sign (hk ▸ .plus) he⟩
    next hk =>
      obtain ⟨e, hread, rfl⟩ := map_eq_ok.1 h
      obtain ⟨front, rfl, he⟩ := ih hread
      exact ⟨t :: front, rfl, .sign (hk ▸ .minus) he⟩
    next hk =>
      cases h
      exact ⟨[t], rfl, by simpa [hk] using Factor.true⟩
    next hk =>
      cases h
      exact ⟨[t], rfl, by simpa [hk] using Factor.false⟩
    next hk =>
      simp only [bind_eq_ok, expect_eq_ok, pure_eq_ok] at h
      obtain ⟨e, _, hread, -, _, ⟨u, rfl, hu⟩, rfl, rfl⟩ := h
      obtain ⟨front, rfl, he⟩ := hnested hread
      exact ⟨t :: front ++ [u], by simp, by simpa [hk, hu] using Factor.paren he⟩
    next hk =>
      cases h
      exact ⟨[t], rfl, by simpa [hk] using Factor.int⟩
    next hk =>
      cases h
      exact ⟨[t], rfl, by simpa [hk] using Factor.float⟩
    next hk =>
      cases h
      exact ⟨[t], rfl, by simpa [hk] using Factor.string⟩
    next hk =>
      obtain ⟨front, rfl, he⟩ := nameOrCall_sound hnested _ h
      exact ⟨t :: front, rfl, by rwa [kinds_cons, hk]⟩
    next => cases h

theorem call_complete (hnested : Complete n nested Disjunction (continues · = true)) (x : String)
    {t : Token} {front rest : List Token} {args : List Expr} (ht : t.kind = .leftParen)
    (hlength : front.length < n) (hargs : Enclosed Disjunction (kinds front) args) :
    nameOrCall nested x (t :: front ++ rest) = .ok (.call x args) rest := by
  have hread : parenList nested (front ++ rest) = .ok args rest := by
    refine parenList_complete hnested (by decide) (by decide) (fun ks e he => ?_) hlength hargs
      (.none rest)
    obtain ⟨k, ks', rfl, hk, -⟩ := disjunction_opening he
    exact ⟨k, ks', rfl, by rintro rfl; cases hk⟩
  rw [nameOrCall, List.cons_append, ifNext_of_next ht]
  refine bind_eq_ok.2 ⟨(), front ++ rest, expect_eq_ok.2 ⟨t, rfl, ht⟩, ?_⟩
  exact bind_eq_ok.2 ⟨args, rest, hread, rfl⟩

theorem factor_complete (hnested : Complete n nested Disjunction (continues · = true)) :
    Complete (n + 1) (factor nested) Factor (· = .leftParen) := by
  intro front
  induction front with
  | nil =>
    intro e rest _ h
    obtain ⟨k, ks, hks, -⟩ := h.opening
    cases hks
  | cons t front ih =>
    intro e rest hlength h hrest
    rw [List.length_cons] at hlength
    -- The induction serves the signs only; whatever is in parentheses is left to `nested`.
    generalize hks : kinds (t :: front) = ks at h
    cases h with
    | sign hsign he =>
      obtain ⟨ht, rfl⟩ := List.cons.inj hks
      have hread := ih (Nat.lt_of_succ_lt hlength) he hrest
      cases hsign <;> simp only [List.cons_append, factor, ht, hread] <;> rfl
    | int | float | string | true | false =>
      obtain ⟨ht, hfront⟩ := List.cons.inj hks
      obtain rfl := kinds_eq_nil hfront
      simp only [List.cons_append, List.nil_append, factor, ht]
    | var =>
      obtain ⟨ht, hfront⟩ := List.cons.inj hks
      obtain rfl := kinds_eq_nil hfront
      simp only [List.cons_append, List.nil_append, factor, ht]
      exact ifNext_of_stops hrest
    | call =>
      obtain ⟨ht, hfront⟩ := List.cons.inj hks
      obtain ⟨u, front, rfl, hu, hfront⟩ := kinds_eq_cons hfront
      rw [List.length_cons] at hlength
      simp only [List.cons_append, factor, ht]
      exact call_complete hnested _ hu (by omega) (hfront ▸ .empty)
    | callArgs hargs =>
      obtain ⟨ht, hfront⟩ := List.cons.inj hks
      obtain ⟨u, front, rfl, hu, hfront⟩ := kinds_eq_cons hfront
      rw [List.length_cons] at hlength
      simp only [List.cons_append, factor, ht]
      exact call_complete hnested _ hu (by omega) (hfront ▸ .items hargs.listed)
    | paren he =>
      obtain ⟨ht, hfront⟩ := List.cons.inj hks
      obtain ⟨front, u, rfl, rfl, hu⟩ := kinds_eq_concat hfront
      rw [List.length_append] at hlength
      have hread : nested (front ++ u :: rest) = .ok e (u :: rest) :=
        hnested (by simp only [List.length_cons] at hlength; omega) he (.cons (by simp [hu, continues]))
      simp only [List.cons_append, List.append_assoc, factor, ht]
      exact bind_eq_ok.2 ⟨e, u :: rest, hread, bind_eq_ok.2 ⟨(), rest, expect_eq_ok.2 ⟨u, rfl, hu⟩, rfl⟩⟩

/-! ## Terms and sums -/

theorem term_sound (hnested : Sound nested Disjunction) : Sound (term nested) Term := by
  refine (chain_sound lookup_termOps (factor_sound hnested)).mono fun ks e h => ?_
  exact h.recurse (fun he => .factor he) fun hl hop hr => .chain hl hop hr

theorem term_complete (hnested : Complete n nested Disjunction (continues · = true)) :
    Complete (n + 1) (term nested) Term continuesTerm := by
  refine (chain_complete lookup_termOps (factor_complete hnested) ?_).mono
    (fun _ _ => Term.chained) fun _ => id
  rintro _ _ ⟨⟩ <;> simp

theorem sum_sound (hnested : Sound nested Disjunction) : Sound (sum nested) Sum := by
  refine (chain_sound lookup_sumOps (term_sound hnested)).mono fun ks e h => ?_
  exact h.recurse (fun he => .term he) fun hl hop hr => .chain hl hop hr

theorem sum_complete (hnested : Complete n nested Disjunction (continues · = true)) :
    Complete (n + 1) (sum nested) Sum continuesSum := by
  refine (chain_complete lookup_sumOps (term_complete hnested) ?_).mono
    (fun _ _ => Sum.chained) fun _ => id
  rintro _ _ ⟨⟩ (hk | ⟨_, ⟨⟩⟩) <;> cases hk

/-! ## Comparisons -/

theorem comparison_sound (hnested : Sound nested Disjunction) :
    Sound (comparison nested) Comparison := by
  intro ts e rest h
  simp only [comparison, bind_eq_ok, operator_eq_ok, pure_eq_ok] at h
  obtain ⟨l, mid, hleft, h⟩ := h
  obtain ⟨front, rfl, hl⟩ := sum_sound hnested hleft
  rcases h with ⟨t, us, op, rfl, hop, r, _, hright, rfl, rfl⟩ | ⟨-, rfl, rfl⟩
  · obtain ⟨front', rfl, hr⟩ := sum_sound hnested hright
    refine ⟨front ++ t :: front', by simp, ?_⟩
    rw [kinds_append]
    exact .compare hl ((lookup_comparisonOps _ _).1 hop) hr
  · exact ⟨front, rfl, .sum hl⟩

theorem comparison_complete (hnested : Complete n nested Disjunction (continues · = true)) :
    Complete (n + 1) (comparison nested) Comparison continuesComparison := by
  intro front e rest hlength h hrest
  have hafter : Stops continuesSum rest := hrest.mono fun _ => .inl
  generalize hks : kinds front = ks at h
  cases h with
  | sum h =>
    subst hks
    refine bind_eq_ok.2 ⟨e, rest, sum_complete hnested hlength h hafter, ?_⟩
    refine operator_eq_ok.2 (.inr ⟨fun k hk => ?_, rfl⟩)
    rw [Option.eq_none_iff_forall_ne_some]
    exact fun op hop => hrest k hk (.inr ⟨op, (lookup_comparisonOps k op).1 hop⟩)
  | @compare _ l _ op _ r hl hop hr =>
    obtain ⟨front, behind, rfl, rfl, hbehind⟩ := kinds_eq_append hks
    obtain ⟨t, front', rfl, rfl, rfl⟩ := kinds_eq_cons hbehind
    simp only [List.length_append, List.length_cons] at hlength
    -- A comparison sign continues no sum, so the left operand ends in front of it.
    have hstop : Stops continuesSum (t :: (front' ++ rest)) := by
      refine .cons ?_
      rintro ((hk | ⟨_, hk⟩) | ⟨_, hk⟩)
      · rw [hk] at hop
        cases hop
      · generalize t.kind = k at hop hk
        cases hop <;> cases hk
      · generalize t.kind = k at hop hk
        cases hop <;> cases hk
    have hleft := sum_complete hnested (by omega) hl hstop
    have hright := sum_complete hnested (by omega) hr hafter
    rw [List.append_assoc]
    refine bind_eq_ok.2 ⟨l, _, hleft, operator_eq_ok.2 (.inl ⟨t, front' ++ rest, op, rfl, ?_, ?_⟩)⟩
    · exact (lookup_comparisonOps _ _).2 hop
    · exact bind_eq_ok.2 ⟨r, rest, hright, rfl⟩

/-! ## Connectives -/

theorem conjunction_sound (hnested : Sound nested Disjunction) :
    Sound (conjunction nested) Conjunction := by
  refine (chain_sound (lookup_connective _ _) (comparison_sound hnested)).mono fun ks e h => ?_
  exact h.recurse (fun he => .comparison he) fun hl hop hr => by cases hop; exact .chain hl hr

theorem conjunction_complete (hnested : Complete n nested Disjunction (continues · = true)) :
    Complete (n + 1) (conjunction nested) Conjunction continuesConjunction := by
  refine (chain_complete (lookup_connective _ _) (comparison_complete hnested) ?_).mono
    (fun _ _ => Conjunction.chained) fun _ => id
  rintro _ _ ⟨⟩ (((hk | ⟨_, ⟨⟩⟩) | ⟨_, ⟨⟩⟩) | ⟨_, ⟨⟩⟩)
  cases hk

theorem disjunction_sound (hnested : Sound nested Disjunction) :
    Sound (disjunction nested) Disjunction := by
  refine (chain_sound (lookup_connective _ _) (conjunction_sound hnested)).mono fun ks e h => ?_
  exact h.recurse (fun he => .conjunction he) fun hl hop hr => by cases hop; exact .chain hl hr

theorem disjunction_complete (hnested : Complete n nested Disjunction (continues · = true)) :
    Complete (n + 1) (disjunction nested) Disjunction (continues · = true) := by
  refine (chain_complete (lookup_connective _ _) (conjunction_complete hnested) ?_).mono
    (fun _ _ => Disjunction.chained) fun _ => continues_of_continuesExpression
  rintro _ _ ⟨⟩ ((((hk | ⟨_, ⟨⟩⟩) | ⟨_, ⟨⟩⟩) | ⟨_, ⟨⟩⟩) | ⟨_, ⟨⟩⟩)
  cases hk

end Levels

/-! ## Expressions -/

theorem expressionAt_sound (depth : Nat) : Sound (expressionAt depth) Disjunction := by
  induction depth with
  | zero => exact fun _ _ _ h => absurd h unexpected_ne_ok
  | succ depth ih => exact disjunction_sound ih

theorem expressionAt_complete (depth : Nat) :
    Complete depth (expressionAt depth) Disjunction (continues · = true) := by
  induction depth with
  | zero => exact fun _ _ _ hlength => absurd hlength (Nat.not_lt_zero _)
  | succ depth ih => exact disjunction_complete ih

theorem expression_sound : Sound expression Disjunction :=
  fun ts _ _ h => expressionAt_sound (ts.length + 1) h

/-- There are tokens enough for every nesting. -/
theorem expression_complete {front rest : List Token} {e : Expr} (h : Disjunction (kinds front) e)
    (hrest : Stops (continues · = true) rest) : expression (front ++ rest) = .ok e rest :=
  expressionAt_complete ((front ++ rest).length + 1) (by rw [List.length_append]; omega) h hrest

end Tremolo.Parse
