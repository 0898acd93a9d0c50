import Tremolo.Proofs.Syntax.Programs

/-! # Input that breaks off

A parser *completes* a relation if the tokens behind which it misses more can always be extended to
something that the relation writes.  Parsers that are put together complete what their parts write one
behind the other (`Completes.bind`), and so a program that breaks off can be finished
(`program_completes`). -/

namespace Tremolo.Parse

open Grammar

variable {α β : Type}

/-- First what `P` writes, then what `F` writes behind it. -/
inductive Then (P : List TokenKind → α → Prop) (F : α → List TokenKind → β → Prop) :
    List TokenKind → β → Prop
  | mk {ks a ks' b} : P ks a → F a ks' b → Then P F (ks ++ ks') b

/-- Something is written, and tokens at whose end more is missed can be extended to it. -/
structure Completes (p : Parse α) (R : List TokenKind → α → Prop) : Prop where
  inhabited : ∃ ks a, R ks a
  ends : ∀ ⦃ts rest⦄, p ts = .fail .unexpectedEnd rest → ∃ more a, R (kinds ts ++ more) a

section Rules

variable {p q : Parse α} {R : List TokenKind → α → Prop}

theorem Completes.mono {S : List TokenKind → α → Prop} (h : Completes p R)
    (hR : ∀ ks a, R ks a → S ks a) : Completes p S := by
  constructor
  · obtain ⟨ks, a, ha⟩ := h.inhabited
    exact ⟨ks, a, hR ks a ha⟩
  · intro ts rest hread
    obtain ⟨more, a, ha⟩ := h.ends hread
    exact ⟨more, a, hR _ a ha⟩

theorem Completes.bind {f : α → Parse β} {F : α → List TokenKind → β → Prop} (hp : Completes p R)
    (hsound : Sound p R) (hf : ∀ a, Completes (f a) (F a)) : Completes (p >>= f) (Then R F) := by
  constructor
  · obtain ⟨ks, a, ha⟩ := hp.inhabited
    obtain ⟨ks', b, hb⟩ := (hf a).inhabited
    exact ⟨ks ++ ks', b, .mk ha hb⟩
  · intro ts rest h
    change Parse.bind p f ts = _ at h
    unfold Parse.bind at h
    split at h
    next a mid hread =>
      obtain ⟨front, rfl, ha⟩ := hsound hread
      obtain ⟨more, b, hb⟩ := (hf a).ends h
      rw [kinds_append]
      exact ⟨more, b, by simpa using Then.mk ha hb⟩
    next hread =>
      -- The first part breaks off, so all of the second is still to come.
      cases h
      obtain ⟨more, a, ha⟩ := hp.ends hread
      obtain ⟨ks, b, hb⟩ := (hf a).inhabited
      exact ⟨more ++ ks, b, by simpa using Then.mk ha hb⟩

/-- A parser that misses something only in front of no tokens at all. -/
theorem completes_of_cons (hR : ∃ ks a, R ks a)
    (hp : ∀ t ts rest, p (t :: ts) ≠ .fail .unexpectedEnd rest) : Completes p R := by
  refine ⟨hR, fun ts rest h => ?_⟩
  cases ts with
  | nil => exact hR
  | cons t ts => exact absurd h (hp t ts rest)

theorem pure_sound (a : α) : Sound (pure a) (fun ks b => ks = [] ∧ b = a) := by
  intro ts b rest h
  obtain ⟨rfl, rfl⟩ := pure_eq_ok.1 h
  exact ⟨[], rfl, rfl, rfl⟩

theorem pure_completes (a : α) : Completes (pure a) (fun ks b => ks = [] ∧ b = a) :=
  completes_of_cons ⟨[], a, rfl, rfl⟩ nofun

theorem unexpected_completes (expected : Expected) (hR : ∃ ks a, R ks a) :
    Completes (unexpected expected) R :=
  completes_of_cons hR nofun

theorem expect_sound (k : TokenKind) : Sound (expect k) (fun ks _ => ks = [k]) := by
  intro ts a rest h
  obtain ⟨t, rfl, rfl⟩ := expect_eq_ok.1 h
  exact ⟨[t], rfl, rfl⟩

theorem expect_completes (k : TokenKind) : Completes (expect k) (fun ks _ => ks = [k]) := by
  refine completes_of_cons ⟨[k], (), rfl⟩ fun t ts rest h => ?_
  simp only [expect] at h
  split at h <;> cases h

theorem identifier_completes : Completes identifier (fun ks x => ks = [.identifier x]) := by
  refine completes_of_cons ⟨[.identifier ""], "", rfl⟩ fun t ts rest h => ?_
  simp only [identifier] at h
  split at h <;> cases h

theorem typeName_completes : Completes typeName (fun ks t => ∃ k, ks = [k] ∧ TypeName k t) := by
  refine completes_of_cons ⟨[.identifier ""], "", _, rfl, .declared⟩ fun t ts rest h => ?_
  simp only [typeName] at h
  split at h <;> cases h

theorem Sound.ifNext {k : TokenKind} (hp : Sound p R) (hq : Sound q R) : Sound (ifNext k p q) R := by
  intro ts a rest h
  rw [ifNext_eq] at h
  split at h
  · exact hp h
  · exact hq h

theorem Completes.ifNext {k : TokenKind} (hp : Completes p R) (hq : Completes q R) :
    Completes (ifNext k p q) R := by
  refine ⟨hp.inhabited, fun ts rest h => ?_⟩
  rw [ifNext_eq] at h
  split at h
  · exact hp.ends h
  · exact hq.ends h

theorem map_eq_fail {f : α → β} {r : Parsed α} {e : Error} {rest : List Token}
    (h : r.map f = .fail e rest) : r = .fail e rest := by
  cases r with
  | ok a mid => cases h
  | fail e mid =>
    cases h
    rfl

end Rules

/-! ## Lists -/

section Lists

variable {item : Parse α} {R : List TokenKind → α → Prop}

theorem manyUpTo_ends {more : TokenKind → Bool} (hitem : Completes item R) (hsound : Sound item R)
    (limit : Nat) {ts rest : List Token}
    (h : manyUpTo more item limit ts = .fail .unexpectedEnd rest) :
    ∃ ks as, Repeated R (kinds ts ++ ks) as := by
  induction limit generalizing ts with
  | zero => cases ts <;> cases h
  | succ limit ih =>
    cases ts with
    | nil => cases h
    | cons t ts =>
      simp only [manyUpTo] at h
      split at h
      next =>
        split at h
        next a mid hread =>
          obtain ⟨front, hfront, ha⟩ := hsound hread
          obtain ⟨ks, as, has⟩ := ih (map_eq_fail h)
          rw [hfront, kinds_append]
          exact ⟨ks, a :: as, by simpa using Repeated.cons ha has⟩
        next hread =>
          cases h
          obtain ⟨ks, a, ha⟩ := hitem.ends hread
          exact ⟨ks, [a], by simpa using Repeated.cons ha .nil⟩
      next => cases h

theorem many_completes (more : TokenKind → Bool) (hitem : Completes item R) (hsound : Sound item R) :
    Completes (many more item) (Repeated R) :=
  ⟨⟨[], [], .nil⟩, fun ts _ h => manyUpTo_ends hitem hsound ts.length h⟩

variable (hitem : Completes item R) (hsound : Sound item R)

include hitem hsound

theorem commaList_completes : Completes (commaList item) (Listed R) := by
  have hbehind : Completes (do expect .comma; item) (Behind .comma R) := by
    refine ((expect_completes .comma).bind (expect_sound .comma) fun _ => hitem).mono ?_
    rintro _ _ ⟨rfl, ha⟩
    exact .mk ha
  have hothers : Completes (many (· = .comma) (do expect .comma; item)) (Repeated (Behind .comma R)) :=
    many_completes _ hbehind (behind_sound .comma hsound)
  refine (hitem.bind hsound fun a => hothers.bind
    (many_sound (behind_sound .comma hsound) Behind.ne_nil) fun as => pure_completes (a :: as)).mono ?_
  rintro _ _ ⟨ha, ⟨hrest, ⟨rfl, rfl⟩⟩⟩
  rw [List.append_nil]
  exact .mk ha hrest

theorem parenList_completes : Completes (parenList item) (Enclosed R) := by
  -- Between the parentheses stand some items or none.
  have hnone : ∀ ks (as : List α), ks = [] ∧ as = [] → ks = [] ∧ as = [] ∨ Listed R ks as :=
    fun _ _ => .inl
  have hsome : ∀ ks as, Listed R ks as → ks = [] ∧ as = [] ∨ Listed R ks as := fun _ _ => .inr
  have hitems := ((pure_completes []).mono hnone).ifNext (k := .rightParen)
    ((commaList_completes hitem hsound).mono hsome)
  have hread := ((pure_sound []).mono hnone).ifNext (k := .rightParen)
    ((commaList_sound hsound).mono hsome)
  refine (hitems.bind hread fun as => (expect_completes .rightParen).bind (expect_sound _) fun _ =>
    pure_completes as).mono ?_
  rintro _ _ ⟨⟨rfl, rfl⟩ | has, ⟨rfl, ⟨rfl, rfl⟩⟩⟩
  · exact .empty
  · exact .items has

theorem braced_completes (hR : ∀ ks a, R ks a → ks ≠ []) : Completes (braced item) (Braced R) := by
  refine ((expect_completes .leftBrace).bind (expect_sound _) fun _ =>
    (many_completes _ hitem hsound).bind (many_sound hsound hR) fun as =>
    (expect_completes .rightBrace).bind (expect_sound _) fun _ => pure_completes as).mono ?_
  rintro _ _ ⟨rfl, ⟨has, ⟨rfl, ⟨rfl, rfl⟩⟩⟩⟩
  simpa using Braced.mk has

end Lists

/-! ## Operators -/

theorem operator_completes {ops : List (TokenKind × β)} {behind : β → Parse α} {otherwise : Parse α}
    {R : List TokenKind → α → Prop} (hotherwise : Completes otherwise R)
    (hbehind : ∀ k op, ops.lookup k = some op → Completes (behind op) (fun ks a => R (k :: ks) a)) :
    Completes (operator ops behind otherwise) R := by
  refine ⟨hotherwise.inhabited, fun ts rest h => ?_⟩
  cases ts with
  | nil => exact hotherwise.ends h
  | cons t ts =>
    simp only [operator] at h
    split at h
    next op hop => exact (hbehind t.kind op hop).ends h
    next => exact hotherwise.ends h

/-- The tokens after which an operand is missed can be extended by any operand. -/
theorem chain_completes {ops : List (TokenKind × β)} {Op : TokenKind → β → Prop}
    {node : β → Expr → Expr → Expr} {operand : Parse Expr} {R : List TokenKind → Expr → Prop}
    (hops : ∀ k op, ops.lookup k = some op ↔ Op k op) (hop : ∃ k op, Op k op)
    (hoperand : Completes operand R) (hsound : Sound operand R) :
    Completes (chain ops node operand) (Chained Op node R) := by
  have hoperation : Completes
      (operator ops (fun op => do return (op, ← operand)) (unexpected .expression))
      (Operation Op R) := by
    refine operator_completes (unexpected_completes _ ?_) fun k op hk => ?_
    · obtain ⟨k, op, hop⟩ := hop
      obtain ⟨ks, e, he⟩ := hoperand.inhabited
      exact ⟨k :: ks, (op, e), .mk hop he⟩
    · refine (hoperand.bind hsound fun e => pure_completes (op, e)).mono ?_
      rintro _ _ ⟨he, ⟨rfl, rfl⟩⟩
      rw [List.append_nil]
      exact .mk ((hops k op).1 hk) he
  refine (hoperand.bind hsound fun first =>
    (many_completes _ hoperation (operation_sound hops hsound)).bind
      (many_sound (operation_sound hops hsound) Operation.ne_nil) fun others => pure_completes _).mono ?_
  rintro _ _ ⟨he, ⟨hrest, ⟨rfl, rfl⟩⟩⟩
  rw [List.append_nil]
  exact .mk he hrest

/-! ## Expressions -/

section Levels

variable {nested : Parse Expr} (hnested : Completes nested Disjunction)
  (hsound : Sound nested Disjunction)

include hnested hsound

theorem nameOrCall_completes (x : String) :
    Completes (nameOrCall nested x) (fun ks e => Factor (.identifier x :: ks) e) := by
  have hcall : Completes (do expect .leftParen; return Expr.call x (← parenList nested))
      (fun ks e => Factor (.identifier x :: ks) e) := by
    refine ((expect_completes .leftParen).bind (expect_sound _) fun _ =>
      (parenList_completes hnested hsound).bind (parenList_sound hsound) fun args =>
      pure_completes (Expr.call x args)).mono ?_
    rintro _ _ ⟨rfl, ⟨hargs, ⟨rfl, rfl⟩⟩⟩
    rw [List.append_nil]
    cases hargs with
    | empty => exact .call
    | items hargs => exact .callArgs (hargs.recurse .one .more)
  refine hcall.ifNext ((pure_completes (Expr.var x)).mono ?_)
  rintro _ _ ⟨rfl, rfl⟩
  exact .var

theorem paren_completes :
    Completes (do let e ← nested; expect .rightParen; return e)
      (fun ks e => Factor (.leftParen :: ks) e) := by
  refine (hnested.bind hsound fun e => (expect_completes .rightParen).bind (expect_sound _) fun _ =>
    pure_completes e).mono ?_
  rintro _ _ ⟨he, ⟨rfl, ⟨rfl, rfl⟩⟩⟩
  exact .paren he

theorem factor_completes : Completes (factor nested) Factor := by
  refine ⟨⟨_, _, .true⟩, fun ts => ?_⟩
  induction ts with
  | nil => exact fun _ _ => ⟨_, _, .true⟩
  | cons t ts ih =>
    intro rest h
    simp only [factor] at h
    split at h
    next hk =>
      obtain ⟨more, e, he⟩ := ih (map_eq_fail h)
      rw [kinds_cons, hk]
      exact ⟨more, _, .sign .plus he⟩
    next hk =>
      obtain ⟨more, e, he⟩ := ih (map_eq_fail h)
      rw [kinds_cons, hk]
      exact ⟨more, _, .sign .minus he⟩
    next => cases h
    next => cases h
    next hk =>
      rw [kinds_cons, hk]
      exact (paren_completes hnested hsound).ends h
    next => cases h
    next => cases h
    next => cases h
    next x hk =>
      rw [kinds_cons, hk]
      exact (nameOrCall_completes hnested hsound x).ends h
    next => cases h

theorem term_completes : Completes (term nested) Term := by
  refine (chain_completes lookup_termOps ⟨_, _, .star⟩ (factor_completes hnested hsound)
    (factor_sound hsound)).mono fun ks e h => ?_
  exact h.recurse (fun he => .factor he) fun hl hop hr => .chain hl hop hr

theorem sum_completes : Completes (sum nested) Sum := by
  refine (chain_completes lookup_sumOps ⟨_, _, .plus⟩ (term_completes hnested hsound)
    (term_sound hsound)).mono fun ks e h => ?_
  exact h.recurse (fun he => .term he) fun hl hop hr => .chain hl hop hr

theorem comparison_completes : Completes (comparison nested) Comparison := by
  have hright (left : Expr) : Completes
      (operator comparisonOps (fun op => do return .cond op left (← sum nested)) (pure left))
      (fun ks e => ∀ ks', Sum ks' left → Comparison (ks' ++ ks) e) := by
    refine operator_completes ((pure_completes left).mono ?_) fun k op hop => ?_
    · rintro _ _ ⟨rfl, rfl⟩ ks' hl
      rw [List.append_nil]
      exact .sum hl
    · refine ((sum_completes hnested hsound).bind (sum_sound hsound) fun r =>
        pure_completes (Expr.cond op left r)).mono ?_
      rintro _ _ ⟨hr, ⟨rfl, rfl⟩⟩ ks' hl
      rw [List.append_nil]
      exact .compare hl ((lookup_comparisonOps k op).1 hop) hr
  refine ((sum_completes hnested hsound).bind (sum_sound hsound) hright).mono ?_
  rintro _ _ ⟨hl, hcompare⟩
  exact hcompare _ hl

theorem conjunction_completes : Completes (conjunction nested) Conjunction := by
  refine (chain_completes (lookup_connective _ _) ⟨_, _, .mk⟩ (comparison_completes hnested hsound)
    (comparison_sound hsound)).mono fun ks e h => ?_
  exact h.recurse (fun he => .comparison he) fun hl hop hr => by cases hop; exact .chain hl hr

theorem disjunction_completes : Completes (disjunction nested) Disjunction := by
  refine (chain_completes (lookup_connective _ _) ⟨_, _, .mk⟩ (conjunction_completes hnested hsound)
    (conjunction_sound hsound)).mono fun ks e h => ?_
  exact h.recurse (fun he => .conjunction he) fun hl hop hr => by cases hop; exact .chain hl hr

end Levels

theorem expressionAt_completes (depth : Nat) : Completes (expressionAt depth) Disjunction := by
  induction depth with
  | zero =>
    exact unexpected_completes _
      ⟨_, _, .conjunction (.comparison (.sum (.term (.factor .true))))⟩
  | succ depth ih => exact disjunction_completes ih (expressionAt_sound depth)

theorem expression_completes : Completes expression Disjunction :=
  ⟨(expressionAt_completes 0).inhabited, fun ts _ h => (expressionAt_completes (ts.length + 1)).ends h⟩

/-! ## Statements -/

theorem names_completes : Completes (commaList identifier) Names :=
  (commaList_completes identifier_completes identifier_sound).mono fun _ _ => names_iff.2

theorem expressionStmt_completes : Completes expressionStmt Statement := by
  refine (expression_completes.bind expression_sound fun e =>
    (expect_completes .semicolon).bind (expect_sound _) fun _ => pure_completes (Stmt.expr e)).mono ?_
  rintro _ _ ⟨he, ⟨rfl, ⟨rfl, rfl⟩⟩⟩
  exact .expr he

theorem declaration_completes : Completes declaration Statement := by
  refine (typeName_completes.bind typeName_sound fun type => names_completes.bind names_sound
    fun names => (expect_completes .semicolon).bind (expect_sound _) fun _ =>
    pure_completes (Stmt.declare type names)).mono ?_
  rintro _ _ ⟨⟨k, rfl, hk⟩, ⟨hnames, ⟨rfl, ⟨rfl, rfl⟩⟩⟩⟩
  exact .declare hk hnames

theorem assigned_completes (x : String) :
    Completes (assigned x) (fun ks s => Statement (.identifier x :: .assign :: ks) s) := by
  refine (expression_completes.bind expression_sound fun e =>
    (expect_completes .semicolon).bind (expect_sound _) fun _ =>
    pure_completes (Stmt.assign x e)).mono ?_
  rintro _ _ ⟨he, ⟨rfl, ⟨rfl, rfl⟩⟩⟩
  exact .assign he

/-- The value of a `return`, which may be missing. -/
def Returnable (ks : List TokenKind) (value : Option Expr) : Prop :=
  Statement (.returnWord :: ks ++ [.semicolon]) (.ret value)

theorem returned_completes : Completes returned (fun ks s => Statement (.returnWord :: ks) s) := by
  have hnone : ∀ ks value, ks = [] ∧ value = none → Returnable ks value := by
    rintro _ _ ⟨rfl, rfl⟩
    exact .ret
  have hsome : Completes (some <$> expression) Returnable := by
    refine (expression_completes.bind expression_sound fun e => pure_completes (some e)).mono ?_
    rintro _ _ ⟨he, ⟨rfl, rfl⟩⟩
    rw [List.append_nil]
    exact .retValue he
  have hsound : Sound (some <$> expression) Returnable := by
    intro ts value rest h
    obtain ⟨e, hread, rfl⟩ := fmap_eq_ok.1 h
    obtain ⟨front, rfl, he⟩ := expression_sound hread
    exact ⟨front, rfl, .retValue he⟩
  refine ((((pure_completes none).mono hnone).ifNext hsome).bind
    (((pure_sound none).mono hnone).ifNext hsound) fun value =>
    (expect_completes .semicolon).bind (expect_sound _) fun _ =>
    pure_completes (Stmt.ret value)).mono ?_
  rintro _ _ ⟨hvalue, ⟨rfl, ⟨rfl, rfl⟩⟩⟩
  exact hvalue

section Nested

variable {stmt : Parse Stmt} (hstmt : Completes stmt Statement) (hsound : Sound stmt Statement)

include hstmt hsound

theorem block_completes : Completes (braced stmt) Block := by
  refine (braced_completes hstmt hsound statement_ne_nil).mono ?_
  rintro _ _ ⟨h⟩
  exact .braces h.statements

theorem definition_completes : Completes (definition stmt) Statement := by
  refine ((expect_completes .defWord).bind (expect_sound _) fun _ =>
    identifier_completes.bind identifier_sound fun name =>
    (expect_completes .leftParen).bind (expect_sound _) fun _ =>
    (parenList_completes identifier_completes identifier_sound).bind
      (parenList_sound identifier_sound) fun params =>
    (block_completes hstmt hsound).bind (block_sound hsound) fun body =>
    pure_completes (Stmt.define name params body)).mono ?_
  rintro _ _ ⟨rfl, ⟨rfl, ⟨rfl, ⟨hparams, ⟨hbody, ⟨rfl, rfl⟩⟩⟩⟩⟩⟩
  rw [List.append_nil]
  cases hparams with
  | empty => exact .define hbody
  | items hnames => simpa using Statement.defineParams (names_iff.2 hnames) hbody

theorem guarded_completes (node : Expr → List Stmt → Stmt) {word : TokenKind}
    (hnode : ∀ {ks e ks' body}, Disjunction ks e → Block ks' body →
      Statement (word :: ks ++ ks') (node e body)) :
    Completes (guarded node stmt) (fun ks s => Statement (word :: ks) s) := by
  refine (expression_completes.bind expression_sound fun e =>
    (block_completes hstmt hsound).bind (block_sound hsound) fun body =>
    pure_completes (node e body)).mono ?_
  rintro _ _ ⟨he, ⟨hbody, ⟨rfl, rfl⟩⟩⟩
  rw [List.append_nil]
  exact hnode he hbody

omit hstmt hsound in
theorem named_ends {x : String} {t : Token} {ts rest : List Token} (ht : t.kind = .identifier x)
    (h : named x (t :: ts) = .fail .unexpectedEnd rest) :
    ∃ more s, Statement (kinds (t :: ts) ++ more) s := by
  cases ts with
  | nil => exact expressionStmt_completes.ends h
  | cons u ts =>
    simp only [named] at h
    split at h
    next => exact declaration_completes.ends h
    next hu =>
      rw [kinds_cons, kinds_cons, ht, hu]
      exact (assigned_completes x).ends h
    next => exact expressionStmt_completes.ends h

theorem statementWith_completes : Completes (statementWith stmt) Statement := by
  refine ⟨⟨_, _, .skip⟩, fun ts rest h => ?_⟩
  cases ts with
  | nil => exact ⟨_, _, .skip⟩
  | cons t ts =>
    simp only [statementWith] at h
    split at h
    next =>
      obtain ⟨more, body, hbody⟩ := (block_completes hstmt hsound).ends (map_eq_fail h)
      exact ⟨more, _, .block hbody⟩
    next => cases h
    next => exact (definition_completes hstmt hsound).ends h
    next ht =>
      rw [kinds_cons, ht]
      exact (guarded_completes hstmt hsound .when .when).ends h
    next ht =>
      rw [kinds_cons, ht]
      exact (guarded_completes hstmt hsound .loop .loop).ends h
    next ht =>
      rw [kinds_cons, ht]
      exact returned_completes.ends h
    next => exact declaration_completes.ends h
    next ht => exact named_ends ht h
    next => exact expressionStmt_completes.ends h

end Nested

theorem statementAt_completes (depth : Nat) : Completes (statementAt depth) Statement := by
  induction depth with
  | zero => exact unexpected_completes _ ⟨_, _, .skip⟩
  | succ depth ih => exact statementWith_completes ih (statementAt_sound depth)

theorem statement_completes : Completes statement Statement :=
  ⟨(statementAt_completes 0).inhabited, fun ts _ h => (statementAt_completes (ts.length + 1)).ends h⟩

/-! ## Programs -/

/-- What stands in front of the name of a function. -/
inductive ReturnType : List TokenKind → Option String → Prop
  | absent : ReturnType [] none
  | present {k t} : TypeName k t → ReturnType [k] (some t)

theorem returnType_sound : Sound returnType ReturnType := by
  intro ts returns rest h
  unfold returnType at h
  split at h
  · obtain ⟨type, hread, rfl⟩ := map_eq_ok.1 h
    obtain ⟨t, rfl, ht⟩ := typeName_eq_ok.1 hread
    exact ⟨[t], rfl, .present ht⟩
  · cases h
    exact ⟨[], rfl, .absent⟩

theorem returnType_completes : Completes returnType ReturnType := by
  refine completes_of_cons ⟨_, _, .absent⟩ fun t ts rest h => ?_
  unfold returnType at h
  split at h
  · have hread := map_eq_fail h
    simp only [typeName] at hread
    split at hread <;> cases hread
  · cases h

theorem untyped_completes (returns : Option String) :
    Completes (untyped returns) (Untyped returns) := by
  refine (identifier_completes.bind identifier_sound fun name =>
    (expect_completes .leftParen).bind (expect_sound _) fun _ =>
    (parenList_completes typeName_completes typeName_sound).bind
      (parenList_sound typeName_sound) fun types =>
    (expect_completes .semicolon).bind (expect_sound _) fun _ =>
    pure_completes (⟨name, types, returns⟩ : Tremolo.Signature)).mono ?_
  rintro _ _ ⟨rfl, ⟨rfl, ⟨htypes, ⟨rfl, ⟨rfl, rfl⟩⟩⟩⟩⟩
  obtain ⟨ks, rfl, hparameters⟩ := parameters_iff.1 htypes
  simpa using Untyped.mk hparameters

theorem signature_completes : Completes signature Grammar.Signature := by
  rw [signature_eq]
  refine (returnType_completes.bind returnType_sound untyped_completes).mono ?_
  rintro _ _ ⟨hreturns, ⟨htypes⟩⟩
  cases hreturns with
  | absent => exact .plain htypes
  | present ht => exact .typed ht htypes

theorem module_completes : Completes moduleUse Module := by
  refine (identifier_completes.bind identifier_sound fun name =>
    (braced_completes signature_completes signature_sound signature_ne_nil).bind
      (braced_sound signature_sound signature_ne_nil) fun functions =>
    pure_completes (⟨name, functions⟩ : ModuleUse)).mono ?_
  rintro _ _ ⟨rfl, ⟨⟨hfunctions⟩, ⟨rfl, rfl⟩⟩⟩
  rw [List.append_nil]
  exact .mk hfunctions

theorem headerTypes_completes : Completes headerTypes TypesPart := by
  refine ((expect_completes .typesWord).bind (expect_sound _) fun _ =>
    (expect_completes .colon).bind (expect_sound _) fun _ => names_completes.bind names_sound
    fun names => (expect_completes .semicolon).bind (expect_sound _) fun _ =>
    pure_completes names).mono ?_
  rintro _ _ ⟨rfl, ⟨rfl, ⟨hnames, ⟨rfl, ⟨rfl, rfl⟩⟩⟩⟩⟩
  exact .present hnames

theorem headerModules_completes : Completes headerModules ModulesPart := by
  refine ((expect_completes .modulesWord).bind (expect_sound _) fun _ =>
    braced_completes module_completes module_sound module_ne_nil).mono ?_
  rintro _ _ ⟨rfl, ⟨hmodules⟩⟩
  exact .present (modules_iff.2 hmodules)

theorem header_completes : Completes (some <$> header) HeaderPart := by
  have htypes : Completes (ifNext .typesWord headerTypes (pure [])) TypesPart := by
    refine headerTypes_completes.ifNext ((pure_completes []).mono ?_)
    rintro _ _ ⟨rfl, rfl⟩
    exact .absent
  have hmodules : Completes (ifNext .modulesWord headerModules (pure [])) ModulesPart := by
    refine headerModules_completes.ifNext ((pure_completes []).mono ?_)
    rintro _ _ ⟨rfl, rfl⟩
    exact .absent
  have hheader : Completes header (fun ks h => HeaderPart ks (some h)) := by
    refine ((expect_completes .declarationsWord).bind (expect_sound _) fun _ =>
      (expect_completes .leftBrace).bind (expect_sound _) fun _ =>
      htypes.bind (optional_sound headerTypes_sound .absent) fun types =>
      hmodules.bind (optional_sound headerModules_sound .absent) fun modules =>
      (expect_completes .rightBrace).bind (expect_sound _) fun _ =>
      pure_completes (⟨types, modules⟩ : Header)).mono ?_
    rintro _ _ ⟨rfl, ⟨rfl, ⟨htypes, ⟨hmodules, ⟨rfl, ⟨rfl, rfl⟩⟩⟩⟩⟩⟩
    simpa using HeaderPart.present htypes hmodules
  refine (hheader.bind header_sound fun h => pure_completes (some h)).mono ?_
  rintro _ _ ⟨hpart, ⟨rfl, rfl⟩⟩
  rwa [List.append_nil]

/-- A program that breaks off can be finished. -/
theorem program_completes : Completes program Grammar.Program := by
  have hhead : Completes (ifNext .declarationsWord (some <$> header) (pure none)) HeaderPart := by
    refine header_completes.ifNext ((pure_completes none).mono ?_)
    rintro _ _ ⟨rfl, rfl⟩
    exact .absent
  refine (hhead.bind (optional_sound headerPart_sound .absent) fun head =>
    (many_completes _ statement_completes statement_sound).bind
      (many_sound statement_sound statement_ne_nil) fun body =>
    pure_completes (⟨head, body⟩ : Tremolo.Program)).mono ?_
  rintro _ _ ⟨hpart, ⟨hbody, ⟨rfl, rfl⟩⟩⟩
  rw [List.append_nil]
  exact .mk hpart hbody.statements

end Tremolo.Parse
