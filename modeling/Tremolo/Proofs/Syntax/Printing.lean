import Tremolo.Proofs.Syntax.Grammar
import Tremolo.Syntax.Writable

/-! # Written programs belong to the grammar

The tokens that a program is written with stand for that program, and no shorter list of tokens does; so
there are parentheses where the grammar asks for them and nowhere else.

* `Program.derived` — the tokens of a program stand for it;
* `Program.shortest` — no shorter list does. -/

namespace Tremolo

open Grammar

variable {ks : List TokenKind} {e : Expr}

/-! ## Levels -/

/-- The relation of the grammar at a level. -/
def Level.Derives : Level → List TokenKind → Expr → Prop
  | .disjunction => Disjunction
  | .conjunction => Conjunction
  | .comparison => Comparison
  | .sum => Sum
  | .term => Term
  | .factor => Factor

/-- The next level, if there is a tighter one. -/
def Level.tighter : Level → Level
  | .disjunction => .conjunction
  | .conjunction => .comparison
  | .comparison => .sum
  | .sum => .term
  | .term => .factor
  | .factor => .factor

theorem Level.rank_le (level : Level) : level.rank ≤ Level.factor.rank := by
  cases level <;> simp [Level.rank]

theorem Level.eq_of_rank {a b : Level} (h : a.rank = b.rank) : a = b := by
  cases a <;> cases b <;> simp [Level.rank] at h ⊢

theorem Level.rank_tighter {level : Level} (h : level.rank < Level.factor.rank) :
    level.tighter.rank = level.rank + 1 := by
  cases level <;> simp [Level.rank, Level.tighter] at h ⊢

theorem Level.Derives.ofTighter {level : Level} (h : level.tighter.Derives ks e) :
    level.Derives ks e := by
  cases level with
  | disjunction => exact Disjunction.conjunction h
  | conjunction => exact Conjunction.comparison h
  | comparison => exact Comparison.sum h
  | sum => exact Sum.term h
  | term => exact Term.factor h
  | factor => exact h

/-- What stands at a tight place can stand at a loose one. -/
theorem Level.Derives.loosen {level place : Level} (h : level.Derives ks e)
    (hrank : place.rank ≤ level.rank) : place.Derives ks e := by
  -- One level at a time, by induction on how many there are in between.
  obtain ⟨d, hd⟩ := Nat.exists_eq_add_of_le hrank
  induction d generalizing place with
  | zero => rwa [Level.eq_of_rank (a := place) (b := level) (by omega)]
  | succ d ih =>
    have htighter : place.tighter.rank = place.rank + 1 :=
      Level.rank_tighter (by have := level.rank_le; omega)
    exact Level.Derives.ofTighter (ih (by omega) (by omega))

theorem Level.Derives.parenthesized {level : Level} (h : level.Derives ks e) (place : Level) :
    place.Derives (parenthesized level place ks) e := by
  unfold Tremolo.parenthesized
  split
  · have hdisjunction : Level.disjunction.Derives ks e := h.loosen (Nat.zero_le _)
    have hfactor : Level.factor.Derives (.leftParen :: ks ++ [.rightParen]) e :=
      Factor.paren hdisjunction
    exact hfactor.loosen place.rank_le
  · exact h.loosen (by omega)

/-! ## Expressions -/

theorem typeName_token (name : String) : TypeName (typeToken name) name := by
  unfold typeToken
  split
  · exact .builtin
  · exact .declared

theorem names_tokens : ∀ {names : List String}, names ≠ [] → Names (nameTokens names) names
  | [_], _ => .one
  | _ :: y :: names, _ => .more (names_tokens (List.cons_ne_nil y names))

theorem typeNames_tokens : ∀ {names : List String}, names ≠ [] →
    TypeNames (commaSeparated (names.map fun t => [typeToken t])) names
  | [x], _ => .one (typeName_token x)
  | x :: y :: names, _ => .more (typeName_token x) (typeNames_tokens (List.cons_ne_nil y names))

theorem UnaryOp.sign_token (op : UnaryOp) : Sign op.token op := by
  cases op
  · exact .plus
  · exact .minus

theorem BinaryOp.derives {op : BinaryOp} {ks ks' : List TokenKind} {l r : Expr}
    (hl : op.level.Derives ks l) (hr : op.rightLevel.Derives ks' r) :
    op.level.Derives (ks ++ op.token :: ks') (.binary op l r) := by
  cases op with
  | add => exact Sum.chain hl .plus hr
  | sub => exact Sum.chain hl .minus hr
  | mul => exact Term.chain hl .star hr
  | div => exact Term.chain hl .slash hr

theorem CondOp.derives {op : CondOp} {ks ks' : List TokenKind} {l r : Expr}
    (hl : op.leftLevel.Derives ks l) (hr : op.rightLevel.Derives ks' r) :
    op.level.Derives (ks ++ op.token :: ks') (.cond op l r) := by
  cases op with
  | eq => exact Comparison.compare hl .eq hr
  | ne => exact Comparison.compare hl .ne hr
  | lt => exact Comparison.compare hl .lt hr
  | gt => exact Comparison.compare hl .gt hr
  | le => exact Comparison.compare hl .le hr
  | ge => exact Comparison.compare hl .ge hr
  | and => exact Conjunction.chain hl hr
  | or => exact Disjunction.chain hl hr

theorem Level.derives_factor (h : Factor ks e) (place : Level) : place.Derives ks e :=
  (show Level.factor.Derives ks e from h).loosen place.rank_le

theorem factor_call (name : String) {args : List Expr}
    (hargs : args ≠ [] → Arguments (commaSeparated (argTokens args)) args) (place : Level) :
    Factor ((Expr.call name args).tokens place) (.call name args) := by
  cases args with
  | nil => exact .call
  | cons e es => exact .callArgs (hargs (by simp))

mutual

theorem Expr.derived : ∀ (e : Expr) (place : Level), place.Derives (e.tokens place) e
  | .int _, place => place.derives_factor .int
  | .float _, place => place.derives_factor .float
  | .string _, place => place.derives_factor .string
  | .bool true, place => place.derives_factor .true
  | .bool false, place => place.derives_factor .false
  | .var _, place => place.derives_factor .var
  | .unary op operand, place => place.derives_factor (.sign op.sign_token (operand.derived .factor))
  | .binary op left right, place =>
    (BinaryOp.derives (left.derived op.level) (right.derived op.rightLevel)).parenthesized place
  | .cond op left right, place =>
    (CondOp.derives (left.derived op.leftLevel) (right.derived op.rightLevel)).parenthesized place
  | .call name args, place => place.derives_factor (factor_call name (arguments_derived args) place)

theorem arguments_derived : ∀ args : List Expr, args ≠ [] →
    Arguments (commaSeparated (argTokens args)) args
  | [e], _ => .one (e.derived .disjunction)
  | e :: f :: es, _ => .more (e.derived .disjunction) (arguments_derived (f :: es) (by simp))

end

/-! ## Statements -/

theorem statement_define (name : String) (params : List String) {ks : List TokenKind}
    {body : List Stmt} (hbody : Block ks body) :
    Statement (.defWord :: .identifier name :: .leftParen :: nameTokens params ++ .rightParen :: ks)
      (.define name params body) := by
  cases params with
  | nil => exact .define hbody
  | cons x xs => exact .defineParams (names_tokens (by simp)) hbody

mutual

theorem Stmt.derived [Alphabet] : ∀ s : Stmt, s.writable = true → Statement s.tokens s
  | .skip, _ => .skip
  | .block body, h => .block (.braces (statements_derived body h))
  | .declare type names, h => by
    have hnames : names ≠ [] := by
      rintro rfl
      simp [Stmt.writable] at h
    exact .declare (typeName_token type) (names_tokens hnames)
  | .define name params body, h => by
    simp only [Stmt.writable, Bool.and_eq_true] at h
    have hdefine := statement_define name params (.braces (statements_derived body h.2))
    simpa [Stmt.tokens] using hdefine
  | .assign _ value, _ => .assign (value.derived .disjunction)
  | .when condition body, h => by
    simp only [Stmt.writable, Bool.and_eq_true] at h
    have hwhen := Statement.when (condition.derived .disjunction) (.braces (statements_derived body h.2))
    simpa [Stmt.tokens, Expr.allTokens] using hwhen
  | .loop condition body, h => by
    simp only [Stmt.writable, Bool.and_eq_true] at h
    have hloop := Statement.loop (condition.derived .disjunction) (.braces (statements_derived body h.2))
    simpa [Stmt.tokens, Expr.allTokens] using hloop
  | .ret none, _ => .ret
  | .ret (some e), _ => .retValue (e.derived .disjunction)
  | .expr e, _ => .expr (e.derived .disjunction)

theorem statements_derived [Alphabet] :
    ∀ ss : List Stmt, stmtsWritable ss = true → Statements (stmtTokens ss) ss
  | [], _ => .nil
  | s :: ss, h => by
    simp only [stmtsWritable, Bool.and_eq_true] at h
    exact .cons (s.derived h.1) (statements_derived ss h.2)

end

/-! ## Headers -/

theorem parameters_derived (types : List String) :
    Parameters (commaSeparated (types.map fun t => [typeToken t])) types := by
  cases types with
  | nil => exact .none
  | cons t ts => exact .some (typeNames_tokens (by simp))

theorem Signature.derived (s : Signature) : Grammar.Signature s.tokens s := by
  obtain ⟨name, types, returns⟩ := s
  cases returns with
  | none => exact .plain (parameters_derived types)
  | some t => exact .typed (typeName_token t) (parameters_derived types)

theorem repeated_flatMap {α : Type} {R : List TokenKind → α → Prop} {tokens : α → List TokenKind}
    (h : ∀ a, R (tokens a) a) (as : List α) : Repeated R (as.flatMap tokens) as := by
  induction as with
  | nil => exact .nil
  | cons a as ih => exact .cons (h a) ih

theorem ModuleUse.derived (m : ModuleUse) : Module m.tokens m :=
  .mk (repeated_flatMap Signature.derived m.functions)

theorem Header.derived (h : Header) : HeaderPart h.tokens (some h) := by
  obtain ⟨types, modules⟩ := h
  have htypes : TypesPart (if types.isEmpty then [] else
      .typesWord :: .colon :: nameTokens types ++ [.semicolon]) types := by
    cases types with
    | nil => exact .absent
    | cons t ts => exact .present (names_tokens (by simp))
  have hmodules : ModulesPart (if modules.isEmpty then [] else
      .modulesWord :: .leftBrace :: modules.flatMap ModuleUse.tokens ++ [.rightBrace]) modules := by
    cases modules with
    | nil => exact .absent
    | cons m ms => exact .present (modules_iff.2 (repeated_flatMap ModuleUse.derived (m :: ms)))
  exact .present htypes hmodules

/-- The tokens of a program stand for it. -/
theorem Program.derived [Alphabet] (p : Program) (h : p.writable = true) :
    Grammar.Program p.tokens p := by
  obtain ⟨header, body⟩ := p
  simp only [Program.writable, Bool.and_eq_true] at h
  refine .mk ?_ (statements_derived body h.2)
  cases header with
  | none => exact .absent
  | some header => exact header.derived

/-! ## No shorter text

The number of tokens at a place tells how often the levels ask for parentheses; every derivation has at
least as many. -/

theorem length_parenthesized (level place : Level) (ks : List TokenKind) :
    (parenthesized level place ks).length =
      ks.length + if level.rank < place.rank then 2 else 0 := by
  unfold parenthesized
  split <;> simp

/-- The place decides only about the parentheses around an expression. -/
theorem Expr.tokens_eq (e : Expr) (place : Level) :
    e.tokens place = parenthesized e.level place (e.tokens .disjunction) := by
  have hfactor : ¬ Level.factor.rank < place.rank := Nat.not_lt.2 place.rank_le
  cases e with
  | binary | cond => simp [Expr.tokens, Expr.level, parenthesized, Level.rank]
  | _ => simp [Expr.tokens, Expr.level, parenthesized, hfactor]

theorem Expr.length_tokens (e : Expr) (place : Level) :
    (e.tokens place).length =
      (e.tokens .disjunction).length + if e.level.rank < place.rank then 2 else 0 := by
  rw [e.tokens_eq place, length_parenthesized]

theorem Expr.length_tokens_le (e : Expr) (place : Level) :
    (e.tokens place).length ≤ (e.tokens .disjunction).length + 2 := by
  rw [e.length_tokens place]
  split <;> omega

theorem Expr.length_tokens_tighter (e : Expr) (place : Level)
    (h : (e.tokens place.tighter).length ≤ ks.length) : (e.tokens place).length ≤ ks.length := by
  have hrank : place.rank ≤ place.tighter.rank := by
    cases place <;> simp [Level.rank, Level.tighter]
  rw [e.length_tokens place]
  rw [e.length_tokens place.tighter] at h
  split <;> split at h <;> omega

section Operations

variable {l r : Expr} {ks' : List TokenKind}

theorem BinaryOp.shortest (op : BinaryOp) (hl : (l.tokens op.level).length ≤ ks.length)
    (hr : (r.tokens op.rightLevel).length ≤ ks'.length) (k : TokenKind) :
    ((Expr.binary op l r).tokens op.level).length ≤ (ks ++ k :: ks').length := by
  simp only [Expr.tokens, length_parenthesized, Nat.lt_irrefl, if_false, List.length_append,
    List.length_cons]
  omega

theorem CondOp.shortest (op : CondOp) (hl : (l.tokens op.leftLevel).length ≤ ks.length)
    (hr : (r.tokens op.rightLevel).length ≤ ks'.length) (k : TokenKind) :
    ((Expr.cond op l r).tokens op.level).length ≤ (ks ++ k :: ks').length := by
  simp only [Expr.tokens, length_parenthesized, Nat.lt_irrefl, if_false, List.length_append,
    List.length_cons]
  omega

end Operations

theorem length_commaSeparated_le (ks : List TokenKind) (rest : List (List TokenKind)) :
    (commaSeparated (ks :: rest)).length ≤ ks.length + 1 + (commaSeparated rest).length := by
  cases rest with
  | nil => simp [commaSeparated]
  | cons ls rest =>
    simp only [commaSeparated, List.length_append, List.length_cons]
    omega

mutual

theorem factor_shortest {ks : List TokenKind} {e : Expr} :
    Factor ks e → (e.tokens .factor).length ≤ ks.length
  | .sign _ h => by simpa [Expr.tokens] using factor_shortest h
  | .int | .float | .string | .true | .false | .var => by simp [Expr.tokens]
  | .call => by simp [Expr.tokens, argTokens, commaSeparated]
  | .callArgs h => by simpa [Expr.tokens] using arguments_shortest h
  | .paren h => by
    have hinner := disjunction_shortest h
    have hparens := e.length_tokens_le .factor
    simp only [List.length_append, List.length_cons, List.length_nil]
    omega

theorem term_shortest {ks : List TokenKind} {e : Expr} :
    Term ks e → (e.tokens .term).length ≤ ks.length
  | .factor h => e.length_tokens_tighter .term (factor_shortest h)
  | .chain h .star hr => BinaryOp.shortest .mul (term_shortest h) (factor_shortest hr) _
  | .chain h .slash hr => BinaryOp.shortest .div (term_shortest h) (factor_shortest hr) _

theorem sum_shortest {ks : List TokenKind} {e : Expr} :
    Sum ks e → (e.tokens .sum).length ≤ ks.length
  | .term h => e.length_tokens_tighter .sum (term_shortest h)
  | .chain h .plus hr => BinaryOp.shortest .add (sum_shortest h) (term_shortest hr) _
  | .chain h .minus hr => BinaryOp.shortest .sub (sum_shortest h) (term_shortest hr) _

theorem comparison_shortest {ks : List TokenKind} {e : Expr} :
    Comparison ks e → (e.tokens .comparison).length ≤ ks.length
  | .sum h => e.length_tokens_tighter .comparison (sum_shortest h)
  | .compare h hop hr => by
    have hl := sum_shortest h
    have hr := sum_shortest hr
    cases hop with
    | eq => exact CondOp.shortest .eq hl hr _
    | ne => exact CondOp.shortest .ne hl hr _
    | lt => exact CondOp.shortest .lt hl hr _
    | gt => exact CondOp.shortest .gt hl hr _
    | le => exact CondOp.shortest .le hl hr _
    | ge => exact CondOp.shortest .ge hl hr _

theorem conjunction_shortest {ks : List TokenKind} {e : Expr} :
    Conjunction ks e → (e.tokens .conjunction).length ≤ ks.length
  | .comparison h => e.length_tokens_tighter .conjunction (comparison_shortest h)
  | .chain h hr => CondOp.shortest .and (conjunction_shortest h) (comparison_shortest hr) _

theorem disjunction_shortest {ks : List TokenKind} {e : Expr} :
    Disjunction ks e → (e.tokens .disjunction).length ≤ ks.length
  | .conjunction h => e.length_tokens_tighter .disjunction (conjunction_shortest h)
  | .chain h hr => CondOp.shortest .or (disjunction_shortest h) (conjunction_shortest hr) _

theorem arguments_shortest {ks : List TokenKind} {es : List Expr} :
    Arguments ks es → (commaSeparated (argTokens es)).length ≤ ks.length
  | .one h => disjunction_shortest h
  | @Arguments.more _ e _ es h hs => by
    have hfirst := disjunction_shortest h
    have hrest := arguments_shortest hs
    have hcomma := length_commaSeparated_le (e.tokens .disjunction) (argTokens es)
    simp only [argTokens, List.length_append, List.length_cons]
    omega

end

theorem names_shortest {names : List String} (h : Names ks names) :
    (nameTokens names).length ≤ ks.length := by
  induction h with
  | one => simp [nameTokens, commaSeparated]
  | @more x ks xs _ ih =>
    have hcomma := length_commaSeparated_le [.identifier x] (xs.map fun y => [.identifier y])
    simp only [nameTokens, List.map_cons, List.length_cons, List.length_nil] at ih hcomma ⊢
    omega

theorem typeNames_shortest {names : List String} (h : TypeNames ks names) :
    (commaSeparated (names.map fun t => [typeToken t])).length ≤ ks.length := by
  induction h with
  | one => simp [commaSeparated]
  | @more _ x ks xs _ _ ih =>
    have hcomma := length_commaSeparated_le [typeToken x] (xs.map fun t => [typeToken t])
    simp only [List.map_cons, List.length_cons, List.length_nil] at ih hcomma ⊢
    omega

mutual

theorem statement_shortest {ks : List TokenKind} {s : Stmt} :
    Statement ks s → s.tokens.length ≤ ks.length
  | .skip => by simp [Stmt.tokens]
  | .block h => by
    have hbody := block_shortest h
    simp only [Stmt.tokens, List.length_append, List.length_cons, List.length_nil]
    omega
  | .declare _ hnames => by simpa [Stmt.tokens] using names_shortest hnames
  | .define h => by
    have hbody := block_shortest h
    simp only [Stmt.tokens, nameTokens, List.map_nil, commaSeparated, List.length_append,
      List.length_cons, List.length_nil]
    omega
  | .defineParams hnames h => by
    have hparams := names_shortest hnames
    have hbody := block_shortest h
    simp only [Stmt.tokens, List.length_append, List.length_cons, List.length_nil]
    omega
  | .assign h => by simpa [Stmt.tokens, Expr.allTokens] using disjunction_shortest h
  | .when h hs => by
    have hcondition := disjunction_shortest h
    have hbody := block_shortest hs
    simp only [Stmt.tokens, Expr.allTokens, List.length_append, List.length_cons, List.length_nil]
    omega
  | .loop h hs => by
    have hcondition := disjunction_shortest h
    have hbody := block_shortest hs
    simp only [Stmt.tokens, Expr.allTokens, List.length_append, List.length_cons, List.length_nil]
    omega
  | .ret => by simp [Stmt.tokens]
  | .retValue h => by simpa [Stmt.tokens, Expr.allTokens] using disjunction_shortest h
  | .expr h => by simpa [Stmt.tokens, Expr.allTokens] using disjunction_shortest h

theorem statements_shortest {ks : List TokenKind} {ss : List Stmt} :
    Statements ks ss → (stmtTokens ss).length ≤ ks.length
  | .nil => Nat.le_refl _
  | .cons h hs => by
    have hfirst := statement_shortest h
    have hrest := statements_shortest hs
    simp only [stmtTokens, List.length_append]
    omega

theorem block_shortest {ks : List TokenKind} {body : List Stmt} :
    Block ks body → (stmtTokens body).length + 2 ≤ ks.length
  | .braces h => by simpa using statements_shortest h

end

theorem parameters_shortest {types : List String} (h : Parameters ks types) :
    (commaSeparated (types.map fun t => [typeToken t])).length ≤ ks.length := by
  cases h with
  | none => exact Nat.le_refl _
  | some h => exact typeNames_shortest h

theorem signature_shortest {s : Signature} (h : Grammar.Signature ks s) :
    s.tokens.length ≤ ks.length := by
  cases h with
  | plain h => simpa [Signature.tokens] using parameters_shortest h
  | typed _ h => simpa [Signature.tokens] using parameters_shortest h

theorem repeated_shortest {α : Type} {R : List TokenKind → α → Prop} (tokens : α → List TokenKind)
    (hR : ∀ ks a, R ks a → (tokens a).length ≤ ks.length) {as : List α} (h : Repeated R ks as) :
    (as.flatMap tokens).length ≤ ks.length := by
  induction h with
  | nil => exact Nat.le_refl _
  | cons ha _ ih =>
    have hfirst := hR _ _ ha
    simp only [List.flatMap_cons, List.length_append]
    omega

theorem module_shortest {m : ModuleUse} (h : Module ks m) : m.tokens.length ≤ ks.length := by
  obtain ⟨hfunctions⟩ := h
  have hsignatures := repeated_shortest Signature.tokens (fun _ _ h => signature_shortest h) hfunctions
  simp only [ModuleUse.tokens, List.length_append, List.length_cons, List.length_nil]
  omega

theorem header_shortest {header : Header} (h : HeaderPart ks (some header)) :
    header.tokens.length ≤ ks.length := by
  cases h with
  | @present ks ts ks' ms htypes hmodules =>
    -- A part without content is left out, and takes no less if it is there.
    have htypes' : (if ts.isEmpty then [] else
        .typesWord :: .colon :: nameTokens ts ++ [.semicolon]).length ≤ ks.length := by
      cases htypes with
      | absent => exact Nat.le_refl _
      | present h =>
        have hnames := names_shortest h
        split
        · exact Nat.zero_le _
        · simp only [List.length_append, List.length_cons, List.length_nil]
          omega
    have hmodules' : (if ms.isEmpty then [] else
        .modulesWord :: .leftBrace :: ms.flatMap ModuleUse.tokens ++ [.rightBrace]).length ≤
          ks'.length := by
      cases hmodules with
      | absent => exact Nat.le_refl _
      | present h =>
        have huses := repeated_shortest ModuleUse.tokens (fun _ _ h => module_shortest h)
          (modules_iff.1 h)
        split
        · exact Nat.zero_le _
        · simp only [List.length_append, List.length_cons, List.length_nil]
          omega
    simp only [Header.tokens, List.length_append, List.length_cons] at htypes' hmodules' ⊢
    omega

/-- No shorter list of tokens stands for the program. -/
theorem Program.shortest {p : Program} (h : Grammar.Program ks p) : p.tokens.length ≤ ks.length := by
  cases h with
  | @mk ks header ks' body hheader hbody =>
    have hstatements := statements_shortest hbody
    have hheader' : ((header.map Header.tokens).getD []).length ≤ ks.length := by
      cases header with
      | none => simp
      | some header => exact header_shortest hheader
    simp only [Program.tokens, List.length_append]
    omega

end Tremolo
