import Tremolo.Proofs.Syntax.Printing
import Tremolo.Proofs.Syntax.Programs
import Tremolo.Proofs.Token.Scanning

/-! # Written programs are read back

A program that can be written is written with tokens that can be written (`Program.all_tokens`).  These
are scanned from its text one by one, and the grammar gives back the program that they stand for. -/

namespace Tremolo

section Words

variable [Alphabet]

/-! ## The tokens of writable programs -/

theorem all_parenthesized (level place : Level) (ks : List TokenKind) :
    (parenthesized level place ks).all TokenKind.writable = ks.all TokenKind.writable := by
  unfold parenthesized
  split <;> simp [TokenKind.writable]

theorem all_commaSeparated (ls : List (List TokenKind)) :
    (commaSeparated ls).all TokenKind.writable = ls.all fun ks => ks.all TokenKind.writable := by
  induction ls with
  | nil => rfl
  | cons ks rest ih =>
    cases rest with
    | nil => simp [commaSeparated]
    | cons _ _ =>
      rw [commaSeparated, List.all_append, List.all_cons, ih]
      · simp [TokenKind.writable]
      · simp

theorem all_nameTokens (names : List String) :
    (nameTokens names).all TokenKind.writable = names.all isIdentifier := by
  simp [nameTokens, all_commaSeparated, List.all_map, Function.comp_def, TokenKind.writable]

theorem writable_typeToken (name : String) : (typeToken name).writable = isTypeName name := by
  unfold typeToken isTypeName
  split <;> simp_all [TokenKind.writable]

theorem UnaryOp.writable_token (op : UnaryOp) : op.token.writable = true := by
  cases op <;> rfl

theorem BinaryOp.writable_token (op : BinaryOp) : op.token.writable = true := by
  cases op <;> rfl

theorem CondOp.writable_token (op : CondOp) : op.token.writable = true := by
  cases op <;> rfl

mutual

theorem Expr.all_tokens : ∀ (e : Expr) (place : Level),
    (e.tokens place).all TokenKind.writable = e.writable
  | .int _, _ | .float _, _ | .string _, _ | .var _, _ => by
    simp [Expr.tokens, Expr.writable, TokenKind.writable]
  | .bool true, _ | .bool false, _ => rfl
  | .unary op operand, _ => by
    simp [Expr.tokens, Expr.writable, op.writable_token, operand.all_tokens]
  | .binary op left right, place => by
    simp [Expr.tokens, Expr.writable, all_parenthesized, op.writable_token, left.all_tokens,
      right.all_tokens]
  | .cond op left right, place => by
    simp [Expr.tokens, Expr.writable, all_parenthesized, op.writable_token, left.all_tokens,
      right.all_tokens]
  | .call name args, _ => by
    have hargs := all_argTokens args
    simp [Expr.tokens, Expr.writable, all_commaSeparated, hargs, TokenKind.writable]

theorem all_argTokens : ∀ args : List Expr,
    ((argTokens args).all fun ks => ks.all TokenKind.writable) = argsWritable args
  | [] => rfl
  | e :: es => by simp only [argTokens, argsWritable, List.all_cons, e.all_tokens, all_argTokens es]

end

mutual

theorem Stmt.all_tokens : ∀ s : Stmt, s.writable = true → s.tokens.all TokenKind.writable = true
  | .skip, _ => rfl
  | .block body, h => by
    simpa [Stmt.tokens, TokenKind.writable] using all_stmtTokens body h
  | .declare type names, h => by
    simp only [Stmt.writable, Bool.and_eq_true] at h
    simp only [Stmt.tokens, List.cons_append, List.all_cons, List.all_append, writable_typeToken,
      all_nameTokens, h.1.1, h.2]
    rfl
  | .define name params body, h => by
    simp only [Stmt.writable, Bool.and_eq_true] at h
    have hbody := all_stmtTokens body h.2
    simp [Stmt.tokens, all_nameTokens, h.1.1, h.1.2, hbody, TokenKind.writable]
  | .assign name value, h => by
    simp only [Stmt.writable, Bool.and_eq_true] at h
    simp [Stmt.tokens, Expr.allTokens, value.all_tokens, h, TokenKind.writable]
  | .when condition body, h => by
    simp only [Stmt.writable, Bool.and_eq_true] at h
    have hbody := all_stmtTokens body h.2
    simp [Stmt.tokens, Expr.allTokens, condition.all_tokens, h.1, hbody, TokenKind.writable]
  | .loop condition body, h => by
    simp only [Stmt.writable, Bool.and_eq_true] at h
    have hbody := all_stmtTokens body h.2
    simp [Stmt.tokens, Expr.allTokens, condition.all_tokens, h.1, hbody, TokenKind.writable]
  | .ret none, _ => rfl
  | .ret (some e), h => by
    have he : e.writable = true := h
    simp [Stmt.tokens, Expr.allTokens, e.all_tokens, he, TokenKind.writable]
  | .expr e, h => by
    have he : e.writable = true := h
    simp [Stmt.tokens, Expr.allTokens, e.all_tokens, he, TokenKind.writable]

theorem all_stmtTokens : ∀ ss : List Stmt, stmtsWritable ss = true →
    (stmtTokens ss).all TokenKind.writable = true
  | [], _ => rfl
  | s :: ss, h => by
    simp only [stmtsWritable, Bool.and_eq_true] at h
    simp only [stmtTokens, List.all_append, s.all_tokens h.1, all_stmtTokens ss h.2, Bool.and_self]

end

theorem Signature.all_tokens {s : Signature} (h : s.writable = true) :
    s.tokens.all TokenKind.writable = true := by
  obtain ⟨name, types, returns⟩ := s
  simp only [Signature.writable, Bool.and_eq_true] at h
  obtain ⟨⟨hname, htypes⟩, hreturns⟩ := h
  have hparameters : (commaSeparated (types.map fun t => [typeToken t])).all TokenKind.writable =
      true := by
    rw [all_commaSeparated, List.all_map]
    simpa [Function.comp_def, writable_typeToken] using htypes
  have hreturn : ((returns.map typeToken).toList).all TokenKind.writable = true := by
    cases returns with
    | none => rfl
    | some t => simpa [writable_typeToken] using hreturns
  simp [Signature.tokens, hparameters, hreturn, hname, TokenKind.writable]

theorem all_flatMap {α : Type} {tokens : α → List TokenKind} {writable : α → Bool}
    (h : ∀ a, writable a = true → (tokens a).all TokenKind.writable = true) {as : List α}
    (has : as.all writable = true) : (as.flatMap tokens).all TokenKind.writable = true := by
  rw [List.all_flatMap, List.all_eq_true]
  exact fun a ha => h a (List.all_eq_true.1 has a ha)

theorem ModuleUse.all_tokens {m : ModuleUse} (h : m.writable = true) :
    m.tokens.all TokenKind.writable = true := by
  simp only [ModuleUse.writable, Bool.and_eq_true] at h
  have hfunctions := all_flatMap (fun _ => Signature.all_tokens) h.2
  simp [ModuleUse.tokens, h.1, hfunctions, TokenKind.writable]

theorem Header.all_tokens {header : Header} (h : header.writable = true) :
    header.tokens.all TokenKind.writable = true := by
  simp only [Header.writable, Bool.and_eq_true] at h
  have hmodules := all_flatMap (fun _ => ModuleUse.all_tokens) h.2
  simp only [Header.tokens]
  split <;> split <;> simp [all_nameTokens, h.1, hmodules, TokenKind.writable]

theorem Program.all_tokens {p : Program} (h : p.writable = true) :
    p.tokens.all TokenKind.writable = true := by
  obtain ⟨header, body⟩ := p
  simp only [Program.writable, Bool.and_eq_true] at h
  have hheader : ((header.map Header.tokens).getD []).all TokenKind.writable = true := by
    cases header with
    | none => rfl
    | some header => exact Header.all_tokens h.1
  simp [Program.tokens, hheader, all_stmtTokens body h.2]

/-! ## Round trip -/

theorem parseTokens_of_kinds {p : Program} (h : p.writable = true) {ts : List Token} {last : Token}
    (hkinds : ts.map Token.kind = p.tokens) (hlast : last.kind = .eof) :
    parseTokens (ts ++ [last]) = .ok p := by
  have hend : ∀ t ∈ ts, t.kind ≠ .eof := by
    intro t ht heof
    have hkind : t.kind ∈ p.tokens := hkinds ▸ List.mem_map_of_mem ht
    have := List.all_eq_true.1 (Program.all_tokens h) t.kind hkind
    rw [heof] at this
    cases this
  rw [parseTokens_eq hend hlast]
  refine parse_eq_ok.2 ?_
  have hsame : kinds ts = p.tokens := hkinds
  rw [hsame]
  exact p.derived h

/-- The text of a program that can be written is scanned to its tokens and parsed to the program itself,
    and the program cannot be written with fewer tokens. -/
theorem parse_source (p : Program) (h : p.writable = true) :
    (∃ tokens, tokenize p.source = .ok tokens ∧ tokens.map Token.kind = p.tokens ++ [.eof] ∧
      parseTokens tokens = .ok p) ∧
    ∀ ks, Grammar.Program ks p → p.tokens.length ≤ ks.length := by
  have hwritable : ∀ k ∈ p.tokens, k.writable = true := List.all_eq_true.1 (Program.all_tokens h)
  obtain ⟨tokens, last, hscan, hkinds, hlast⟩ := tokenize_spaced hwritable
  exact ⟨⟨tokens ++ [last], hscan, by simp [hkinds, hlast], parseTokens_of_kinds h hkinds hlast⟩,
    fun ks => Program.shortest⟩

end Words

/-- A program with a header, with parentheses that matter and with escapes. -/
def Sample.program : Program :=
  ⟨some ⟨["SOUND"], [⟨"audio", [⟨"load", ["STRING"], some "SOUND"⟩]⟩]⟩,
    [.declare "NUMBER" ["x"],
      .assign "x" (.binary .mul (.binary .sub (.int 8) (.binary .sub (.int 2) (.int 1)))
        (.unary .neg (.unary .neg (.int 3)))),
      .when (.cond .and (.cond .lt (.var "x") (.int 9)) (.cond .or (.bool true) (.bool false)))
        [.expr (.call "load" [.string "a \"b\"\n"])]]⟩

/-- Its text. -/
def Sample.source : String :=
  "Declarations \x7b Types : SOUND ; Modules \x7b audio \x7b SOUND load ( STRING ) ; \x7d \x7d \x7d " ++
    "NUMBER x ; x = ( 8 - ( 2 - 1 ) ) * - - 3 ; " ++
    "if x < 9 and ( true or false ) \x7b load ( \"a \\\"b\\\"\\n\" ) ; \x7d"

open Sample in
theorem parse_source_sample :
    program.writable = true ∧ program.source = source ∧
      ∃ tokens, tokenize source = .ok tokens ∧ parseTokens tokens = .ok program := by
  have hwritable : program.writable = true := by decide +kernel
  have hsource : program.source = source := by decide +kernel
  obtain ⟨⟨tokens, hscan, -, hparse⟩, -⟩ := parse_source program hwritable
  exact ⟨hwritable, hsource, tokens, hsource ▸ hscan, hparse⟩

end Tremolo
