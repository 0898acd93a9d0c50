import Tremolo.Syntax.Basic
import Tremolo.Token.Basic

/-! # The grammar

Which lists of token kinds write which syntax trees, stated rule by rule and without reference to any
way of reading.  Chains of operators group to the left, a comparison has at most one operator, and
parentheses leave no trace in the tree.

* `Grammar.Disjunction` — expressions, with one relation for each level below;
* `Grammar.Statement`, `Grammar.Statements` — statements and lists of them;
* `Grammar.Program` — programs. -/

namespace Tremolo.Grammar

/-! ## Operators -/

inductive Sign : TokenKind → UnaryOp → Prop
  | plus : Sign .plus .plus
  | minus : Sign .minus .neg

/-- The kinds that write an operator between factors. -/
inductive TermOp : TokenKind → BinaryOp → Prop
  | star : TermOp .star .mul
  | slash : TermOp .slash .div

/-- The kinds that write an operator between terms. -/
inductive SumOp : TokenKind → BinaryOp → Prop
  | plus : SumOp .plus .add
  | minus : SumOp .minus .sub

inductive ComparisonOp : TokenKind → CondOp → Prop
  | eq : ComparisonOp .eq .eq
  | ne : ComparisonOp .notEq .ne
  | lt : ComparisonOp .lt .lt
  | gt : ComparisonOp .gt .gt
  | le : ComparisonOp .ltEq .le
  | ge : ComparisonOp .gtEq .ge

/-! ## Lists of names -/

/-- One identifier or more, with commas between them. -/
inductive Names : List TokenKind → List String → Prop
  | one {x} : Names [.identifier x] [x]
  | more {x ks xs} : Names ks xs → Names (.identifier x :: .comma :: ks) (x :: xs)

/-- A type: a builtin type word or an identifier. -/
inductive TypeName : TokenKind → String → Prop
  | builtin {x} : TypeName (.typeName x) x
  | declared {x} : TypeName (.identifier x) x

inductive TypeNames : List TokenKind → List String → Prop
  | one {k x} : TypeName k x → TypeNames [k] [x]
  | more {k x ks xs} : TypeName k x → TypeNames ks xs → TypeNames (k :: .comma :: ks) (x :: xs)

/-! ## Expressions -/

mutual

/-- Signs, literals, variables, calls and parentheses. -/
inductive Factor : List TokenKind → Expr → Prop
  | sign {k op ks e} : Sign k op → Factor ks e → Factor (k :: ks) (.unary op e)
  | int {n} : Factor [.integer n] (.int n)
  | float {x} : Factor [.float x] (.float x)
  | string {s} : Factor [.string s] (.string s)
  | true : Factor [.trueWord] (.bool true)
  | false : Factor [.falseWord] (.bool false)
  | var {x} : Factor [.identifier x] (.var x)
  | call {f} : Factor [.identifier f, .leftParen, .rightParen] (.call f [])
  | callArgs {f ks args} : Arguments ks args →
      Factor (.identifier f :: .leftParen :: ks ++ [.rightParen]) (.call f args)
  | paren {ks e} : Disjunction ks e → Factor (.leftParen :: ks ++ [.rightParen]) e

/-- Factors between `*` and `/`. -/
inductive Term : List TokenKind → Expr → Prop
  | factor {ks e} : Factor ks e → Term ks e
  | chain {ks l k op ks' r} : Term ks l → TermOp k op → Factor ks' r →
      Term (ks ++ k :: ks') (.binary op l r)

/-- Terms between `+` and `-`. -/
inductive Sum : List TokenKind → Expr → Prop
  | term {ks e} : Term ks e → Sum ks e
  | chain {ks l k op ks' r} : Sum ks l → SumOp k op → Term ks' r →
      Sum (ks ++ k :: ks') (.binary op l r)

/-- A sum, or two with a comparison between them. -/
inductive Comparison : List TokenKind → Expr → Prop
  | sum {ks e} : Sum ks e → Comparison ks e
  | compare {ks l k op ks' r} : Sum ks l → ComparisonOp k op → Sum ks' r →
      Comparison (ks ++ k :: ks') (.cond op l r)

/-- Comparisons between `and`s. -/
inductive Conjunction : List TokenKind → Expr → Prop
  | comparison {ks e} : Comparison ks e → Conjunction ks e
  | chain {ks l ks' r} : Conjunction ks l → Comparison ks' r →
      Conjunction (ks ++ .andWord :: ks') (.cond .and l r)

/-- Expressions: conjunctions between `or`s. -/
inductive Disjunction : List TokenKind → Expr → Prop
  | conjunction {ks e} : Conjunction ks e → Disjunction ks e
  | chain {ks l ks' r} : Disjunction ks l → Conjunction ks' r →
      Disjunction (ks ++ .orWord :: ks') (.cond .or l r)

/-- One expression or more, with commas between them. -/
inductive Arguments : List TokenKind → List Expr → Prop
  | one {ks e} : Disjunction ks e → Arguments ks [e]
  | more {ks e ks' es} : Disjunction ks e → Arguments ks' es →
      Arguments (ks ++ .comma :: ks') (e :: es)

end

/-! ## Statements -/

mutual

inductive Statement : List TokenKind → Stmt → Prop
  | skip : Statement [.semicolon] .skip
  | block {ks body} : Block ks body → Statement ks (.block body)
  | declare {k t ks names} : TypeName k t → Names ks names →
      Statement (k :: ks ++ [.semicolon]) (.declare t names)
  | define {f ks body} : Block ks body →
      Statement (.defWord :: .identifier f :: .leftParen :: .rightParen :: ks) (.define f [] body)
  | defineParams {f ps params ks body} : Names ps params → Block ks body →
      Statement (.defWord :: .identifier f :: .leftParen :: ps ++ .rightParen :: ks)
        (.define f params body)
  | assign {x ks e} : Disjunction ks e →
      Statement (.identifier x :: .assign :: ks ++ [.semicolon]) (.assign x e)
  | when {ks e ks' body} : Disjunction ks e → Block ks' body →
      Statement (.ifWord :: ks ++ ks') (.when e body)
  | loop {ks e ks' body} : Disjunction ks e → Block ks' body →
      Statement (.whileWord :: ks ++ ks') (.loop e body)
  | ret : Statement [.returnWord, .semicolon] (.ret none)
  | retValue {ks e} : Disjunction ks e →
      Statement (.returnWord :: ks ++ [.semicolon]) (.ret (some e))
  | expr {ks e} : Disjunction ks e → Statement (ks ++ [.semicolon]) (.expr e)

inductive Statements : List TokenKind → List Stmt → Prop
  | nil : Statements [] []
  | cons {ks s ks' ss} : Statement ks s → Statements ks' ss → Statements (ks ++ ks') (s :: ss)

inductive Block : List TokenKind → List Stmt → Prop
  | braces {ks body} : Statements ks body → Block (.leftBrace :: ks ++ [.rightBrace]) body

end

/-! ## Header -/

inductive Parameters : List TokenKind → List String → Prop
  | none : Parameters [] []
  | some {ks ts} : TypeNames ks ts → Parameters ks ts

inductive Signature : List TokenKind → Tremolo.Signature → Prop
  | plain {f ks ts} : Parameters ks ts →
      Signature (.identifier f :: .leftParen :: ks ++ [.rightParen, .semicolon]) ⟨f, ts, none⟩
  | typed {k t f ks ts} : TypeName k t → Parameters ks ts →
      Signature (k :: .identifier f :: .leftParen :: ks ++ [.rightParen, .semicolon])
        ⟨f, ts, some t⟩

inductive Signatures : List TokenKind → List Tremolo.Signature → Prop
  | nil : Signatures [] []
  | cons {ks s ks' ss} : Signature ks s → Signatures ks' ss → Signatures (ks ++ ks') (s :: ss)

inductive Modules : List TokenKind → List ModuleUse → Prop
  | nil : Modules [] []
  | cons {m ks fs ks' ms} : Signatures ks fs → Modules ks' ms →
      Modules (.identifier m :: .leftBrace :: ks ++ .rightBrace :: ks') (⟨m, fs⟩ :: ms)

inductive TypesPart : List TokenKind → List String → Prop
  | absent : TypesPart [] []
  | present {ks ts} : Names ks ts → TypesPart (.typesWord :: .colon :: ks ++ [.semicolon]) ts

inductive ModulesPart : List TokenKind → List ModuleUse → Prop
  | absent : ModulesPart [] []
  | present {ks ms} : Modules ks ms →
      ModulesPart (.modulesWord :: .leftBrace :: ks ++ [.rightBrace]) ms

/-- The header of a program, which may be missing. -/
inductive HeaderPart : List TokenKind → Option Header → Prop
  | absent : HeaderPart [] none
  | present {ks ts ks' ms} : TypesPart ks ts → ModulesPart ks' ms →
      HeaderPart (.declarationsWord :: .leftBrace :: ks ++ ks' ++ [.rightBrace]) (some ⟨ts, ms⟩)

/-! ## Programs -/

inductive Program : List TokenKind → Tremolo.Program → Prop
  | mk {ks header ks' body} : HeaderPart ks header → Statements ks' body →
      Program (ks ++ ks') ⟨header, body⟩

/-- A list of kinds that can be extended to a program. -/
def Viable (ks : List TokenKind) : Prop :=
  ∃ more p, Program (ks ++ more) p

end Tremolo.Grammar
