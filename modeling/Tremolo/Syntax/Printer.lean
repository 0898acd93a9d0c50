import Tremolo.Syntax.Basic
import Tremolo.Token.Basic

/-! # Writing programs

A program is written as a list of token kinds, and these as text with single blanks between them.
Parentheses stand only where the levels of the grammar ask for them.

* `Expr.tokens`, `Stmt.tokens`, `Program.tokens` — programs as token kinds;
* `TokenKind.source` — how a kind is written;
* `Program.source` — programs as text. -/

namespace Tremolo

/-! ## Levels -/

/-- The levels of the grammar of expressions, from loose to tight. -/
inductive Level where
  | disjunction
  | conjunction
  | comparison
  | sum
  | term
  | factor
deriving DecidableEq

/-- How tight a level binds. -/
def Level.rank : Level → Nat
  | disjunction => 0
  | conjunction => 1
  | comparison => 2
  | sum => 3
  | term => 4
  | factor => 5

def BinaryOp.level : BinaryOp → Level
  | add | sub => .sum
  | mul | div => .term

/-- The level of a right operand of an arithmetic operator, which groups to the left. -/
def BinaryOp.rightLevel : BinaryOp → Level
  | add | sub => .term
  | mul | div => .factor

def CondOp.level : CondOp → Level
  | or => .disjunction
  | and => .conjunction
  | _ => .comparison

/-- The level of the left operand; comparisons do not group. -/
def CondOp.leftLevel : CondOp → Level
  | or => .disjunction
  | and => .conjunction
  | _ => .sum

def CondOp.rightLevel : CondOp → Level
  | or => .conjunction
  | and => .comparison
  | _ => .sum

def Expr.level : Expr → Level
  | .binary op _ _ => op.level
  | .cond op _ _ => op.level
  | _ => .factor

/-! ## Token kinds -/

def UnaryOp.token : UnaryOp → TokenKind
  | plus => .plus
  | neg => .minus

def BinaryOp.token : BinaryOp → TokenKind
  | add => .plus
  | sub => .minus
  | mul => .star
  | div => .slash

def CondOp.token : CondOp → TokenKind
  | eq => .eq
  | ne => .notEq
  | lt => .lt
  | gt => .gt
  | le => .ltEq
  | ge => .gtEq
  | and => .andWord
  | or => .orWord

def typeToken (name : String) : TokenKind :=
  if name ∈ TokenKind.typeWords then .typeName name else .identifier name

def commaSeparated : List (List TokenKind) → List TokenKind
  | [] => []
  | [ks] => ks
  | ks :: rest => ks ++ .comma :: commaSeparated rest

def nameTokens (names : List String) : List TokenKind :=
  commaSeparated (names.map fun name => [.identifier name])

/-- Between parentheses, if the level is too loose for its place. -/
def parenthesized (level place : Level) (ks : List TokenKind) : List TokenKind :=
  if level.rank < place.rank then .leftParen :: ks ++ [.rightParen] else ks

mutual

/-- An expression as token kinds, at a place of the given level. -/
def Expr.tokens (place : Level) : Expr → List TokenKind
  | .int n => [.integer n]
  | .float x => [.float x]
  | .string s => [.string s]
  | .bool b => [if b then .trueWord else .falseWord]
  | .var name => [.identifier name]
  | .unary op operand => op.token :: operand.tokens .factor
  | .binary op left right =>
    parenthesized op.level place
      (left.tokens op.level ++ op.token :: right.tokens op.rightLevel)
  | .cond op left right =>
    parenthesized op.level place
      (left.tokens op.leftLevel ++ op.token :: right.tokens op.rightLevel)
  | .call name args => .identifier name :: .leftParen :: commaSeparated (argTokens args) ++ [.rightParen]

def argTokens : List Expr → List (List TokenKind)
  | [] => []
  | e :: es => e.tokens .disjunction :: argTokens es

end

def Expr.allTokens (e : Expr) : List TokenKind :=
  e.tokens .disjunction

mutual

def Stmt.tokens : Stmt → List TokenKind
  | .skip => [.semicolon]
  | .block body => .leftBrace :: stmtTokens body ++ [.rightBrace]
  | .declare type names => typeToken type :: nameTokens names ++ [.semicolon]
  | .define name params body =>
    .defWord :: .identifier name :: .leftParen :: nameTokens params ++
      .rightParen :: .leftBrace :: stmtTokens body ++ [.rightBrace]
  | .assign name value => .identifier name :: .assign :: value.allTokens ++ [.semicolon]
  | .when condition body =>
    .ifWord :: condition.allTokens ++ .leftBrace :: stmtTokens body ++ [.rightBrace]
  | .loop condition body =>
    .whileWord :: condition.allTokens ++ .leftBrace :: stmtTokens body ++ [.rightBrace]
  | .ret none => [.returnWord, .semicolon]
  | .ret (some e) => .returnWord :: e.allTokens ++ [.semicolon]
  | .expr e => e.allTokens ++ [.semicolon]

def stmtTokens : List Stmt → List TokenKind
  | [] => []
  | s :: ss => s.tokens ++ stmtTokens ss

end

def Signature.tokens (s : Signature) : List TokenKind :=
  (s.returnType.map typeToken).toList ++ .identifier s.name :: .leftParen ::
    commaSeparated (s.parameterTypes.map fun t => [typeToken t]) ++ [.rightParen, .semicolon]

def ModuleUse.tokens (m : ModuleUse) : List TokenKind :=
  .identifier m.name :: .leftBrace :: m.functions.flatMap Signature.tokens ++ [.rightBrace]

/-- A header as token kinds; parts without content are left out. -/
def Header.tokens (h : Header) : List TokenKind :=
  let types :=
    if h.types.isEmpty then [] else .typesWord :: .colon :: nameTokens h.types ++ [.semicolon]
  let modules :=
    if h.modules.isEmpty then []
    else .modulesWord :: .leftBrace :: h.modules.flatMap ModuleUse.tokens ++ [.rightBrace]
  .declarationsWord :: .leftBrace :: types ++ modules ++ [.rightBrace]

def Program.tokens (p : Program) : List TokenKind :=
  (p.header.map Header.tokens).getD [] ++ stmtTokens p.body

/-! ## Text -/

def escapedChar (c : Char) : List Char :=
  match c with
  | '\n' => ['\\', 'n']
  | '\t' => ['\\', 't']
  | '\r' => ['\\', 'r']
  | '\\' => ['\\', '\\']
  | '"' => ['\\', '"']
  | c => [c]

/-- A finite float as a literal, which has a point even if the number is whole. -/
def floatSource (x : Float) : List Char :=
  let text := (Decimal.floatText x).toList
  if '.' ∈ text then text else text ++ ['.', '0']

def TokenKind.source (kind : TokenKind) : List Char :=
  match kind with
  | .integer n => (Decimal.intText n.toInt).toList
  | .float x => floatSource x
  | .string s => '"' :: s.toList.flatMap escapedChar ++ ['"']
  | .identifier name => name.toList
  | .typeName name => name.toList
  | kind => (kind.spelling?.getD "").toList

/-- Token kinds with single blanks between them. -/
def spaced (kinds : List TokenKind) : List Char :=
  ((kinds.map TokenKind.source).intersperse [' ']).flatten

def Program.source (p : Program) : String :=
  String.ofList (spaced p.tokens)

end Tremolo
