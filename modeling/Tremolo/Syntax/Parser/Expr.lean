import Tremolo.Syntax.Basic
import Tremolo.Syntax.Parser.Basic

/-! # Reading expressions

From loose to tight: `or` chains, `and` chains, at most one comparison, sums, terms, factors.  Each
level reads its operands with the next one, and only a factor can hold a whole expression again, in
parentheses or as an argument.  `expressionAt depth` reads expressions with at most `depth` such
nestings; each takes a token, so the number of tokens is depth enough. -/

namespace Tremolo.Parse

variable {β : Type}

/-! ## Operators -/

def termOps : List (TokenKind × BinaryOp) :=
  [(.star, .mul), (.slash, .div)]

def sumOps : List (TokenKind × BinaryOp) :=
  [(.plus, .add), (.minus, .sub)]

def comparisonOps : List (TokenKind × CondOp) :=
  [(.eq, .eq), (.notEq, .ne), (.lt, .lt), (.gt, .gt), (.ltEq, .le), (.gtEq, .ge)]

/-- Reads an operator of the list and what follows it with `behind`; reads with `otherwise` if the
    next token writes none of them. -/
def operator {α : Type} (ops : List (TokenKind × β)) (behind : β → Parse α) (otherwise : Parse α) :
    Parse α
  | [] => otherwise []
  | t :: rest =>
    match ops.lookup t.kind with
    | some op => behind op rest
    | none => otherwise (t :: rest)

/-- Reads operands with operators between them, grouped to the left. -/
def chain (ops : List (TokenKind × β)) (node : β → Expr → Expr → Expr) (operand : Parse Expr) :
    Parse Expr := do
  let first ← operand
  let others ← many (fun kind => (ops.lookup kind).isSome)
    (operator ops (fun op => do return (op, ← operand)) (unexpected .expression))
  return others.foldl (fun left (op, right) => node op left right) first

/-! ## Levels -/

/-- Reads a variable or a call, behind its name. -/
def nameOrCall (nested : Parse Expr) (name : String) : Parse Expr :=
  ifNext .leftParen
    (do
      expect .leftParen
      return Expr.call name (← parenList nested))
    (pure (Expr.var name))

/-- Reads a factor: signs in front of a literal, a variable, a call or an expression between
    parentheses. -/
def factor (nested : Parse Expr) : Parse Expr
  | [] => .fail .unexpectedEnd []
  | t :: rest =>
    match t.kind with
    | .plus => (factor nested rest).map (.unary .plus)
    | .minus => (factor nested rest).map (.unary .neg)
    | .trueWord => .ok (.bool true) rest
    | .falseWord => .ok (.bool false) rest
    | .leftParen => (do let e ← nested; expect .rightParen; return e : Parse Expr) rest
    | .integer n => .ok (.int n) rest
    | .float x => .ok (.float x) rest
    | .string s => .ok (.string s) rest
    | .identifier name => nameOrCall nested name rest
    -- Here alone a token that does not fit is taken.
    | kind => .fail (.unexpectedToken t.line .expression kind) rest

def term (nested : Parse Expr) : Parse Expr :=
  chain termOps .binary (factor nested)

def sum (nested : Parse Expr) : Parse Expr :=
  chain sumOps .binary (term nested)

/-- Reads a sum, or two with a comparison between them. -/
def comparison (nested : Parse Expr) : Parse Expr := do
  let left ← sum nested
  operator comparisonOps (fun op => do return .cond op left (← sum nested)) (pure left)

def conjunction (nested : Parse Expr) : Parse Expr :=
  chain [(.andWord, CondOp.and)] .cond (comparison nested)

def disjunction (nested : Parse Expr) : Parse Expr :=
  chain [(.orWord, CondOp.or)] .cond (conjunction nested)

/-- Reads an expression with fewer than `depth` nestings. -/
def expressionAt : Nat → Parse Expr
  | 0 => unexpected .expression
  | depth + 1 => disjunction (expressionAt depth)

def expression : Parse Expr :=
  fun ts => expressionAt (ts.length + 1) ts

end Tremolo.Parse
