import Tremolo.Syntax.Parser.Expr

/-! # Reading statements

The first token of a statement decides what it is; behind an identifier a second one decides between
a declaration, an assignment and an expression.  Statements nest through braces only, and
`statementAt depth` reads those with at most `depth` nestings. -/

namespace Tremolo.Parse

def expressionStmt : Parse Stmt := do
  let e ← expression
  expect .semicolon
  return .expr e

def declaration : Parse Stmt := do
  let type ← typeName
  let names ← commaList identifier
  expect .semicolon
  return .declare type names

def definition (stmt : Parse Stmt) : Parse Stmt := do
  expect .defWord
  let name ← identifier
  expect .leftParen
  let params ← parenList identifier
  let body ← braced stmt
  return .define name params body

/-- Reads a condition and a block, behind `if` or `while`. -/
def guarded (node : Expr → List Stmt → Stmt) (stmt : Parse Stmt) : Parse Stmt := do
  let condition ← expression
  let body ← braced stmt
  return node condition body

def returned : Parse Stmt := do
  let value ← ifNext .semicolon (pure none) (some <$> expression)
  expect .semicolon
  return .ret value

def assigned (name : String) : Parse Stmt := do
  let value ← expression
  expect .semicolon
  return .assign name value

def named (name : String) : Parse Stmt
  | first :: second :: rest =>
    match second.kind with
    | .identifier _ => declaration (first :: second :: rest)
    | .assign => assigned name rest
    | _ => expressionStmt (first :: second :: rest)
  | ts => expressionStmt ts

/-- Reads a statement whose inner statements are read by `stmt`. -/
def statementWith (stmt : Parse Stmt) : Parse Stmt
  | [] => expressionStmt []
  | t :: rest =>
    match t.kind with
    | .leftBrace => (braced stmt (t :: rest)).map .block
    | .semicolon => .ok .skip rest
    | .defWord => definition stmt (t :: rest)
    | .ifWord => guarded .when stmt rest
    | .whileWord => guarded .loop stmt rest
    | .returnWord => returned rest
    | .typeName _ => declaration (t :: rest)
    | .identifier name => named name (t :: rest)
    | _ => expressionStmt (t :: rest)

/-- Reads a statement with fewer than `depth` nestings. -/
def statementAt : Nat → Parse Stmt
  | 0 => unexpected .expression
  | depth + 1 => statementWith (statementAt depth)

def statement : Parse Stmt :=
  fun ts => statementAt (ts.length + 1) ts

end Tremolo.Parse
