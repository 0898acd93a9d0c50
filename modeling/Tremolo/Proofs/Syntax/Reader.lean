import Tremolo.Syntax.Parser.Program

/-! # Parsing by moving through an array

`Parser` hands on what is left of the tokens in front of the first end mark, so it cannot look at
anything else, and its bounds on rounds and depth come from the number of tokens.  A `Reader` keeps the
whole list in an array, with an end mark behind it, and moves a place through it.  It looks at the
token at its place and at the one behind, and at the last token if the place lies behind all of them.

Two outcomes are neither a result nor a mistake: a look at a place without a token (`Reads.outside`),
and a loop or a recursion that goes on beyond a limit given from outside (`Reads.endless`). -/

namespace Tremolo

/-- The tokens in front of the first end mark. -/
def readable (tokens : List Token) : List Token :=
  tokens.takeWhile fun t => t.kind ≠ .eof

/-- A place in a list of tokens. -/
structure Reader where
  tokens : Array Token
  current : Nat

/-- The tokens with an end mark behind them, if the last one is none. -/
def withEnd (tokens : List Token) : List Token :=
  match tokens.getLast? with
  | none => [⟨.eof, "", 1, 0⟩]
  | some last => if last.kind = .eof then tokens else tokens ++ [⟨.eof, "", last.line, 0⟩]

def Reader.ofTokens (tokens : List Token) : Reader :=
  ⟨(withEnd tokens).toArray, 0⟩

/-- What comes of reading. -/
inductive Reads (α : Type) where
  | ok (result : α) (next : Reader)
  | fail (error : Error) (next : Reader)
  /-- There is no token at the place that was looked at. -/
  | outside
  /-- A loop or a recursion has reached the limit. -/
  | endless

def Read (α : Type) : Type :=
  Reader → Reads α

namespace Read

variable {α β : Type}

protected def pure (a : α) : Read α :=
  fun r => .ok a r

protected def bind (p : Read α) (f : α → Read β) : Read β :=
  fun r =>
    match p r with
    | .ok a next => f a next
    | .fail e next => .fail e next
    | .outside => .outside
    | .endless => .endless

instance : Monad Read where
  pure := Read.pure
  bind := Read.bind

def fail (e : Error) : Read α :=
  fun r => .fail e r

def endless : Read α :=
  fun _ => .endless

/-! ## Single tokens -/

/-- The token so many places ahead, or the last one if there are not so many. -/
def ahead (i : Nat) : Read Token :=
  fun r =>
    match r.tokens[min (r.current + i) (r.tokens.size - 1)]? with
    | some t => .ok t r
    | none => .outside

def peek : Read Token :=
  ahead 0

def peekNext : Read Token :=
  ahead 1

def atEnd : Read Bool := do
  return (← peek).kind = .eof

/-- One place further. -/
def move : Read Unit :=
  fun r => .ok () { r with current := r.current + 1 }

/-- Takes a token; an end mark stays where it is. -/
def advance : Read Token := do
  let t ← peek
  if ← atEnd then pure () else move
  return t

def check (kind : TokenKind) : Read Bool := do
  return (← peek).kind = kind

def ifCheck (kind : TokenKind) (p q : Read α) : Read α := do
  if ← check kind then p else q

/-- Reads with `p` behind a token of the kind, or else with `q`. -/
def ifMatch (kind : TokenKind) (p q : Read α) : Read α :=
  ifCheck kind (do let _ ← advance; p) q

def unexpected (expected : Expected) : Read α := do
  let t ← peek
  if t.kind = .eof then fail .unexpectedEnd else fail (.unexpectedToken t.line expected t.kind)

def consume (kind : TokenKind) : Read Unit :=
  ifMatch kind (pure ()) (unexpected (.token kind))

def identifier : Read String := do
  match (← peek).kind with
  | .identifier name => let _ ← advance; return name
  | _ => unexpected .identifier

def typeName : Read String := do
  match (← peek).kind with
  | .typeName name => let _ ← advance; return name
  | .identifier name => let _ ← advance; return name
  | _ => unexpected .typeName

/-- Takes a token that writes an operator of the list. -/
def operator? (ops : List (TokenKind × β)) : Read (Option β) := do
  match ops.lookup (← peek).kind with
  | some op => let _ ← advance; return some op
  | none => return none

/-! ## Repetition -/

/-- Goes round until a round finds nothing. -/
def loop (round : Read (Option α)) : Nat → Read (List α)
  | 0 => endless
  | limit + 1 => do
    match ← round with
    | some a => return a :: (← loop round limit)
    | none => return []

variable (limit : Nat)

def commaList (item : Read α) : Read (List α) := do
  let first ← item
  let others ← loop (ifMatch .comma (some <$> item) (pure none)) limit
  return first :: others

def parenList (item : Read α) : Read (List α) := do
  let items ← ifCheck .rightParen (pure []) (commaList limit item)
  consume .rightParen
  return items

def unlessEnd (item : Read α) : Read (Option α) := do
  if ← atEnd then pure none else some <$> item

def braced (item : Read α) : Read (List α) := do
  consume .leftBrace
  let items ← loop (ifCheck .rightBrace (pure none) (unlessEnd item)) limit
  consume .rightBrace
  return items

/-! ## Expressions -/

def operation (ops : List (TokenKind × β)) (operand : Read Expr) : Read (Option (β × Expr)) := do
  match ← operator? ops with
  | some op => return some (op, ← operand)
  | none => return none

def chain (ops : List (TokenKind × β)) (node : β → Expr → Expr → Expr) (operand : Read Expr) :
    Read Expr := do
  let first ← operand
  let others ← loop (operation ops operand) limit
  return others.foldl (fun left (op, right) => node op left right) first

def nameOrCall (nested : Read Expr) (name : String) : Read Expr :=
  ifMatch .leftParen (do return Expr.call name (← parenList limit nested)) (pure (Expr.var name))

/-- A factor with fewer than `signs` signs in front. -/
def factor (nested : Read Expr) : Nat → Read Expr
  | 0 => endless
  | signs + 1 => do
    let t ← advance
    match t.kind with
    | .plus => return .unary .plus (← factor nested signs)
    | .minus => return .unary .neg (← factor nested signs)
    | .integer n => return .int n
    | .float x => return .float x
    | .string s => return .string s
    | .trueWord => return .bool true
    | .falseWord => return .bool false
    | .identifier name => nameOrCall limit nested name
    | .leftParen =>
      let e ← nested
      consume .rightParen
      return e
    | .eof => fail .unexpectedEnd
    | kind => fail (.unexpectedToken t.line .expression kind)

def term (nested : Read Expr) : Read Expr :=
  chain limit Parse.termOps .binary (factor limit nested limit)

def sum (nested : Read Expr) : Read Expr :=
  chain limit Parse.sumOps .binary (term limit nested)

def comparison (nested : Read Expr) : Read Expr := do
  let left ← sum limit nested
  match ← operator? Parse.comparisonOps with
  | some op => return .cond op left (← sum limit nested)
  | none => return left

def conjunction (nested : Read Expr) : Read Expr :=
  chain limit [(.andWord, CondOp.and)] .cond (comparison limit nested)

def disjunction (nested : Read Expr) : Read Expr :=
  chain limit [(.orWord, CondOp.or)] .cond (conjunction limit nested)

def expressionAt : Nat → Read Expr
  | 0 => endless
  | depth + 1 => disjunction limit (expressionAt depth)

def expression : Read Expr :=
  expressionAt limit limit

/-! ## Statements -/

def expressionStmt : Read Stmt := do
  let e ← expression limit
  consume .semicolon
  return .expr e

def declaration : Read Stmt := do
  let type ← typeName
  let names ← commaList limit identifier
  consume .semicolon
  return .declare type names

def definition (stmt : Read Stmt) : Read Stmt := do
  consume .defWord
  let name ← identifier
  consume .leftParen
  let params ← parenList limit identifier
  let body ← braced limit stmt
  return .define name params body

def guarded (node : Expr → List Stmt → Stmt) (stmt : Read Stmt) : Read Stmt := do
  let condition ← expression limit
  let body ← braced limit stmt
  return node condition body

def returned : Read Stmt := do
  let value ← ifCheck .semicolon (pure none) (some <$> expression limit)
  consume .semicolon
  return .ret value

def assigned (name : String) : Read Stmt := do
  let value ← expression limit
  consume .semicolon
  return .assign name value

def named (name : String) : Read Stmt := do
  match (← peekNext).kind with
  | .identifier _ => declaration limit
  | .assign =>
    let _ ← advance
    let _ ← advance
    assigned limit name
  | _ => expressionStmt limit

def statementWith (stmt : Read Stmt) : Read Stmt := do
  match (← peek).kind with
  | .leftBrace => return .block (← braced limit stmt)
  | .semicolon => let _ ← advance; return .skip
  | .defWord => definition limit stmt
  | .ifWord => let _ ← advance; guarded limit .when stmt
  | .whileWord => let _ ← advance; guarded limit .loop stmt
  | .returnWord => let _ ← advance; returned limit
  | .typeName _ => declaration limit
  | .identifier name => named limit name
  | _ => expressionStmt limit

def statementAt : Nat → Read Stmt
  | 0 => endless
  | depth + 1 => statementWith limit (statementAt depth)

def statement : Read Stmt :=
  statementAt limit limit

/-! ## Programs -/

/-- The return type of a signature, which the next two tokens tell from its name. -/
def returnType : Read (Option String) := do
  match (← peek).kind, (← peekNext).kind with
  | .typeName _, _ => some <$> typeName
  | .identifier _, .identifier _ => some <$> typeName
  | _, _ => return none

def signature : Read Signature := do
  let returns ← returnType
  let name ← identifier
  consume .leftParen
  let parameters ← parenList limit typeName
  consume .semicolon
  return ⟨name, parameters, returns⟩

def moduleUse : Read ModuleUse := do
  let name ← identifier
  let functions ← braced limit (signature limit)
  return ⟨name, functions⟩

def headerTypes : Read (List String) := do
  consume .colon
  let names ← commaList limit identifier
  consume .semicolon
  return names

def header : Read Header := do
  consume .declarationsWord
  consume .leftBrace
  let types ← ifMatch .typesWord (headerTypes limit) (pure [])
  let modules ← ifMatch .modulesWord (braced limit (moduleUse limit)) (pure [])
  consume .rightBrace
  return ⟨types, modules⟩

def program : Read Program := do
  let head ← ifCheck .declarationsWord (some <$> header limit) (pure none)
  let body ← loop (unlessEnd (statement limit)) limit
  return ⟨head, body⟩

end Read

/-! ## Requests -/

namespace Reader

variable (limit : Nat)

/-- One request; none if it has looked outside the tokens or has reached the limit. -/
def parse? (r : Reader) : Option (Except Error Program × Reader) :=
  match Read.program limit r with
  | .ok program next => some (.ok program, next)
  | .fail e next => some (.error e, next)
  | .outside => none
  | .endless => none

/-- The reader after some requests. -/
def after? (r : Reader) : Nat → Option Reader
  | 0 => some r
  | k + 1 => (r.after? k).bind fun s => (s.parse? limit).map (·.2)

/-- The answer to a request, counted from 0. -/
def answer? (r : Reader) (k : Nat) : Option (Except Error Program) :=
  (r.after? limit k).bind fun s => (s.parse? limit).map (·.1)

end Reader

end Tremolo
