import Tremolo.Error

/-! # Parsers over tokens

A parser reads from the front of the remaining tokens; the end of the list is the end of the input.
It says what is left also when it fails, so that a caller can go on behind a mistake.

* `unexpected`, `expect`, `identifier`, `typeName` — single tokens, left in place when they do not fit;
* `many` — the one loop of the grammar;
* `commaList`, `parenList`, `braced` — lists of items. -/

namespace Tremolo

/-- What a parser makes of the remaining tokens. -/
inductive Parsed (α : Type) where
  | ok (result : α) (rest : List Token)
  | fail (error : Error) (rest : List Token)

def Parsed.map {α β : Type} (f : α → β) : Parsed α → Parsed β
  | .ok a rest => .ok (f a) rest
  | .fail e rest => .fail e rest

def Parse (α : Type) : Type :=
  List Token → Parsed α

namespace Parse

variable {α β : Type}

protected def pure (a : α) : Parse α :=
  fun ts => .ok a ts

protected def bind (p : Parse α) (f : α → Parse β) : Parse β :=
  fun ts =>
    match p ts with
    | .ok a rest => f a rest
    | .fail e rest => .fail e rest

instance : Monad Parse where
  pure := Parse.pure
  bind := Parse.bind

/-- Reads with `p` if the next token is of the kind, else with `q`. -/
def ifNext (kind : TokenKind) (p q : Parse α) : Parse α
  | [] => q []
  | t :: rest => if t.kind = kind then p (t :: rest) else q (t :: rest)

/-! ## Single tokens -/

/-- Fails at the next token, or at the end of the input. -/
def unexpected (expected : Expected) : Parse α
  | [] => .fail .unexpectedEnd []
  | t :: rest => .fail (.unexpectedToken t.line expected t.kind) (t :: rest)

def expect (kind : TokenKind) : Parse Unit
  | [] => unexpected (.token kind) []
  | t :: rest => if t.kind = kind then .ok () rest else unexpected (.token kind) (t :: rest)

def identifier : Parse String
  | [] => unexpected .identifier []
  | t :: rest =>
    match t.kind with
    | .identifier name => .ok name rest
    | _ => unexpected .identifier (t :: rest)

/-- Reads a type: a builtin type word or an identifier. -/
def typeName : Parse String
  | [] => unexpected .typeName []
  | t :: rest =>
    match t.kind with
    | .typeName name => .ok name rest
    | .identifier name => .ok name rest
    | _ => unexpected .typeName (t :: rest)

/-! ## Repetition -/

/-- Reads with `step` as long as a token follows that `more` admits, but at most `limit` times. -/
def manyUpTo (more : TokenKind → Bool) (step : Parse α) (limit : Nat) : Parse (List α)
  | [] => .ok [] []
  | t :: ts =>
    match limit with
    | 0 => .ok [] (t :: ts)
    | limit + 1 =>
      if more t.kind then
        match step (t :: ts) with
        | .ok a rest => (manyUpTo more step limit rest).map (a :: ·)
        | .fail e rest => .fail e rest
      else .ok [] (t :: ts)

/-- Reads with `step` as long as a token follows that `more` admits.  Every step takes a token, so
    there are no more steps than tokens. -/
def many (more : TokenKind → Bool) (step : Parse α) : Parse (List α) :=
  fun ts => manyUpTo more step ts.length ts

/-- Reads one or more items with commas between them. -/
def commaList (item : Parse α) : Parse (List α) := do
  let first ← item
  let others ← many (· = .comma) (do expect .comma; item)
  return first :: others

/-- Reads items with commas between them, possibly none, and the closing parenthesis. -/
def parenList (item : Parse α) : Parse (List α) := do
  let items ← ifNext .rightParen (pure []) (commaList item)
  expect .rightParen
  return items

def braced (item : Parse α) : Parse (List α) := do
  expect .leftBrace
  let items ← many (· ≠ .rightBrace) item
  expect .rightBrace
  return items

end Parse

end Tremolo
