import Tremolo.Syntax.Parser.Stmt

/-! # Reading programs

A program is an optional header and statements up to the end of the input.  A `Parser` holds the
tokens that no request has taken yet. -/

namespace Tremolo

namespace Parse

/-! ## Header -/

/-- Whether a signature starts with its return type: a builtin type word does, an identifier if
    another one follows. -/
def startsWithType : List Token → Bool
  | [] => false
  | [t] =>
    match t.kind with
    | .typeName _ => true
    | _ => false
  | t :: u :: _ =>
    match t.kind, u.kind with
    | .typeName _, _ => true
    | .identifier _, .identifier _ => true
    | _, _ => false

/-- Reads the return type of a signature, if there is one. -/
def returnType : Parse (Option String) := fun ts =>
  if startsWithType ts then (typeName ts).map some else .ok none ts

/-- Reads `[type] name(type, …);`. -/
def signature : Parse Signature := do
  let returns ← returnType
  let name ← identifier
  expect .leftParen
  let parameters ← parenList typeName
  expect .semicolon
  return ⟨name, parameters, returns⟩

def moduleUse : Parse ModuleUse := do
  let name ← identifier
  let functions ← braced signature
  return ⟨name, functions⟩

def headerTypes : Parse (List String) := do
  expect .typesWord
  expect .colon
  let names ← commaList identifier
  expect .semicolon
  return names

def headerModules : Parse (List ModuleUse) := do
  expect .modulesWord
  braced moduleUse

def header : Parse Header := do
  expect .declarationsWord
  expect .leftBrace
  let types ← ifNext .typesWord headerTypes (pure [])
  let modules ← ifNext .modulesWord headerModules (pure [])
  expect .rightBrace
  return ⟨types, modules⟩

/-! ## Program -/

/-- Reads a program up to the end of the input. -/
def program : Parse Program := do
  let head ← ifNext .declarationsWord (some <$> header) (pure none)
  let body ← many (fun _ => true) statement
  return ⟨head, body⟩

end Parse

structure Parser where
  rest : List Token

/-- A parser of the tokens in front of the first end mark. -/
def Parser.ofTokens (tokens : List Token) : Parser :=
  ⟨tokens.takeWhile fun t => t.kind ≠ .eof⟩

/-- Asks for the program that the remaining tokens form.  After a mistake the parser stands where the
    mistake was noticed, and the next request goes on from there. -/
def Parser.parse (p : Parser) : Except Error Program × Parser :=
  match Parse.program p.rest with
  | .ok program rest => (.ok program, ⟨rest⟩)
  | .fail e rest => (.error e, ⟨rest⟩)

def parseTokens (tokens : List Token) : Except Error Program :=
  (Parser.ofTokens tokens).parse.1

end Tremolo
