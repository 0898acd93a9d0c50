import Tremolo.Decimal.Shortest

/-! # Tokens

A token is a kind, the text it was read from, and a position.

* `TokenKind.spelling?` — the one way to write a kind that has no content;
* `TokenKind.text` — how a kind is named in messages;
* `TokenKind.keyword?` — the kind of a reserved word. -/

namespace Tremolo

inductive TokenKind where
  | integer (n : Int64)
  | float (x : Float)
  /-- A string literal, with its escapes already replaced. -/
  | string (s : String)
  | trueWord
  | falseWord
  | identifier (name : String)
  /-- A builtin type word, in upper case. -/
  | typeName (name : String)
  | defWord
  | returnWord
  | ifWord
  | whileWord
  | andWord
  | orWord
  | declarationsWord
  | typesWord
  | modulesWord
  | plus
  | minus
  | star
  | slash
  | assign
  | eq
  | notEq
  | lt
  | gt
  | ltEq
  | gtEq
  | leftParen
  | rightParen
  | leftBrace
  | rightBrace
  | semicolon
  | comma
  | colon
  | eof
deriving DecidableEq

/-- A token with the text it was read from, the line on which it ends and the column at which it
    starts. -/
structure Token where
  kind : TokenKind
  lexeme : String
  line : Nat
  column : Nat
deriving DecidableEq

namespace TokenKind

/-- How a kind without content is written. -/
def spelling? : TokenKind → Option String
  | trueWord => some "true"
  | falseWord => some "false"
  | defWord => some "def"
  | returnWord => some "return"
  | ifWord => some "if"
  | whileWord => some "while"
  | andWord => some "and"
  | orWord => some "or"
  | declarationsWord => some "Declarations"
  | typesWord => some "Types"
  | modulesWord => some "Modules"
  | plus => some "+"
  | minus => some "-"
  | star => some "*"
  | slash => some "/"
  | assign => some "="
  | eq => some "=="
  | notEq => some "!="
  | lt => some "<"
  | gt => some ">"
  | ltEq => some "<="
  | gtEq => some ">="
  | leftParen => some "("
  | rightParen => some ")"
  | leftBrace => some "\x7b"
  | rightBrace => some "\x7d"
  | semicolon => some ";"
  | comma => some ","
  | colon => some ":"
  | integer _ | float _ | string _ | identifier _ | typeName _ | eof => none

/-- The name of a kind in messages: literals by content, words and signs between quotes. -/
def text (kind : TokenKind) : String :=
  match kind with
  | integer n => "number " ++ Decimal.intText n.toInt
  | float x => "number " ++ Decimal.floatText x
  | string s => "string \"" ++ s ++ "\""
  | identifier name => "identifier '" ++ name ++ "'"
  | typeName name => "type '" ++ name ++ "'"
  | eof => "end of input"
  | _ => "'" ++ kind.spelling?.getD "" ++ "'"

/-- The reserved words, in the spelling they are recognised by. -/
def reservedWords : List (String × TokenKind) :=
  [("def", defWord), ("return", returnWord), ("if", ifWord), ("while", whileWord),
   ("and", andWord), ("or", orWord), ("true", trueWord), ("false", falseWord),
   ("Declarations", declarationsWord), ("Types", typesWord), ("Modules", modulesWord)]

/-- The builtin type words; case does not matter in them. -/
def typeWords : List String :=
  ["NUMBER", "STRING", "VAR"]

/-- The kind of a reserved word or of a builtin type word. -/
def keyword? (word : String) : Option TokenKind :=
  match reservedWords.lookup word with
  | some kind => some kind
  | none =>
    let upper := word.map Char.toUpper
    if upper ∈ typeWords then some (typeName upper) else none

end TokenKind

end Tremolo
