import Tremolo.Json.Decoder
import Tremolo.Json.Parser
import Tremolo.Syntax.Interchange
import Tremolo.Token.Basic

/-! # Tokens as JSON

Lists of tokens are exchanged in the same form as programs. -/

namespace Tremolo

open Json (Decoder)

def TokenKind.tags : List (String × TokenKind) :=
  [("True", .trueWord), ("False", .falseWord), ("Def", .defWord), ("Return", .returnWord),
   ("If", .ifWord), ("While", .whileWord), ("And", .andWord), ("Or", .orWord),
   ("Declarations", .declarationsWord), ("Types", .typesWord), ("Modules", .modulesWord),
   ("Plus", .plus), ("Minus", .minus), ("Star", .star), ("Slash", .slash), ("Assign", .assign),
   ("Eq", .eq), ("NotEq", .notEq), ("Lt", .lt), ("Gt", .gt), ("LtEq", .ltEq), ("GtEq", .gtEq),
   ("LeftParen", .leftParen), ("RightParen", .rightParen), ("LeftBrace", .leftBrace),
   ("RightBrace", .rightBrace), ("Semicolon", .semicolon), ("Comma", .comma), ("Colon", .colon),
   ("Eof", .eof)]

def TokenKind.toJson (style : LiteralStyle) : TokenKind → Json
  | .integer n => .variant "Integer" (style.int n)
  | .float x => .variant "Float" (style.float x)
  | .string s => .variant "String" (.text s)
  | .identifier name => .variant "Identifier" (.text name)
  | .typeName name => .variant "TypeName" (.text name)
  | kind => .text ((TokenKind.tags.find? (·.2 = kind)).elim "" (·.1))

def TokenKind.ofJson? : Decoder TokenKind
  | levels + 1, .object [(some tag, content)] =>
    match tag with
    | "Integer" => (Decoder.int64 levels content).map .integer
    | "Float" => (Decoder.float levels content).map .float
    | "String" => (Decoder.text levels content).map .string
    | "Identifier" => (Decoder.text levels content).map .identifier
    | "TypeName" => (Decoder.text levels content).map .typeName
    | _ => Decoder.choice TokenKind.tags (levels + 1) (.object [(some tag, content)])
  | levels, j => Decoder.choice TokenKind.tags levels j

def Token.ofJson? : Decoder Token :=
  .record ["kind", "lexeme", "line", "column"] fun levels fields => do
    let [kind, lexeme, line, column] := fields | none
    return ⟨← Decoder.required TokenKind.ofJson? levels kind, ← Decoder.text.required levels lexeme,
      ← Decoder.nat64.required levels line, ← Decoder.nat64.required levels column⟩

def Token.decodeList? (s : String) : Option (List Token) :=
  Json.parse? s >>= Decoder.list Token.ofJson? Json.maxLevels

end Tremolo
