import Tremolo.Json.Basic

/-! # Writing JSON

Compact text, with only those characters escaped that a string cannot hold. -/

namespace Tremolo.Json

def hexChar (n : Nat) : Char :=
  Nat.digitChar n

def charText (c : Char) : List Char :=
  match c with
  | '"' => ['\\', '"']
  | '\\' => ['\\', '\\']
  | '\n' => ['\\', 'n']
  | '\r' => ['\\', 'r']
  | '\t' => ['\\', 't']
  | '\x08' => ['\\', 'b']
  | '\x0c' => ['\\', 'f']
  | c =>
    if c.toNat < 0x20 then ['\\', 'u', '0', '0', hexChar (c.toNat / 16), hexChar (c.toNat % 16)]
    else [c]

/-- The text of a string; what has no characters is written as a lone surrogate. -/
def stringText : Option String → List Char
  | some s => '"' :: s.toList.flatMap charText ++ ['"']
  | none => "\"\\ud800\"".toList

mutual

def render : Json → List Char
  | .null => "null".toList
  | .bool true => "true".toList
  | .bool false => "false".toList
  | .number n => n.text
  | .string s => stringText s
  | .array items => '[' :: renderItems items ++ [']']
  | .object fields => '{' :: renderFields fields ++ ['}']

def renderItems : List Json → List Char
  | [] => []
  | [item] => render item
  | item :: rest => render item ++ ',' :: renderItems rest

def renderFields : List (Option String × Json) → List Char
  | [] => []
  | [(key, value)] => stringText key ++ ':' :: render value
  | (key, value) :: rest => stringText key ++ ':' :: render value ++ ',' :: renderFields rest

end

def toText (j : Json) : String :=
  String.ofList j.render

end Tremolo.Json
