import Tremolo.Json.Basic

/-! # Reading JSON

The strict grammar: no trailing text, no comments, no raw control characters in strings.  Depth is
not limited here; a reader of values counts it where it looks.

Every reader takes the remaining characters and gives what it read with the characters left.  Each
nesting takes a character, so the length of the text bounds the depth of the recursion. -/

namespace Tremolo.Json

def isSpace (c : Char) : Bool :=
  c == ' ' || c == '\n' || c == '\t' || c == '\r'

def skipSpace (cs : List Char) : List Char :=
  cs.dropWhile isSpace

/-! ## Numbers -/

def readDigits (cs : List Char) : Option (List Char × List Char) :=
  match cs.takeWhile Char.isDigit with
  | [] => none
  | digits => some (digits, cs.dropWhile Char.isDigit)

/-- Reads the digits in front of the point; a zero stands alone. -/
def readWhole (cs : List Char) : Option (List Char × List Char) :=
  match readDigits cs with
  | some ('0' :: _ :: _, _) => none
  | r => r

/-- Reads the digits behind a point, if there is one. -/
def readFraction : List Char → Option (List Char × List Char)
  | '.' :: rest => readDigits rest
  | cs => some ([], cs)

def readExponentDigits (negative : Bool) (cs : List Char) :
    Option (Option (Bool × List Char) × List Char) :=
  (readDigits cs).map fun (digits, rest) => (some (negative, digits), rest)

def readSignedExponent : List Char → Option (Option (Bool × List Char) × List Char)
  | '+' :: rest => readExponentDigits false rest
  | '-' :: rest => readExponentDigits true rest
  | cs => readExponentDigits false cs

def readExponent : List Char → Option (Option (Bool × List Char) × List Char)
  | 'e' :: rest => readSignedExponent rest
  | 'E' :: rest => readSignedExponent rest
  | cs => some (none, cs)

/-- Reads a number behind its sign. -/
def readNumeral (negative : Bool) (cs : List Char) : Option (Numeral × List Char) := do
  let (whole, cs) ← readWhole cs
  let (fraction, cs) ← readFraction cs
  let (exponent, cs) ← readExponent cs
  return (⟨negative, whole, fraction, exponent⟩, cs)

/-! ## Strings -/

def hexDigit? (c : Char) : Option Nat :=
  if c.isDigit then some (c.toNat - '0'.toNat)
  else if 'a' ≤ c ∧ c ≤ 'f' then some (c.toNat - 'a'.toNat + 10)
  else if 'A' ≤ c ∧ c ≤ 'F' then some (c.toNat - 'A'.toNat + 10)
  else none

def hexCode? (a b c d : Char) : Option Nat := do
  return ((← hexDigit? a) * 16 + (← hexDigit? b)) * 256 + (← hexDigit? c) * 16 + (← hexDigit? d)

/-- One part of a string: a character, or half of a surrogate pair. -/
inductive StringPart where
  | char (c : Char)
  | high (code : Nat)
  | low (code : Nat)

def StringPart.ofCode (code : Nat) : StringPart :=
  if 0xD800 ≤ code ∧ code < 0xDC00 then .high code
  else if 0xDC00 ≤ code ∧ code < 0xE000 then .low code
  else .char (Char.ofNat code)

def simpleEscape? : Char → Option Char
  | '"' => some '"'
  | '\\' => some '\\'
  | '/' => some '/'
  | 'b' => some '\x08'
  | 'f' => some '\x0c'
  | 'n' => some '\n'
  | 'r' => some '\r'
  | 't' => some '\t'
  | _ => none

/-- Reads the parts of a string up to its closing quote. -/
def readParts : List Char → Option (List StringPart × List Char)
  | [] => none
  | '"' :: rest => some ([], rest)
  | '\\' :: 'u' :: a :: b :: c :: d :: rest => do
    let code ← hexCode? a b c d
    let (parts, rest) ← readParts rest
    return (.ofCode code :: parts, rest)
  | '\\' :: e :: rest => do
    let c ← simpleEscape? e
    let (parts, rest) ← readParts rest
    return (.char c :: parts, rest)
  | c :: rest => do
    if c.toNat < 0x20 ∨ c = '\\' then none
    else
      let (parts, rest) ← readParts rest
      return (.char c :: parts, rest)

/-- The characters that the parts denote; none if a surrogate stands alone. -/
def joinParts : List StringPart → Option (List Char)
  | [] => some []
  | .char c :: rest => (joinParts rest).map (c :: ·)
  | .high h :: .low l :: rest =>
    -- Each half of a pair carries ten bits.
    (joinParts rest).map (Char.ofNat (0x10000 + (h - 0xD800) * 0x400 + (l - 0xDC00)) :: ·)
  | _ => none

def readText (cs : List Char) : Option (Option String × List Char) :=
  (readParts cs).map fun (parts, rest) => ((joinParts parts).map String.ofList, rest)

/-! ## Values -/

def readWord (word : List Char) (value : Json) (cs : List Char) : Option (Json × List Char) :=
  if word.isPrefixOf cs then some (value, cs.drop word.length) else none

/-- Reads the items of a list behind its opening bracket, with commas between them and the closing
    bracket behind them. -/
def readItems {α : Type} (close : Char) (item : List Char → Option (α × List Char)) :
    Nat → List Char → Option (List α × List Char)
  | 0, _ => none
  | fuel + 1, cs => do
    let (first, cs) ← item cs
    match skipSpace cs with
    | ',' :: cs => do
      let (others, cs) ← readItems close item fuel cs
      return (first :: others, cs)
    | c :: cs => if c = close then return ([first], cs) else none
    | [] => none

def readList {α : Type} (close : Char) (item : List Char → Option (α × List Char))
    (cs : List Char) : Option (List α × List Char) :=
  match skipSpace cs with
  | c :: rest => if c = close then some ([], rest) else readItems close item cs.length cs
  | [] => none

def readField (value : List Char → Option (Json × List Char)) (cs : List Char) :
    Option ((Option String × Json) × List Char) :=
  match skipSpace cs with
  | '"' :: cs => do
    let (key, cs) ← readText cs
    match skipSpace cs with
    | ':' :: cs => do
      let (v, cs) ← value cs
      return ((key, v), cs)
    | _ => none
  | _ => none

/-- Reads a value with fewer than `depth` nestings. -/
def readValue : Nat → List Char → Option (Json × List Char)
  | 0, _ => none
  | depth + 1, cs =>
    match skipSpace cs with
    | 'n' :: cs => readWord ['u', 'l', 'l'] .null cs
    | 't' :: cs => readWord ['r', 'u', 'e'] (.bool true) cs
    | 'f' :: cs => readWord ['a', 'l', 's', 'e'] (.bool false) cs
    | '"' :: cs => (readText cs).map fun (s, cs) => (.string s, cs)
    | '[' :: cs => (readList ']' (readValue depth) cs).map fun (items, cs) => (.array items, cs)
    | '{' :: cs =>
      (readList '}' (readField (readValue depth)) cs).map fun (fields, cs) => (.object fields, cs)
    | '-' :: cs => (readNumeral true cs).map fun (n, cs) => (.number n, cs)
    | cs => (readNumeral false cs).map fun (n, cs) => (.number n, cs)

def parse? (s : String) : Option Json := do
  let cs := s.toList
  let (value, rest) ← readValue (cs.length + 1) cs
  if (skipSpace rest).isEmpty then some value else none

end Tremolo.Json
