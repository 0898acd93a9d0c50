import Tremolo.Error
import Tremolo.Text.Category

/-! # Reading tokens

The characters of a script fall into items: blanks and comments, which are skipped, tokens, and
faults.  `readItem` recognises the item that starts with a given character; `scanFrom` reads items to
the end of the text or to the first fault.

* `Position.step` — where the next character stands;
* `readItem` — the item that starts here;
* `scanFrom` — all items from here on;
* `Scanner.scan` — one request for tokens, which resumes where the last one stopped. -/

namespace Tremolo

/-! ## Positions -/

/-- A place in the text; lines and columns count from 1. -/
structure Position where
  line : Nat
  column : Nat
deriving DecidableEq

def Position.start : Position :=
  ⟨1, 1⟩

def Position.right (p : Position) : Position :=
  ⟨p.line, p.column + 1⟩

/-- The place behind a character: a line end leads to the start of the next line. -/
def Position.step (p : Position) (c : Char) : Position :=
  if c = '\n' then ⟨p.line + 1, 1⟩ else p.right

def Position.along (p : Position) (cs : List Char) : Position :=
  cs.foldl Position.step p

/-! ## Items -/

inductive Item where
  /-- A blank or a comment. -/
  | skip
  | token (kind : TokenKind)
  | fault (f : LexicalFault)

/-- An item and the characters it takes behind the first one. -/
structure Reading where
  item : Item
  tail : List Char

def Reading.sign (kind : TokenKind) : Reading :=
  ⟨.token kind, []⟩

/-- A sign of one character, or another one if `=` follows. -/
def Reading.signOrEq (alone withEq : Item) (rest : List Char) : Reading :=
  match rest with
  | '=' :: _ => ⟨withEq, ['=']⟩
  | _ => ⟨alone, []⟩

/-! ### Strings -/

inductive Closing where
  | closed
  | invalidEscape (c : Char)
  | unterminated

/-- What stands behind the opening quote of a string literal: the characters taken, the characters
    denoted, and how the literal ends. -/
structure StringBody where
  taken : List Char
  content : List Char
  closing : Closing

def escaped? : Char → Option Char
  | 'n' => some '\n'
  | 't' => some '\t'
  | 'r' => some '\r'
  | '\\' => some '\\'
  | '"' => some '"'
  | '\'' => some '\''
  | _ => none

def StringBody.cons (taken : List Char) (c : Char) (body : StringBody) : StringBody :=
  { body with taken := taken ++ body.taken, content := c :: body.content }

/-- Reads up to the closing quote, a bad escape or the end of the text. -/
def readString (quote : Char) : List Char → StringBody
  | [] => ⟨[], [], .unterminated⟩
  | ['\\'] => ⟨['\\'], [], .unterminated⟩
  | '\\' :: c :: rest =>
    match escaped? c with
    | some d => (readString quote rest).cons ['\\', c] d
    | none => ⟨['\\', c], [], .invalidEscape c⟩
  | c :: rest =>
    if c = quote then ⟨[c], [], .closed⟩ else (readString quote rest).cons [c] c

def Reading.string (quote : Char) (rest : List Char) : Reading :=
  let body := readString quote rest
  match body.closing with
  | .closed => ⟨.token (.string (String.ofList body.content)), body.taken⟩
  | .invalidEscape c => ⟨.fault (.invalidEscape c), body.taken⟩
  | .unterminated => ⟨.fault .unterminatedString, body.taken⟩

/-! ### Numbers and words -/

def integerItem (digits : List Char) : Item :=
  match Decimal.int64? (Decimal.ofDigits digits) with
  | some n => .token (.integer n)
  | none => .fault (.integerOutOfRange (String.ofList digits))

/-- The literal `whole.fraction`, rounded to the nearest float. -/
def floatItem (whole fraction : List Char) : Item :=
  .token (.float (Decimal.nearestFloat (Decimal.ofDigits (whole ++ fraction)) fraction.length))

def Reading.number (first : Char) (rest : List Char) : Reading :=
  let whole := rest.takeWhile Char.isDigit
  match rest.dropWhile Char.isDigit with
  | '.' :: d :: more =>
    if d.isDigit then
      let fraction := d :: more.takeWhile Char.isDigit
      ⟨floatItem (first :: whole) fraction, whole ++ '.' :: fraction⟩
    -- A point that no digit follows is left for the next item.
    else ⟨integerItem (first :: whole), whole⟩
  | _ => ⟨integerItem (first :: whole), whole⟩

/-- The characters that may start and continue a word.  Among the ASCII characters these are the letters
    and the underscore, and behind the first character also the digits. -/
class Alphabet where
  startsWord : Char → Bool
  continuesWord : Char → Bool
  startsWord_ascii : ∀ c : Char, c.toNat < 0x80 → startsWord c = (c.isAlpha || c == '_')
  continuesWord_ascii : ∀ c : Char, c.toNat < 0x80 → continuesWord c = (c.isAlphanum || c == '_')

export Alphabet (startsWord continuesWord)

/-- The letters and numbers of every script. -/
instance Alphabet.unicode : Alphabet where
  startsWord c := Text.isAlphabetic c || c == '_'
  continuesWord c := Text.isAlphanumeric c || c == '_'
  startsWord_ascii c h := by
    have hall : ∀ n < 0x80, (Text.isAlphabetic (Char.ofNat n) || Char.ofNat n == '_') =
        ((Char.ofNat n).isAlpha || Char.ofNat n == '_') := by decide
    simpa only [Char.ofNat_toNat] using hall c.toNat h
  continuesWord_ascii c h := by
    have hall : ∀ n < 0x80, (Text.isAlphanumeric (Char.ofNat n) || Char.ofNat n == '_') =
        ((Char.ofNat n).isAlphanum || Char.ofNat n == '_') := by decide
    simpa only [Char.ofNat_toNat] using hall c.toNat h

def wordKind (word : String) : TokenKind :=
  (TokenKind.keyword? word).getD (.identifier word)

def Reading.word [Alphabet] (first : Char) (rest : List Char) : Reading :=
  let tail := rest.takeWhile continuesWord
  ⟨.token (wordKind (String.ofList (first :: tail))), tail⟩

/-! ### All items -/

/-- The item that starts with `c`, when `rest` follows. -/
def readItem [Alphabet] (c : Char) (rest : List Char) : Reading :=
  match c with
  | ' ' | '\r' | '\t' | '\n' => ⟨.skip, []⟩
  | '#' => ⟨.skip, rest.takeWhile (· ≠ '\n')⟩
  | '(' => .sign .leftParen
  | ')' => .sign .rightParen
  | '{' => .sign .leftBrace
  | '}' => .sign .rightBrace
  | ';' => .sign .semicolon
  | ',' => .sign .comma
  | ':' => .sign .colon
  | '+' => .sign .plus
  | '-' => .sign .minus
  | '*' => .sign .star
  | '/' => .sign .slash
  | '=' => .signOrEq (.token .assign) (.token .eq) rest
  | '!' => .signOrEq (.fault .loneBang) (.token .notEq) rest
  | '<' => .signOrEq (.token .lt) (.token .ltEq) rest
  | '>' => .signOrEq (.token .gt) (.token .gtEq) rest
  | '"' => .string '"' rest
  | '\'' => .string '\'' rest
  | c =>
    if c.isDigit then .number c rest
    else if startsWord c then .word c rest
    else ⟨.fault (.unexpectedCharacter c), []⟩

/-- The place behind a faulty text. -/
def LexicalFault.behind (f : LexicalFault) (p : Position) (text : List Char) : Position :=
  match f with
  -- The character behind a backslash never ends a line.
  | .invalidEscape _ => (p.along text.dropLast).right
  | _ => p.along text

/-! ## Scanning -/

/-- The outcome of reading items: the tokens found, where reading stopped, and why, if it was not at
    the end. -/
structure Scan where
  tokens : List Token
  rest : List Char
  position : Position
  error : Option Error

/-- Reads items from `p` to the end of the text or to the first fault, when the first `taken`
    characters belong to an item that has been read already. -/
def scanFrom [Alphabet] (p : Position) (taken : Nat) : List Char → Scan
  | [] => ⟨[], [], p, none⟩
  | c :: rest =>
    match taken with
    | taken + 1 => scanFrom p taken rest
    | 0 =>
      let reading := readItem c rest
      let text := c :: reading.tail
      match reading.item with
      | .skip => scanFrom (p.along text) reading.tail.length rest
      | .token kind =>
        let next := p.along text
        let scan := scanFrom next reading.tail.length rest
        -- A token is dated by the line on which it ends and the column at which it starts.
        { scan with tokens := ⟨kind, String.ofList text, next.line, p.column⟩ :: scan.tokens }
      | .fault f =>
        let next := f.behind p text
        ⟨[], rest.drop reading.tail.length, next, some (.lexical next.line p.column f)⟩

/-- A scanner: the text that is left, its place, and the tokens not yet handed out. -/
structure Scanner where
  rest : List Char
  position : Position
  pending : List Token

def Scanner.ofString (source : String) : Scanner :=
  ⟨source.toList, .start, []⟩

/-- The token that marks the end of the input. -/
def Token.endAt (p : Position) : Token :=
  ⟨.eof, "", p.line, p.column⟩

/-- Asks for all tokens up to the end of the text.  A fault ends the request, but the scanner keeps
    the tokens before the fault and its place behind it, and the next request goes on from there. -/
def Scanner.scan [Alphabet] (s : Scanner) : Except Error (List Token) × Scanner :=
  let scan := scanFrom s.position 0 s.rest
  let tokens := s.pending ++ scan.tokens
  match scan.error with
  | some e => (.error e, ⟨scan.rest, scan.position, tokens⟩)
  | none => (.ok (tokens ++ [.endAt scan.position]), ⟨scan.rest, scan.position, []⟩)

def tokenize [Alphabet] (source : String) : Except Error (List Token) :=
  (Scanner.ofString source).scan.1

end Tremolo
