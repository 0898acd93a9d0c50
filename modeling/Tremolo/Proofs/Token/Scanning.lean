import Tremolo.Syntax.Writable

/-! # Written tokens are read back

A kind of token that can be written is read from its text, if nothing follows or a blank
(`TokenKind.readable`).  So a list of such kinds is read from its text with blanks in between
(`scanFrom_spaced`).  Which letters there are beyond ASCII does not matter. -/

namespace Tremolo

/-- Nothing follows, or a blank. -/
def Separated (rest : List Char) : Prop :=
  ∀ c ∈ rest.head?, c = ' '

/-- The text is read as a token of the kind, whatever follows behind a blank. -/
def TokenKind.ReadFrom [Alphabet] (kind : TokenKind) (text : List Char) : Prop :=
  ∃ c cs, text = c :: cs ∧ ∀ rest, Separated rest → readItem c (cs ++ rest) = ⟨.token kind, cs⟩

theorem Separated.nil : Separated [] :=
  nofun

theorem Separated.blank (rest : List Char) : Separated (' ' :: rest) := by
  intro c hc
  exact (Option.some.inj hc).symm

section Separated

variable {rest cs : List Char} (h : Separated rest) {p : Char → Bool} (hp : p ' ' = false)

include h hp

theorem Separated.takeWhile_eq_nil : rest.takeWhile p = [] := by
  cases rest with
  | nil => rfl
  | cons c rest =>
    obtain rfl : c = ' ' := h c rfl
    simp [hp]

theorem Separated.takeWhile_append (hcs : ∀ c ∈ cs, p c = true) : (cs ++ rest).takeWhile p = cs := by
  rw [List.takeWhile_append_of_pos hcs, h.takeWhile_eq_nil hp, List.append_nil]

end Separated

/-! ## Words -/

theorem ascii_of_isAlphanum {c : Char} (h : c.isAlphanum = true) : c.toNat < 0x80 := by
  have hbelow : ∀ last : Char, last.toNat < 0x80 → c.val ≤ last.val → c.toNat < 0x80 :=
    fun last hlast hle => Nat.lt_of_le_of_lt (UInt32.le_iff_toNat_le.1 hle) hlast
  rcases Bool.or_eq_true_iff.1 h with hletter | hdigit
  · rcases Bool.or_eq_true_iff.1 hletter with hupper | hlower
    · exact hbelow 'Z' (by decide) (of_decide_eq_true hupper).2
    · exact hbelow 'z' (by decide) (of_decide_eq_true (Bool.and_eq_true_iff.1 hlower).2)
  · exact hbelow '9' (by decide) (of_decide_eq_true (Bool.and_eq_true_iff.1 hdigit).2)

section Words

variable [Alphabet] {c : Char}

theorem startsWord_of_isAlpha (h : c.isAlpha = true) : startsWord c = true := by
  have halphanum : c.isAlphanum = true := by simp [Char.isAlphanum, h]
  simp [Alphabet.startsWord_ascii c (ascii_of_isAlphanum halphanum), h]

theorem continuesWord_of_isAlpha (h : c.isAlpha = true) : continuesWord c = true := by
  have halphanum : c.isAlphanum = true := by simp [Char.isAlphanum, h]
  simp [Alphabet.continuesWord_ascii c (ascii_of_isAlphanum halphanum), halphanum]

theorem not_startsWord_of_isDigit (h : c.isDigit = true) : startsWord c = false := by
  have hdigits : ∀ n < 0x80, (Char.ofNat n).isDigit = true →
      ((Char.ofNat n).isAlpha || Char.ofNat n == '_') = false := by decide
  have hascii : c.toNat < 0x80 := ascii_of_isAlphanum (by simp [Char.isAlphanum, h])
  have hc := hdigits c.toNat hascii
  rw [Char.ofNat_toNat] at hc
  rw [Alphabet.startsWord_ascii c hascii, hc h]

theorem not_continuesWord (hascii : c.toNat < 0x80) (h : (c.isAlphanum || c == '_') = false) :
    continuesWord c = false := by
  rw [Alphabet.continuesWord_ascii c hascii, h]

theorem isWord_of_isAlpha {word : String} (hne : word.toList ≠ []) (h : word.toList.all Char.isAlpha) :
    isWord word = true := by
  unfold isWord
  cases hword : word.toList with
  | nil => exact absurd hword hne
  | cons c cs =>
    rw [hword, List.all_cons, Bool.and_eq_true, List.all_eq_true] at h
    simp only [startsWord_of_isAlpha h.1, Bool.true_and, List.all_eq_true]
    exact fun d hd => continuesWord_of_isAlpha (h.2 d hd)

/-- No other item starts like a word. -/
theorem readItem_word (h : startsWord c = true) (rest : List Char) :
    readItem c rest = .word c rest := by
  have hdigit : c.isDigit = false := by
    cases hdigit : c.isDigit with
    | false => rfl
    | true =>
      rw [not_startsWord_of_isDigit hdigit] at h
      cases h
  unfold readItem
  split
  all_goals first | simp [Alphabet.startsWord_ascii] at h | simp [hdigit, h]

theorem wordKind_readFrom (word : String) (h : isWord word = true) :
    (wordKind word).ReadFrom word.toList := by
  unfold isWord at h
  split at h
  next => cases h
  next c cs heq =>
    simp only [Bool.and_eq_true, List.all_eq_true] at h
    refine ⟨c, cs, heq, fun rest hrest => ?_⟩
    rw [readItem_word h.1, Reading.word, hrest.takeWhile_append (not_continuesWord (by decide) rfl) h.2,
      ← heq, String.ofList_toList]

end Words

/-! ## Numbers -/

theorem readItem_number [Alphabet] {c : Char} (h : c.isDigit = true) (rest : List Char) :
    readItem c rest = .number c rest := by
  unfold readItem
  split
  all_goals first | exact absurd h (by decide) | simp [h]

theorem Decimal.ofDigits_toDigits (k : Nat) : ofDigits (Nat.toDigits 10 k) = k := by
  rw [ofDigits, ← Nat.ofDigitChars_eq_foldl, Nat.ofDigitChars_ten_toDigits]

theorem Decimal.int64?_toInt (n : Int64) : int64? n.toInt = some n := by
  unfold int64?
  rw [if_pos ⟨Int64.minValue_le_toInt n, Int64.toInt_le n⟩, Int64.ofInt_toInt]

theorem integerItem_toDigits {n : Int64} (h : 0 ≤ n) :
    integerItem (Nat.toDigits 10 n.toInt.natAbs) = .token (.integer n) := by
  have hnonneg : 0 ≤ n.toInt := Int64.le_iff_toInt_le.1 h
  simp only [integerItem, Decimal.ofDigits_toDigits, Int.natAbs_of_nonneg hnonneg,
    Decimal.int64?_toInt]

/-- A number that is followed by neither a digit nor a point is an integer. -/
theorem readItem_toDigits [Alphabet] (k : Nat) :
    ∃ c cs, Nat.toDigits 10 k = c :: cs ∧
      ∀ rest, (∀ d ∈ rest.head?, d.isDigit = false ∧ d ≠ '.') →
        readItem c (cs ++ rest) = ⟨integerItem (c :: cs), cs⟩ := by
  have hall : ∀ c ∈ Nat.toDigits 10 k, c.isDigit = true :=
    fun c hc => Nat.isDigit_of_mem_toDigits (by decide) (by decide) hc
  cases hdigits : Nat.toDigits 10 k with
  | nil => exact absurd hdigits Nat.toDigits_ne_nil
  | cons c cs =>
    rw [hdigits] at hall
    obtain ⟨hc, hcs⟩ := List.forall_mem_cons.1 hall
    refine ⟨c, cs, rfl, fun rest hrest => ?_⟩
    rw [readItem_number hc, Reading.number, List.takeWhile_append_of_pos hcs,
      List.dropWhile_append_of_pos hcs]
    cases rest with
    | nil => simp
    | cons d rest =>
      obtain ⟨hdigit, hpoint⟩ := hrest d rfl
      simp [hdigit, hpoint]

theorem integer_readFrom [Alphabet] {n : Int64} (h : 0 ≤ n) :
    (TokenKind.integer n).ReadFrom (TokenKind.source (.integer n)) := by
  have hnonneg : 0 ≤ n.toInt := Int64.le_iff_toInt_le.1 h
  have hsource : TokenKind.source (.integer n) = Nat.toDigits 10 n.toInt.natAbs := by
    simp [TokenKind.source, Decimal.intText, Decimal.natText, Int.not_lt.2 hnonneg]
  obtain ⟨c, cs, hdigits, hread⟩ := readItem_toDigits n.toInt.natAbs
  refine ⟨c, cs, hsource.trans hdigits, fun rest hrest => ?_⟩
  have hblank : ∀ d ∈ rest.head?, d.isDigit = false ∧ d ≠ '.' := by
    intro d hd
    rw [hrest d hd]
    decide
  rw [hread rest hblank, ← hdigits, integerItem_toDigits h]

/-! ## Strings -/

/-- What may stand behind a backslash, and the character that it denotes there. -/
inductive Escape : Char → Char → Prop
  | lineEnd : Escape 'n' '\n'
  | tab : Escape 't' '\t'
  | carriageReturn : Escape 'r' '\r'
  | backslash : Escape '\\' '\\'
  | doubleQuote : Escape '"' '"'
  | singleQuote : Escape '\'' '\''

theorem escaped?_eq_some {d c : Char} : escaped? d = some c ↔ Escape d c := by
  constructor
  · intro h
    unfold escaped? at h
    split at h <;> cases h
    · exact .lineEnd
    · exact .tab
    · exact .carriageReturn
    · exact .backslash
    · exact .doubleQuote
    · exact .singleQuote
  · rintro ⟨⟩ <;> rfl

/-- What stands between two quotes for a row of characters: each of them as it is, unless it is a
    backslash or the quote, or as an escape. -/
inductive Inscribed (quote : Char) : List Char → List Char → Prop
  | nil : Inscribed quote [] []
  | raw {c : Char} {body s : List Char} : c ≠ quote → c ≠ '\\' → Inscribed quote body s →
      Inscribed quote (c :: body) (c :: s)
  | escape {d c : Char} {body s : List Char} : Escape d c → Inscribed quote body s →
      Inscribed quote ('\\' :: d :: body) (c :: s)

/-- A string is read from all that can be inscribed for it, up to the quote. -/
theorem readString_inscribed {quote : Char} (hquote : quote ≠ '\\') {body s : List Char}
    (h : Inscribed quote body s) (rest : List Char) :
    readString quote (body ++ quote :: rest) = ⟨body ++ [quote], s, .closed⟩ := by
  induction h with
  | nil => simp [readString, hquote]
  | raw hne hslash _ ih => simp [readString, hslash, hne, ih, StringBody.cons]
  | escape hescape _ ih =>
    simp [readString, escaped?_eq_some.2 hescape, ih, StringBody.cons]

theorem inscribed_escapedChar (s : List Char) : Inscribed '"' (s.flatMap escapedChar) s := by
  induction s with
  | nil => exact .nil
  | cons c s ih =>
    rw [List.flatMap_cons]
    unfold escapedChar
    split
    · exact .escape .lineEnd ih
    · exact .escape .tab ih
    · exact .escape .carriageReturn ih
    · exact .escape .backslash ih
    · exact .escape .doubleQuote ih
    · exact .raw (by assumption) (by assumption) ih

theorem string_readFrom [Alphabet] (s : String) :
    (TokenKind.string s).ReadFrom (TokenKind.source (.string s)) := by
  refine ⟨'"', s.toList.flatMap escapedChar ++ ['"'], rfl, fun rest _ => ?_⟩
  have hread := readString_inscribed (by decide) (inscribed_escapedChar s.toList) rest
  have hitem : readItem '"' (s.toList.flatMap escapedChar ++ ['"'] ++ rest) =
      .string '"' (s.toList.flatMap escapedChar ++ '"' :: rest) := by
    rw [List.append_assoc]
    rfl
  rw [hitem, Reading.string, hread]
  simp

/-! ## All kinds -/

section Kinds

variable [Alphabet]

theorem sign_readFrom {c : Char} {kind : TokenKind} (h : ∀ rest, readItem c rest = .sign kind) :
    kind.ReadFrom [c] :=
  ⟨c, [], rfl, fun rest _ => h rest⟩

theorem signOrEq_readFrom {c : Char} {kind : TokenKind} {withEq : Item}
    (h : ∀ rest, readItem c rest = .signOrEq (.token kind) withEq rest) : kind.ReadFrom [c] := by
  refine ⟨c, [], rfl, fun rest hrest => ?_⟩
  rw [h]
  cases rest with
  | nil => rfl
  | cons d rest =>
    obtain rfl : d = ' ' := hrest d rfl
    rfl

theorem withEq_readFrom {c : Char} {kind : TokenKind} {alone : Item}
    (h : ∀ rest, readItem c rest = .signOrEq alone (.token kind) rest) : kind.ReadFrom [c, '='] :=
  ⟨c, ['='], rfl, fun rest _ => h ('=' :: rest)⟩

theorem typeName_readFrom {name : String} (h : name ∈ TokenKind.typeWords) :
    (TokenKind.typeName name).ReadFrom name.toList := by
  have hword : name.toList ≠ [] ∧ name.toList.all Char.isAlpha ∧
      TokenKind.reservedWords.lookup name = none ∧ name.toList.map Char.toUpper = name.toList := by
    simp only [TokenKind.typeWords, List.mem_cons, List.not_mem_nil, or_false] at h
    rcases h with rfl | rfl | rfl <;> decide
  obtain ⟨hne, hletters, hreserved, hupper⟩ := hword
  have hkind : wordKind name = .typeName name := by
    rw [← String.toList_map, String.toList_inj] at hupper
    simp [wordKind, TokenKind.keyword?, hreserved, hupper, h]
  rw [← hkind]
  exact wordKind_readFrom name (isWord_of_isAlpha hne hletters)

theorem identifier_readFrom {name : String} (h : isIdentifier name = true) :
    (TokenKind.identifier name).ReadFrom name.toList := by
  simp only [isIdentifier, Bool.and_eq_true, Option.isNone_iff_eq_none] at h
  have hkind : wordKind name = .identifier name := by simp [wordKind, h.2]
  rw [← hkind]
  exact wordKind_readFrom name h.1

theorem reserved_readFrom (word : String) (h : word.toList ≠ [] ∧ word.toList.all Char.isAlpha) :
    (wordKind word).ReadFrom word.toList :=
  wordKind_readFrom word (isWord_of_isAlpha h.1 h.2)

/-- Kinds that can be written are read back. -/
theorem TokenKind.readable {kind : TokenKind} (h : kind.writable = true) :
    kind.ReadFrom kind.source := by
  cases kind with
  | integer n => exact integer_readFrom (of_decide_eq_true h)
  | float | eof => cases h
  | string s => exact string_readFrom s
  | identifier name => exact identifier_readFrom h
  | typeName name => exact typeName_readFrom (by simpa [TokenKind.writable] using h)
  | trueWord => exact reserved_readFrom "true" (by decide)
  | falseWord => exact reserved_readFrom "false" (by decide)
  | defWord => exact reserved_readFrom "def" (by decide)
  | returnWord => exact reserved_readFrom "return" (by decide)
  | ifWord => exact reserved_readFrom "if" (by decide)
  | whileWord => exact reserved_readFrom "while" (by decide)
  | andWord => exact reserved_readFrom "and" (by decide)
  | orWord => exact reserved_readFrom "or" (by decide)
  | declarationsWord => exact reserved_readFrom "Declarations" (by decide)
  | typesWord => exact reserved_readFrom "Types" (by decide)
  | modulesWord => exact reserved_readFrom "Modules" (by decide)
  | plus | minus | star | slash => exact sign_readFrom fun _ => rfl
  | leftParen | rightParen | leftBrace | rightBrace => exact sign_readFrom fun _ => rfl
  | semicolon | comma | colon => exact sign_readFrom fun _ => rfl
  | assign | lt | gt => exact signOrEq_readFrom fun _ => rfl
  | eq | notEq | ltEq | gtEq => exact withEq_readFrom fun _ => rfl

end Kinds

/-! ## Texts -/

section Texts

variable [Alphabet]

theorem scanFrom_taken (p : Position) (cs rest : List Char) :
    scanFrom p cs.length (cs ++ rest) = scanFrom p 0 rest := by
  induction cs with
  | nil => rfl
  | cons c cs ih => exact ih

theorem scanFrom_token {kind : TokenKind} {text rest : List Char} (h : kind.ReadFrom text)
    (hrest : Separated rest) (p : Position) :
    ∃ token : Token, token.kind = kind ∧
      scanFrom p 0 (text ++ rest) =
        { scanFrom (p.along text) 0 rest with
          tokens := token :: (scanFrom (p.along text) 0 rest).tokens } := by
  obtain ⟨c, cs, rfl, hread⟩ := h
  refine ⟨⟨kind, String.ofList (c :: cs), (p.along (c :: cs)).line, p.column⟩, rfl, ?_⟩
  simp only [List.cons_append, scanFrom, hread rest hrest, scanFrom_taken]

omit [Alphabet] in
theorem spaced_cons (k k' : TokenKind) (ks : List TokenKind) :
    spaced (k :: k' :: ks) = k.source ++ ' ' :: spaced (k' :: ks) := by
  simp [spaced]

/-- Kinds with blanks between them are read back one by one. -/
theorem scanFrom_spaced {ks : List TokenKind} (h : ∀ k ∈ ks, k.writable = true) (p : Position) :
    ∃ tokens q, tokens.map Token.kind = ks ∧ scanFrom p 0 (spaced ks) = ⟨tokens, [], q, none⟩ := by
  induction ks generalizing p with
  | nil => exact ⟨[], p, rfl, rfl⟩
  | cons k ks ih =>
    obtain ⟨hk, hks⟩ := List.forall_mem_cons.1 h
    cases ks with
    | nil =>
      obtain ⟨token, hkind, hscan⟩ := scanFrom_token (TokenKind.readable hk) Separated.nil p
      refine ⟨[token], p.along k.source, by simp [hkind], ?_⟩
      simpa [spaced, scanFrom] using hscan
    | cons k' ks =>
      obtain ⟨token, hkind, hscan⟩ := scanFrom_token (TokenKind.readable hk)
        (Separated.blank (spaced (k' :: ks))) p
      obtain ⟨tokens, q, hkinds, hrest⟩ := ih hks ((p.along k.source).along [' '])
      refine ⟨token :: tokens, q, by simp [hkind, hkinds], ?_⟩
      have hblank : scanFrom (p.along k.source) 0 (' ' :: spaced (k' :: ks)) =
          scanFrom ((p.along k.source).along [' ']) 0 (spaced (k' :: ks)) := rfl
      rw [spaced_cons, hscan, hblank, hrest]

/-- The text of writable kinds has these kinds as tokens, and an end mark. -/
theorem tokenize_spaced {ks : List TokenKind} (h : ∀ k ∈ ks, k.writable = true) :
    ∃ tokens last, tokenize (String.ofList (spaced ks)) = .ok (tokens ++ [last]) ∧
      tokens.map Token.kind = ks ∧ last.kind = .eof := by
  obtain ⟨tokens, q, hkinds, hscan⟩ := scanFrom_spaced h .start
  refine ⟨tokens, .endAt q, ?_, hkinds, rfl⟩
  simp [tokenize, Scanner.ofString, Scanner.scan, hscan]

end Texts

end Tremolo
