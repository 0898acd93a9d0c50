import Tremolo.Proofs.Token.Lines

/-! # String literals

A string is written between two quotes of one kind, each of its characters as it is or as an escape
(`Writing`).  All writings of a string are read as that string, and nothing else is. -/

namespace Tremolo

/-- The text is the string between two quotes. -/
def Writing (quote : Char) (s text : String) : Prop :=
  (quote = '"' ∨ quote = '\'') ∧
    ∃ body, Inscribed quote body s.toList ∧ text.toList = quote :: (body ++ [quote])

/-! ## Reading -/

theorem readItem_quote [Alphabet] {quote : Char} (h : quote = '"' ∨ quote = '\'') (rest : List Char) :
    readItem quote rest = .string quote rest := by
  rcases h with rfl | rfl <;> rfl

/-- A literal that is closed has been inscribed for what it denotes. -/
theorem inscribed_of_closed {quote : Char} {cs : List Char}
    (h : (readString quote cs).closing = .closed) :
    ∃ body, (readString quote cs).taken = body ++ [quote] ∧
      Inscribed quote body (readString quote cs).content := by
  fun_induction readString quote cs with
  | case1 | case2 => cases h
  | case3 c rest d hd ih =>
    obtain ⟨body, htaken, hbody⟩ := ih h
    refine ⟨'\\' :: c :: body, ?_, .escape (escaped?_eq_some.1 hd) hbody⟩
    simp only [StringBody.cons, htaken]
    rfl
  | case4 => cases h
  | case5 => exact ⟨[], rfl, .nil⟩
  | case6 c rest hlone hescape hquote ih =>
    obtain ⟨body, htaken, hbody⟩ := ih h
    refine ⟨c :: body, ?_, .raw hquote (ne_backslash hlone hescape) hbody⟩
    simp only [StringBody.cons, htaken]
    rfl

theorem Reading.string_eq_token {quote : Char} {rest tail : List Char} {kind : TokenKind}
    (h : Reading.string quote rest = ⟨.token kind, tail⟩) :
    ∃ s body, kind = .string s ∧ tail = body ++ [quote] ∧ Inscribed quote body s.toList := by
  cases hclosing : (readString quote rest).closing with
  | closed =>
    obtain ⟨body, htaken, hbody⟩ := inscribed_of_closed hclosing
    simp only [Reading.string, hclosing, Reading.mk.injEq, Item.token.injEq] at h
    obtain ⟨rfl, rfl⟩ := h
    exact ⟨_, body, rfl, htaken, by simpa using hbody⟩
  | invalidEscape c => simp [Reading.string, hclosing] at h
  | unterminated => simp [Reading.string, hclosing] at h

theorem wordKind_ne_string (word s : String) : wordKind word ≠ .string s := by
  unfold wordKind TokenKind.keyword?
  split
  next kind hkind =>
    obtain ⟨before, after, hwords, -⟩ := List.lookup_eq_some_iff.1 hkind
    have hmem : (word, kind) ∈ TokenKind.reservedWords := by simp [hwords]
    rintro rfl
    simp [TokenKind.reservedWords] at hmem
  next =>
    dsimp only
    split <;> simp

theorem Reading.number_ne_string {first : Char} {rest : List Char} {s : String} :
    (Reading.number first rest).item ≠ .token (.string s) := by
  rcases Reading.number_cases first rest with heq | ⟨d, more, -, -, heq⟩
  · rw [heq]
    unfold integerItem
    split <;> simp
  · rw [heq]
    simp [floatItem]

/-- Only a quote leads to a string. -/
theorem quote_of_string [Alphabet] {c : Char} {rest : List Char} {s : String}
    (h : (readItem c rest).item = .token (.string s)) : c = '"' ∨ c = '\'' := by
  unfold readItem at h
  split at h
  case h_17 | h_18 | h_19 | h_20 =>
    unfold Reading.signOrEq at h
    split at h <;> simp at h
  case h_21 => exact .inl rfl
  case h_22 => exact .inr rfl
  case h_23 =>
    split at h
    · exact absurd h Reading.number_ne_string
    · split at h
      · simp [Reading.word, wordKind_ne_string] at h
      · simp at h
  all_goals simp [Reading.sign] at h

/-! ## Texts -/

theorem Writing.readItem [Alphabet] {quote : Char} {s text : String} (h : Writing quote s text) :
    ∃ tail, text.toList = quote :: tail ∧
      Tremolo.readItem quote (tail ++ []) = ⟨.token (.string s), tail⟩ := by
  obtain ⟨hquote, body, hbody, htext⟩ := h
  have hslash : quote ≠ '\\' := by rcases hquote with rfl | rfl <;> decide
  refine ⟨body ++ [quote], htext, ?_⟩
  rw [List.append_assoc, readItem_quote hquote, Reading.string, List.singleton_append,
    readString_inscribed hslash hbody]
  simp

theorem tokenize_writing [Alphabet] {quote : Char} {s text : String} (h : Writing quote s text) :
    tokenize text = .ok [⟨.string s, text, 1 + text.toList.count '\n', 1⟩,
      .endAt (Position.start.along text.toList)] := by
  obtain ⟨tail, htext, hread⟩ := h.readItem
  have hscan := scanFrom_read hread .start
  rw [List.append_nil, ← htext] at hscan
  have hline : (Position.start.along text.toList).line = 1 + text.toList.count '\n' := by
    rw [start_along]
  rw [tokenize_eq_ok, hscan, hline]
  simp [scanFrom, Position.start]

theorem writing_of_readItem [Alphabet] {c : Char} {tail : List Char} {s : String}
    (h : readItem c tail = ⟨.token (.string s), tail⟩) : Writing c s (String.ofList (c :: tail)) := by
  have hquote := quote_of_string (congrArg Reading.item h)
  rw [readItem_quote hquote] at h
  obtain ⟨s', body, hs, rfl, hbody⟩ := Reading.string_eq_token h
  cases hs
  exact ⟨hquote, body, hbody, by simp⟩

/-- A string is read from all its writings, each a text of one token, and every token of a string is
    written like that. -/
theorem string_literals_denote [Alphabet] :
    (∀ quote s text, Writing quote s text →
      tokenize text = .ok [⟨.string s, text, 1 + text.toList.count '\n', 1⟩,
        .endAt (Position.start.along text.toList)]) ∧
    ∀ source tokens, tokenize source = .ok tokens → ∀ t ∈ tokens, ∀ s, t.kind = .string s →
      ∃ quote, Writing quote s t.lexeme := by
  refine ⟨fun quote s text => tokenize_writing, fun source tokens h t ht s hs => ?_⟩
  obtain ⟨-, rfl⟩ := tokenize_eq_ok.1 h
  rcases List.mem_append.1 ht with hscanned | hlast
  · obtain ⟨c, tail, hlexeme, hread⟩ := readItem_of_mem_scanFrom hscanned
    rw [hs] at hread
    rw [hlexeme]
    exact ⟨c, writing_of_readItem hread⟩
  · obtain rfl := List.mem_singleton.1 hlast
    cases hs

/-- Both quotes, a line end, a NUL, and a backslash as the last character. -/
def Excerpt.string : String :=
  "'\"\n\x00\\"

/-- The string in single quotes, with escapes only where there must be. -/
def Excerpt.literal : String :=
  "'\\'\"\n\x00\\\\'"

open Excerpt in
theorem string_literals_denote_excerpt :
    Writing '\'' string literal ∧
      tokenize literal = .ok [⟨.string string, literal, 2, 1⟩, ⟨.eof, "", 2, 5⟩] ∧
      ∃ t, tokenize ("x=" ++ literal) = .ok [⟨.identifier "x", "x", 1, 1⟩, ⟨.assign, "=", 1, 2⟩, t,
          ⟨.eof, "", 2, 5⟩] ∧ t.kind = .string string ∧ ∃ quote, Writing quote string t.lexeme := by
  have hwriting : Writing '\'' string literal :=
    ⟨.inr rfl, "\\'\"\n\x00\\\\".toList, .escape .singleQuote (.raw (by decide) (by decide)
      (.raw (by decide) (by decide) (.raw (by decide) (by decide) (.escape .backslash .nil)))), rfl⟩
  have hread : tokenize ("x=" ++ literal) = .ok [⟨.identifier "x", "x", 1, 1⟩, ⟨.assign, "=", 1, 2⟩,
      ⟨.string string, literal, 2, 3⟩, ⟨.eof, "", 2, 5⟩] := by decide +kernel
  refine ⟨hwriting, (string_literals_denote.1 _ _ _ hwriting).trans (by decide +kernel), _, hread, rfl, ?_⟩
  exact string_literals_denote.2 _ _ hread _ (by simp) string rfl

end Tremolo
