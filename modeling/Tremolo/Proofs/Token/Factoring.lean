import Mathlib.Data.List.Induction
import Tremolo.Proofs.Token.Items

/-! # Tokens and gaps make up the text

A text that can be scanned is the lexemes of its tokens with gaps around them: blanks, and comments
that end with their line (`Factored`).  Each lexeme is a text of one token by itself.  The end mark
stands where the text ends. -/

namespace Tremolo

/-- Blanks and comments in front of `after`.  A comment goes on to the next line end, or to the end
    of the text. -/
inductive Gap (after : List Char) : List Char → Prop where
  | nil : Gap after []
  | blank {c : Char} {gap : List Char} (hc : c = ' ' ∨ c = '\t' ∨ c = '\r' ∨ c = '\n')
      (hgap : Gap after gap) : Gap after (c :: gap)
  | comment {body gap : List Char} (hbody : '\n' ∉ body)
      (hend : gap ++ after = [] ∨ ∃ rest, gap ++ after = '\n' :: rest) (hgap : Gap after gap) :
      Gap after ('#' :: body ++ gap)

/-- The lexeme, scanned alone, is one token of the same kind and lexeme. -/
def Token.StandsAlone [Alphabet] (t : Token) : Prop :=
  ∃ u last : Token, tokenize t.lexeme = .ok [u, last] ∧
    u.kind = t.kind ∧ u.lexeme = t.lexeme ∧ last.kind = .eof

/-- The text is a gap, a lexeme, a gap, a lexeme and so on up to a last gap, and these are the
    lexemes of the tokens. -/
inductive Factored [Alphabet] : List Char → List Token → Prop where
  | last {gap : List Char} (hgap : Gap [] gap) : Factored gap []
  | token {gap text : List Char} {t : Token} {ts : List Token}
      (hgap : Gap (t.lexeme.toList ++ text) gap) (hne : t.lexeme.toList ≠ [])
      (halone : t.StandsAlone) (htext : Factored text ts) :
      Factored (gap ++ t.lexeme.toList ++ text) (t :: ts)

theorem Factored.blank [Alphabet] {c : Char} {text : List Char} {ts : List Token}
    (hc : c = ' ' ∨ c = '\t' ∨ c = '\r' ∨ c = '\n') (h : Factored text ts) :
    Factored (c :: text) ts := by
  cases h with
  | last hgap => exact .last (.blank hc hgap)
  | token hgap hne halone htext => exact .token (.blank hc hgap) hne halone htext

theorem Factored.comment [Alphabet] {body text : List Char} {ts : List Token} (hbody : '\n' ∉ body)
    (hend : text = [] ∨ ∃ rest, text = '\n' :: rest) (h : Factored text ts) :
    Factored ('#' :: (body ++ text)) ts := by
  cases h with
  | last hgap =>
    have hlast : Gap [] ('#' :: body ++ text) := .comment hbody (by simpa using hend) hgap
    exact .last hlast
  | @token gap text t ts hgap hne halone htext =>
    have hfirst : Gap (t.lexeme.toList ++ text) ('#' :: body ++ gap) :=
      .comment hbody (by simpa using hend) hgap
    simpa using Factored.token hfirst hne halone htext

theorem Factored.read [Alphabet] {t : Token} {text : List Char} {ts : List Token}
    (hne : t.lexeme.toList ≠ []) (halone : t.StandsAlone) (h : Factored text ts) :
    Factored (t.lexeme.toList ++ text) (t :: ts) :=
  .token .nil hne halone h

/-! ## Items -/

theorem integerItem_ne_skip (digits : List Char) : integerItem digits ≠ .skip := by
  unfold integerItem
  split <;> simp

theorem Reading.number_ne_skip (first : Char) (rest : List Char) :
    (Reading.number first rest).item ≠ .skip := by
  rcases Reading.number_cases first rest with heq | ⟨d, more, -, -, heq⟩
  · rw [heq]
    exact integerItem_ne_skip _
  · rw [heq]
    nofun

theorem Reading.string_ne_skip (quote : Char) (rest : List Char) :
    (Reading.string quote rest).item ≠ .skip := by
  simp only [Reading.string]
  split <;> simp

theorem Reading.signOrEq_ne_skip {alone withEq : Item} (halone : alone ≠ .skip)
    (hwithEq : withEq ≠ .skip) (rest : List Char) :
    (Reading.signOrEq alone withEq rest).item ≠ .skip := by
  unfold Reading.signOrEq
  split
  · exact hwithEq
  · exact halone

/-- A comment goes on to the next line end. -/
theorem takeWhile_line {tail after : List Char}
    (h : (tail ++ after).takeWhile (· ≠ '\n') = tail) :
    '\n' ∉ tail ∧ (after = [] ∨ ∃ rest, after = '\n' :: rest) := by
  have hline : ∀ c ∈ tail, decide (c ≠ '\n') = true := by
    intro c hc
    rw [← h] at hc
    exact List.mem_takeWhile_imp (p := fun c => decide (c ≠ '\n')) hc
  rw [List.takeWhile_append_of_pos hline] at h
  constructor
  · intro hmem
    simpa using hline '\n' hmem
  · cases after with
    | nil => exact .inl rfl
    | cons c rest =>
      by_cases hc : c = '\n'
      · exact .inr ⟨rest, by rw [hc]⟩
      · simp [hc] at h

theorem readItem_skip [Alphabet] {c : Char} {tail after : List Char}
    (h : readItem c (tail ++ after) = ⟨.skip, tail⟩) :
    (tail = [] ∧ (c = ' ' ∨ c = '\t' ∨ c = '\r' ∨ c = '\n')) ∨
      (c = '#' ∧ '\n' ∉ tail ∧ (after = [] ∨ ∃ rest, after = '\n' :: rest)) := by
  have hskip : (readItem c (tail ++ after)).item = .skip := by rw [h]
  cases lead c with
  | blank hc read =>
    rw [read] at h
    cases h
    exact .inl ⟨rfl, hc⟩
  | comment hc read =>
    rw [read, Reading.mk.injEq] at h
    exact .inr ⟨hc, takeWhile_line h.2⟩
  | sign _ read | word read | stray read =>
    rw [read] at h
    cases h
  | signOrEq _ _ halone hwithEq read =>
    rw [read] at hskip
    exact absurd hskip (Reading.signOrEq_ne_skip halone hwithEq _)
  | string _ read =>
    rw [read] at hskip
    exact absurd hskip (Reading.string_ne_skip _ _)
  | number read =>
    rw [read] at hskip
    exact absurd hskip (Reading.number_ne_skip _ _)

theorem standsAlone [Alphabet] {c : Char} {tail after : List Char} {kind : TokenKind}
    (h : readItem c (tail ++ after) = ⟨.token kind, tail⟩) (line column : Nat) :
    Token.StandsAlone ⟨kind, String.ofList (c :: tail), line, column⟩ := by
  have halone : readItem c (tail ++ []) = ⟨.token kind, tail⟩ := by
    rw [List.append_nil, readItem_alone h]
  have hscan := scanFrom_read halone .start
  rw [List.append_nil] at hscan
  refine ⟨⟨kind, String.ofList (c :: tail), (Position.start.along (c :: tail)).line, 1⟩,
    .endAt (Position.start.along (c :: tail)), ?_, rfl, rfl, rfl⟩
  simp [tokenize, Scanner.ofString, Scanner.scan, hscan, scanFrom]
  rfl

/-! ## Texts -/

/-- A scan that meets no fault factors the text and ends behind it. -/
theorem factored_scanFrom [Alphabet] (text : List Char) (p : Position)
    (h : (scanFrom p 0 text).error = none) :
    Factored text (scanFrom p 0 text).tokens ∧ (scanFrom p 0 text).position = p.along text := by
  induction text using item_induction generalizing p with
  | nil => exact ⟨.last .nil, rfl⟩
  | item c tail after htail ih =>
    have halong : p.along (c :: (tail ++ after)) = (p.along (c :: tail)).along after := by
      simp [Position.along]
    rw [halong]
    cases hread : readItem c (tail ++ after) with
    | mk item taken =>
      obtain rfl : taken = tail := by rw [← htail, hread]
      cases item with
      | skip =>
        rw [scanFrom_skip hread] at h ⊢
        obtain ⟨hafter, hend⟩ := ih _ h
        refine ⟨?_, hend⟩
        rcases readItem_skip hread with ⟨rfl, hc⟩ | ⟨rfl, hbody, hline⟩
        · exact hafter.blank hc
        · exact hafter.comment hbody hline
      | token kind =>
        rw [scanFrom_read hread] at h ⊢
        obtain ⟨hafter, hend⟩ := ih _ h
        refine ⟨?_, hend⟩
        have hfirst := hafter.read (by simp) (standsAlone hread (p.along (c :: taken)).line p.column)
        simpa using hfirst
      | fault f =>
        rw [scanFrom_fault hread] at h
        cases h

/-- Where a text ends: one line further for each line end, and behind the last line. -/
theorem start_along (text : List Char) :
    Position.start.along text =
      ⟨1 + text.count '\n', 1 + (text.reverse.takeWhile (· ≠ '\n')).length⟩ := by
  induction text using List.reverseRecOn with
  | nil => rfl
  | append_singleton text c ih =>
    have hstep : Position.start.along (text ++ [c]) = (Position.start.along text).step c := by
      simp [Position.along]
    rw [hstep, ih]
    by_cases hc : c = '\n'
    · simp [Position.step, hc, Nat.add_assoc]
    · simp [Position.step, Position.right, hc, Nat.add_assoc]

/-- Every text that can be scanned is made of the lexemes of its tokens, each a text of one such
    token by itself, and of blanks and comments.  The end mark stands behind the last character. -/
theorem tokenize_factors [Alphabet] {source : String} {tokens : List Token}
    (h : tokenize source = .ok tokens) :
    ∃ ts last, tokens = ts ++ [last] ∧ Factored source.toList ts ∧ last.kind = .eof ∧
      last.line = 1 + source.toList.count '\n' ∧
      last.column = 1 + (source.toList.reverse.takeWhile (· ≠ '\n')).length := by
  simp only [tokenize, Scanner.ofString, Scanner.scan] at h
  cases herror : (scanFrom .start 0 source.toList).error with
  | some e => simp [herror] at h
  | none =>
    simp only [herror, List.nil_append, Except.ok.injEq] at h
    obtain ⟨hfactored, hend⟩ := factored_scanFrom source.toList .start herror
    rw [start_along] at hend
    refine ⟨_, _, h.symm, hfactored, rfl, ?_, ?_⟩
    · simp [Token.endAt, hend]
    · simp [Token.endAt, hend]

/-- A comment behind a string that holds a line end and what looks like a comment. -/
def Excerpt.text : String :=
  "x <= 'a\n#b'# c\n\t;"

open Excerpt in
theorem tokenize_factors_excerpt :
    ∃ ts last, tokenize text = .ok (ts ++ [last]) ∧
      ts.map Token.lexeme = ["x", "<=", "'a\n#b'", ";"] ∧ Factored text.toList ts ∧
      last.line = 3 ∧ last.column = 3 := by
  have hlexemes : (tokenize text).toOption.map (List.map Token.lexeme) =
      some (["x", "<=", "'a\n#b'", ";"] ++ [""]) := by decide +kernel
  cases hscan : tokenize text with
  | error e => simp [hscan, Except.toOption] at hlexemes
  | ok tokens =>
    obtain ⟨ts, last, rfl, hfactored, -, hline, hcolumn⟩ := tokenize_factors hscan
    simp only [hscan, Except.toOption, Option.map_some, Option.some.injEq, List.map_append] at hlexemes
    exact ⟨ts, last, rfl, (List.append_inj' hlexemes rfl).1, hfactored,
      hline.trans (by decide +kernel), hcolumn.trans (by decide +kernel)⟩

end Tremolo
