import Tremolo.Proofs.Token.Lines

/-! # Where tokens stand

A text is read item by item, and each token has a text in front of it (`Layout`).  The column of a token
is that of its first character.  Its line is that of its last one, so a token stands where its first
character does exactly if it does not go over a line end.  The same holds of the place of an error and
of the text that is faulty.  The end mark always stands behind the last character. -/

namespace Tremolo

/-- The place of the character that has this text in front of it. -/
def placeBehind (before : List Char) : Position :=
  ⟨1 + before.count '\n', 1 + (before.reverse.takeWhile (· ≠ '\n')).length⟩

/-- The place that a token reports. -/
def Token.place (t : Token) : Position :=
  ⟨t.line, t.column⟩

/-- The token stands at its first character, when it has `before` in front of it. -/
def Token.StandsBehind (before : List Char) (t : Token) : Prop :=
  t.place = placeBehind before

/-- The token has the line of its last character and the column of its first. -/
def Token.Dated (before : List Char) (t : Token) : Prop :=
  t.place = ⟨(placeBehind (before ++ t.lexeme.toList)).line, (placeBehind before).column⟩

theorem placeBehind_line_append (before text : List Char) :
    (placeBehind (before ++ text)).line = (placeBehind before).line + text.count '\n' := by
  simp [placeBehind, Nat.add_assoc]

theorem placeBehind_along (before text : List Char) :
    (placeBehind before).along text = placeBehind (before ++ text) := by
  have hstart (cs : List Char) : placeBehind cs = Position.start.along cs := (start_along cs).symm
  simp [hstart, Position.along]

theorem Token.Dated.standsBehind_iff {before : List Char} {t : Token} (h : t.Dated before) :
    t.StandsBehind before ↔ '\n' ∉ t.lexeme.toList := by
  rw [Token.StandsBehind, h, placeBehind_line_append]
  constructor
  · intro heq
    have hline := congrArg Position.line heq
    exact List.count_eq_zero.1 (Nat.left_eq_add.1 hline.symm)
  · intro hline
    rw [List.count_eq_zero.2 hline]
    rfl

/-! ## Layouts -/

/-- Read item by item, the text is blanks, comments and the tokens, when it has `before` in front of it
    and `after` behind it.  `P` holds of each token and of all that stands in front of it. -/
inductive Layout [Alphabet] (P : List Char → Token → Prop) (after : List Char) :
    List Char → List Char → List Token → Prop where
  | nil {before : List Char} : Layout P after before [] []
  | skip {before : List Char} {c : Char} {tail text : List Char} {ts : List Token}
      (hread : readItem c (tail ++ (text ++ after)) = ⟨.skip, tail⟩)
      (htext : Layout P after (before ++ c :: tail) text ts) :
      Layout P after before (c :: (tail ++ text)) ts
  | token {before : List Char} {c : Char} {tail text : List Char} {t : Token} {ts : List Token}
      (hread : readItem c (tail ++ (text ++ after)) = ⟨.token t.kind, tail⟩)
      (hlexeme : t.lexeme = String.ofList (c :: tail)) (hplace : P before t)
      (htext : Layout P after (before ++ c :: tail) text ts) :
      Layout P after before (c :: (tail ++ text)) (t :: ts)

section Layouts

variable {P Q : List Char → Token → Prop} {after before text : List Char} {ts : List Token}

theorem Layout.imp [Alphabet] (h : Layout P after before text ts)
    (himp : ∀ before, ∀ t ∈ ts, P before t → Q before t) : Layout Q after before text ts := by
  induction h with
  | nil => exact .nil
  | skip hread _ ih => exact .skip hread (ih himp)
  | token hread hlexeme hplace _ ih =>
    have hothers := ih fun before t ht => himp before t (.tail _ ht)
    exact .token hread hlexeme (himp _ _ (.head _) hplace) hothers

theorem Layout.exists_place [Alphabet] (h : Layout P after before text ts) {t : Token} (ht : t ∈ ts) :
    ∃ before, P before t := by
  induction h with
  | nil => cases ht
  | skip _ _ ih => exact ih ht
  | token _ _ hplace _ ih =>
    rcases List.mem_cons.1 ht with rfl | hothers
    · exact ⟨_, hplace⟩
    · exact ih hothers

/-- A text starts with one item only. -/
theorem Layout.step [Alphabet] {c : Char} {tail : List Char} {item : Item}
    (h : Layout P after before (c :: (tail ++ text)) ts)
    (hread : readItem c (tail ++ (text ++ after)) = ⟨item, tail⟩) :
    (item = .skip ∧ Layout P after (before ++ c :: tail) text ts) ∨
      ∃ t us, ts = t :: us ∧ item = .token t.kind ∧ P before t ∧
        Layout P after (before ++ c :: tail) text us := by
  -- Both ways of splitting the text are what the reader says.
  have hsplit {item' : Item} {tail' text' : List Char} (hwhole : tail ++ text = tail' ++ text')
      (hread' : readItem c (tail' ++ (text' ++ after)) = ⟨item', tail'⟩) :
      item' = item ∧ tail' = tail ∧ text' = text := by
    rw [← List.append_assoc, ← hwhole, List.append_assoc, hread] at hread'
    cases hread'
    exact ⟨rfl, rfl, (List.append_cancel_left hwhole).symm⟩
  generalize hwhole : c :: (tail ++ text) = whole at h
  cases h with
  | nil => cases hwhole
  | skip hread' htext =>
    obtain ⟨rfl, hbehind⟩ := List.cons.inj hwhole
    obtain ⟨rfl, rfl, rfl⟩ := hsplit hbehind hread'
    exact .inl ⟨rfl, htext⟩
  | token hread' _ hplace htext =>
    obtain ⟨rfl, hbehind⟩ := List.cons.inj hwhole
    obtain ⟨rfl, rfl, rfl⟩ := hsplit hbehind hread'
    exact .inr ⟨_, _, rfl, rfl, hplace, htext⟩

/-- There is only one way to read a text. -/
theorem Layout.and [Alphabet] (h : Layout P after before text ts) (h' : Layout Q after before text ts) :
    Layout (fun before t => P before t ∧ Q before t) after before text ts := by
  induction h with
  | nil => exact .nil
  | skip hread _ ih =>
    rcases h'.step hread with ⟨-, htext'⟩ | ⟨_, _, -, hitem, -⟩
    · exact .skip hread (ih htext')
    · cases hitem
  | token hread hlexeme hplace _ ih =>
    rcases h'.step hread with ⟨hitem, -⟩ | ⟨_, _, hts, -, hplace', htext'⟩
    · cases hitem
    · cases hts
      exact .token hread hlexeme ⟨hplace, hplace'⟩ (ih htext')

/-- The tokens stand at their first characters exactly if none of them goes over a line end. -/
theorem Layout.places_exact_iff [Alphabet] (h : Layout Token.Dated after before text ts) :
    Layout Token.StandsBehind after before text ts ↔ ∀ t ∈ ts, '\n' ∉ t.lexeme.toList := by
  constructor
  · intro hexact t ht
    obtain ⟨_, hdated, hplace⟩ := (h.and hexact).exists_place ht
    exact hdated.standsBehind_iff.1 hplace
  · intro hlines
    exact h.imp fun _ t ht hdated => hdated.standsBehind_iff.2 (hlines t ht)

end Layouts

/-! ## Faults -/

/-- The part of a faulty text whose line ends count.  A character behind a backslash never ends a
    line. -/
def LexicalFault.counted (f : LexicalFault) (text : List Char) : List Char :=
  match f with
  | .invalidEscape _ => text.dropLast
  | _ => text

/-- The text starts with a faulty item. -/
def StartsWithFault [Alphabet] (text item : List Char) (f : LexicalFault) : Prop :=
  ∃ c tail rest, item = c :: tail ∧ text = c :: (tail ++ rest) ∧
    readItem c (tail ++ rest) = ⟨.fault f, tail⟩

theorem LexicalFault.behind_line (f : LexicalFault) (before text : List Char) :
    (f.behind (placeBehind before) text).line =
      (placeBehind before).line + (f.counted text).count '\n' := by
  cases f with
  | invalidEscape =>
    simp only [LexicalFault.behind, LexicalFault.counted, Position.right, placeBehind_along,
      placeBehind_line_append]
  | _ =>
    simp only [LexicalFault.behind, LexicalFault.counted, placeBehind_along, placeBehind_line_append]

/-! ## Texts -/

/-- A scan lays out the text up to its end or to the first fault. -/
theorem layout_scanFrom [Alphabet] (text before : List Char) :
    ∃ front after, text = front ++ after ∧
      Layout Token.Dated after before front (scanFrom (placeBehind before) 0 text).tokens ∧
      ((scanFrom (placeBehind before) 0 text).error = none → after = []) ∧
      ∀ e, (scanFrom (placeBehind before) 0 text).error = some e →
        ∃ item f, StartsWithFault after item f ∧
          e = .lexical ((placeBehind (before ++ front)).line + (f.counted item).count '\n')
            (placeBehind (before ++ front)).column f := by
  induction text using item_induction generalizing before with
  | nil => exact ⟨[], [], rfl, .nil, fun _ => rfl, fun e he => by cases he⟩
  | item c tail rest htail ih =>
    cases hread : readItem c (tail ++ rest) with
    | mk item taken =>
      obtain rfl : taken = tail := by rw [← htail, hread]
      cases item with
      | skip =>
        obtain ⟨front, after, rfl, hlayout, hend, hfault⟩ := ih (before ++ c :: taken)
        rw [scanFrom_skip hread, placeBehind_along]
        refine ⟨c :: (taken ++ front), after, by simp, .skip hread hlayout, hend, ?_⟩
        simpa using hfault
      | token kind =>
        obtain ⟨front, after, rfl, hlayout, hend, hfault⟩ := ih (before ++ c :: taken)
        rw [scanFrom_read hread, placeBehind_along]
        refine ⟨c :: (taken ++ front), after, by simp, .token hread rfl ?_ hlayout, hend, ?_⟩
        · simp [Token.Dated, Token.place]
        · simpa using hfault
      | fault f =>
        rw [scanFrom_fault hread]
        refine ⟨[], c :: (taken ++ rest), rfl, .nil, nofun, fun e he => ?_⟩
        refine ⟨c :: taken, f, ⟨c, taken, rest, rfl, rfl, hread⟩, ?_⟩
        rw [← Option.some.inj he, LexicalFault.behind_line, List.append_nil]

/-- Tokens have the column of their first character and the line of their last one, which is the line of
    the first as well unless there is a line end in the token.  An error has the column at which the faulty
    text starts and the line on which it was noticed. -/
theorem places_of_first_characters [Alphabet] (source : String) :
    (∀ tokens, tokenize source = .ok tokens → ∃ ts last, tokens = ts ++ [last] ∧
      Layout Token.Dated [] [] source.toList ts ∧
      (Layout Token.StandsBehind [] [] source.toList ts ↔ ∀ t ∈ ts, '\n' ∉ t.lexeme.toList) ∧
      last.kind = .eof ∧ last.lexeme = "" ∧ last.StandsBehind source.toList) ∧
    ∀ e, tokenize source = .error e → ∃ before after ts item f line column,
      source.toList = before ++ after ∧ Layout Token.Dated after [] before ts ∧
      StartsWithFault after item f ∧ e = .lexical line column f ∧
      line = (placeBehind before).line + (f.counted item).count '\n' ∧
      column = (placeBehind before).column ∧
      (⟨line, column⟩ = placeBehind before ↔ '\n' ∉ f.counted item) := by
  obtain ⟨front, after, hsource, hlayout, hend, hfault⟩ := layout_scanFrom source.toList []
  have hstart : placeBehind [] = Position.start := rfl
  rw [hstart] at hlayout hend hfault
  refine ⟨fun tokens h => ?_, fun e h => ?_⟩
  · obtain ⟨hnone, rfl⟩ := tokenize_eq_ok.1 h
    obtain rfl := hend hnone
    rw [List.append_nil] at hsource
    rw [← hsource] at hlayout
    refine ⟨_, _, rfl, hlayout, hlayout.places_exact_iff, rfl, rfl, ?_⟩
    have hplace := (factored_scanFrom source.toList .start hnone).2
    rw [start_along] at hplace
    exact hplace
  · obtain ⟨item, f, hitem, rfl⟩ := hfault e (tokenize_eq_error.1 h)
    refine ⟨front, after, _, item, f, _, _, hsource, hlayout, hitem, rfl, rfl, rfl, ?_⟩
    simp [placeBehind, List.count_eq_zero]

/-- A string over two lines, which starts on the first of them. -/
def Excerpt.spanning : String :=
  "'a\nb'"

open Excerpt in
theorem places_of_first_characters_spanning :
    tokenize spanning = .ok ([⟨.string "a\nb", spanning, 2, 1⟩] ++ [⟨.eof, "", 2, 3⟩]) ∧
      ¬ Layout Token.StandsBehind [] [] spanning.toList [⟨.string "a\nb", spanning, 2, 1⟩] ∧
      tokenize " 'a\nb" = .error (.lexical 2 2 .unterminatedString) := by
  have hread : tokenize spanning =
      .ok ([⟨.string "a\nb", spanning, 2, 1⟩] ++ [⟨.eof, "", 2, 3⟩]) := by decide +kernel
  refine ⟨hread, fun hexact => ?_, by decide +kernel⟩
  obtain ⟨ts, last, hts, -, hiff, -⟩ := (places_of_first_characters spanning).1 _ hread
  obtain ⟨rfl, -⟩ := List.append_inj' hts rfl
  exact hiff.1 hexact _ (.head _) (by decide)

end Tremolo
