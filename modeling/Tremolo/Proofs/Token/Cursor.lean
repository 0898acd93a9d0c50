import Tremolo.Proofs.Token.Items

/-! # Scanning by moving through an array

`Scanner` hands on what is left of the text, so it cannot read anything else.  A `Cursor` keeps the
whole text in an array and moves a place through it.  Every character that it takes is read at that
place, with no result where there is no character; it looks ahead through `peek`, which gives NUL at
the end of the text, and NUL may stand in the text as well.

A cursor never reads outside its text, and it answers as a scanner does (`Cursor.scan?_eq`). -/

namespace Tremolo

/-! ## A request, item by item -/

namespace Scanner

variable {c : Char} {tail after : List Char} {p : Position} {pending : List Token}

theorem scan_skip [Alphabet] (h : readItem c (tail ++ after) = ⟨.skip, tail⟩) :
    Scanner.scan ⟨c :: (tail ++ after), p, pending⟩ =
      Scanner.scan ⟨after, p.along (c :: tail), pending⟩ := by
  simp only [scan, scanFrom_skip h]

theorem scan_read [Alphabet] {kind : TokenKind} (h : readItem c (tail ++ after) = ⟨.token kind, tail⟩) :
    Scanner.scan ⟨c :: (tail ++ after), p, pending⟩ =
      Scanner.scan ⟨after, p.along (c :: tail),
        pending ++ [⟨kind, String.ofList (c :: tail), (p.along (c :: tail)).line, p.column⟩]⟩ := by
  simp only [scan, scanFrom_read h, List.append_assoc, List.singleton_append]

theorem scan_fault [Alphabet] {f : LexicalFault} (h : readItem c (tail ++ after) = ⟨.fault f, tail⟩) :
    Scanner.scan ⟨c :: (tail ++ after), p, pending⟩ =
      (.error (.lexical (f.behind p (c :: tail)).line p.column f),
        ⟨after, f.behind p (c :: tail), pending⟩) := by
  simp only [scan, scanFrom_fault h, List.append_nil]

end Scanner

/-! ## Items and places -/

/-- The place behind an item. -/
def Item.behind (item : Item) (p : Position) (text : List Char) : Position :=
  match item with
  | .fault f => f.behind p text
  | _ => p.along text

/-- Only a bad escape ends elsewhere than its text. -/
theorem Item.behind_eq_along {item : Item} (h : ∀ x, item ≠ .fault (.invalidEscape x))
    (p : Position) (text : List Char) : item.behind p text = p.along text := by
  rcases item with _ | _ | f
  · rfl
  · rfl
  · cases f with
    | invalidEscape x => exact absurd rfl (h x)
    | _ => rfl

theorem Item.behind_cons {item : Item} {text : List Char}
    (h : text = [] → ∀ x, item ≠ .fault (.invalidEscape x)) (p : Position) (c : Char) :
    item.behind p (c :: text) = item.behind (p.step c) text := by
  by_cases hescape : ∃ x, item = .fault (.invalidEscape x)
  · obtain ⟨x, rfl⟩ := hescape
    cases text with
    | nil => exact absurd rfl (h rfl x)
    | cons d text => rfl
  · have hplain : ∀ x, item ≠ .fault (.invalidEscape x) := fun x hx => hescape ⟨x, hx⟩
    rw [behind_eq_along hplain, behind_eq_along hplain]
    rfl

/-- What a string literal is, when `before` has been read of its content. -/
def StringBody.item (before : List Char) (body : StringBody) : Item :=
  match body.closing with
  | .closed => .token (.string (String.ofList (before ++ body.content)))
  | .invalidEscape x => .fault (.invalidEscape x)
  | .unterminated => .fault .unterminatedString

theorem StringBody.item_cons (before taken : List Char) (c : Char) (body : StringBody) :
    (body.cons taken c).item before = body.item (before ++ [c]) := by
  simp [StringBody.item, StringBody.cons]

theorem Reading.string_item (quote : Char) (rest : List Char) :
    (Reading.string quote rest).item = (readString quote rest).item [] := by
  cases h : (readString quote rest).closing <;> simp [Reading.string, StringBody.item, h]

/-- A bad escape has been taken. -/
theorem readString_item_ne {quote : Char} {cs : List Char} (h : (readString quote cs).taken = [])
    (before : List Char) (x : Char) :
    (readString quote cs).item before ≠ .fault (.invalidEscape x) := by
  revert h
  fun_cases readString quote cs <;> simp [StringBody.item, StringBody.cons]

theorem readString_behind (quote : Char) (cs before : List Char) (p : Position) (c : Char) :
    ((readString quote cs).item before).behind p (c :: (readString quote cs).taken) =
      ((readString quote cs).item before).behind (p.step c) (readString quote cs).taken :=
  Item.behind_cons (fun h => readString_item_ne h before) p c

theorem Reading.number_item_ne (first : Char) (rest : List Char) (x : Char) :
    (Reading.number first rest).item ≠ .fault (.invalidEscape x) := by
  rcases Reading.number_cases first rest with heq | ⟨d, more, -, -, heq⟩
  · rw [heq]
    simp only [integerItem]
    split <;> simp
  · rw [heq]
    simp [floatItem]

theorem Position.step_of_ne {c : Char} (h : c ≠ '\n') (p : Position) : p.step c = p.right :=
  if_neg h

/-! ## Cursors -/

/-- A place in a text that is being scanned. -/
structure Cursor where
  source : Array Char
  current : Nat
  position : Position
  /-- Where the item that is being read starts, and in which column. -/
  start : Nat
  startColumn : Nat
  /-- The tokens not yet handed out. -/
  tokens : List Token

namespace Cursor

/-- A cursor at the start of a text. -/
def ofString (source : String) : Cursor :=
  ⟨source.toList.toArray, 0, .start, 0, 1, []⟩

/-! ## Moving -/

/-- Whether all of the text has been taken. -/
def atEnd (c : Cursor) : Bool :=
  c.source.size ≤ c.current

/-- One character further. -/
def moved (c : Cursor) : Cursor :=
  { c with current := c.current + 1, position := c.position.right }

/-- Takes a character; none if there is no character at this place. -/
def advance? (c : Cursor) : Option (Char × Cursor) :=
  c.source[c.current]?.map fun x => (x, c.moved)

/-- The character at this place, or NUL at the end. -/
def peek (c : Cursor) : Char :=
  c.source.getD c.current '\x00'

/-- The character behind this place, or NUL at the end. -/
def peekNext (c : Cursor) : Char :=
  c.source.getD (c.current + 1) '\x00'

/-- The text of the item up to this place; none if that is no part of the text. -/
def text? (c : Cursor) : Option (List Char) :=
  if c.start ≤ c.current ∧ c.current ≤ c.source.size then
    some (c.source.extract c.start c.current).toList
  else none

/-- The text from this place on. -/
def rest (c : Cursor) : List Char :=
  c.source.toList.drop c.current

/-- The cursor behind a piece of text. -/
def past (c : Cursor) (text : List Char) (p : Position) : Cursor :=
  { c with current := c.current + text.length, position := p }

variable {c : Cursor} {x : Char} {r text : List Char}

theorem getElem?_current (c : Cursor) : c.source[c.current]? = c.rest.head? := by
  rw [rest, List.head?_drop, Array.getElem?_toList]

theorem atEnd_iff (c : Cursor) : c.atEnd ↔ c.rest = [] := by
  simp [atEnd, rest]

theorem advance?_eq (h : c.rest = x :: r) : c.advance? = some (x, c.moved) := by
  rw [advance?, getElem?_current, h]
  rfl

theorem advance?_eq_none (h : c.rest = []) : c.advance? = none := by
  rw [advance?, getElem?_current, h]
  rfl

theorem peek_eq (c : Cursor) : c.peek = c.rest.headD '\x00' := by
  rw [peek, Array.getD_eq_getD_getElem?, getElem?_current, List.headD_eq_head?_getD]

theorem rest_past (h : c.rest = text ++ r) (p : Position) : (c.past text p).rest = r := by
  rw [rest, past, ← List.drop_drop]
  change (c.rest.drop text.length) = r
  rw [h, List.drop_left]

theorem moved_eq (c : Cursor) (x : Char) : c.moved = c.past [x] c.position.right :=
  rfl

theorem rest_moved (h : c.rest = x :: r) : c.moved.rest = r :=
  (congrArg rest (c.moved_eq x)).trans (rest_past h _)

theorem past_past (c : Cursor) (s t : List Char) (p q : Position) :
    (c.past s p).past t q = c.past (s ++ t) q := by
  simp [past, Nat.add_assoc]

/-- Taking a character leaves fewer. -/
theorem rest_length_lt {d : Cursor} (h : c.advance? = some (x, d)) :
    d.rest.length < c.rest.length := by
  cases hrest : c.rest with
  | nil =>
    rw [advance?_eq_none hrest] at h
    cases h
  | cons y r =>
    rw [advance?_eq hrest] at h
    cases h
    rw [rest_moved hrest]
    exact Nat.lt_succ_self _

/-! ## Loops -/

/-- Takes characters as long as there are more. -/
def passWhile? (more : Cursor → Bool) (c : Cursor) : Option Cursor :=
  if more c then
    match _h : c.advance? with
    | some (_, d) => passWhile? more d
    | none => none
  else some c
termination_by c.rest.length
decreasing_by exact rest_length_lt _h

theorem passWhile?_of_more {more : Cursor → Bool} (hmore : more c) (h : c.rest = x :: r) :
    c.passWhile? more = c.moved.passWhile? more := by
  have hadvance := advance?_eq h
  rw [passWhile?, if_pos hmore]
  split
  next d hd =>
    cases hadvance.symm.trans hd
    rfl
  next hnone => cases hadvance.symm.trans hnone

/-- A loop whose condition is about the next character, and fails without one, ends in front of the
    first character that it does not hold of. -/
theorem passWhile?_eq {more : Cursor → Bool} {p : Char → Bool}
    (hmore : ∀ d : Cursor, more d = d.rest.head?.any p) (hline : p '\n' = false) (c : Cursor) :
    c.passWhile? more =
      some (c.past (c.rest.takeWhile p) (c.position.along (c.rest.takeWhile p))) := by
  induction hrest : c.rest generalizing c with
  | nil =>
    rw [passWhile?, hmore, hrest]
    rfl
  | cons x r ih =>
    cases hx : p x with
    | false =>
      rw [passWhile?, hmore, hrest]
      simp [hx, past, Position.along]
    | true =>
      have hstep : c.position.step x = c.position.right := by
        rw [Position.step, if_neg]
        rintro rfl
        rw [hline] at hx
        cases hx
      rw [passWhile?_of_more (by rw [hmore, hrest]; exact hx) hrest, ih c.moved (rest_moved hrest),
        List.takeWhile_cons_of_pos hx, c.moved_eq x, past_past]
      simp only [Position.along, List.foldl_cons, hstep]
      rfl

/-- The same loop behind a character. -/
theorem passWhile?_moved {more : Cursor → Bool} {p : Char → Bool}
    (hmore : ∀ d : Cursor, more d = d.rest.head?.any p) (hline : p '\n' = false)
    (h : c.rest = x :: r) :
    c.moved.passWhile? more =
      some (c.past (x :: r.takeWhile p) (c.position.right.along (r.takeWhile p))) := by
  rw [passWhile?_eq hmore hline, rest_moved h, c.moved_eq x, past_past]
  rfl

/-! ## Strings -/

/-- The cursor at the start of the next line, if a line ends here.  The column is that in front of the
    line, since the line end is still to be taken. -/
def brokenLine (c : Cursor) : Cursor :=
  if c.peek = '\n' then { c with position := ⟨c.position.line + 1, 0⟩ } else c

theorem rest_brokenLine (c : Cursor) : c.brokenLine.rest = c.rest := by
  unfold brokenLine
  split <;> rfl

/-- Taking a character after minding the line end goes one step along the text. -/
theorem moved_brokenLine (h : c.rest = x :: r) :
    c.brokenLine.moved = c.past [x] (c.position.step x) := by
  have hpeek : c.peek = x := by rw [peek_eq, h]; rfl
  rw [brokenLine, hpeek, Position.step]
  split <;> rfl

/-- Takes a string literal behind its opening quote, when `content` has been read of it. -/
def passString? (quote : Char) (content : List Char) (c : Cursor) : Option (Item × Cursor) :=
  if c.atEnd then some (.fault .unterminatedString, c)
  else if c.peek = quote then
    c.advance?.map fun r => (.token (.string (String.ofList content)), r.2)
  else if c.peek = '\\' then
    match _h : c.advance? with
    | none => none
    | some (_, d) =>
      if d.atEnd then some (.fault .unterminatedString, d)
      else
        match _h' : d.advance? with
        | none => none
        | some (x, d') =>
          match escaped? x with
          | some y => passString? quote (content ++ [y]) d'
          | none => some (.fault (.invalidEscape x), d')
  else
    match _h : c.brokenLine.advance? with
    | none => none
    | some (x, d) => passString? quote (content ++ [x]) d
termination_by c.rest.length
decreasing_by
  · exact Nat.lt_trans (rest_length_lt _h') (rest_length_lt _h)
  · exact c.rest_brokenLine ▸ rest_length_lt _h

theorem passString?_of_nil {quote : Char} (content : List Char) (h : c.rest = []) :
    c.passString? quote content = some (.fault .unterminatedString, c) := by
  rw [passString?, if_pos (c.atEnd_iff.2 h)]

theorem passString?_of_quote {quote : Char} (content : List Char) (h : c.rest = quote :: r) :
    c.passString? quote content =
      some (.token (.string (String.ofList content)), c.moved) := by
  have hpeek : c.peek = quote := by rw [peek_eq, h]; rfl
  have hend : ¬ c.atEnd := by simp [atEnd_iff, h]
  rw [passString?, if_neg hend, if_pos hpeek, advance?_eq h]
  rfl

theorem passString?_of_backslash {quote : Char} (hquote : quote ≠ '\\') (content : List Char)
    (h : c.rest = ['\\']) :
    c.passString? quote content = some (.fault .unterminatedString, c.moved) := by
  have hpeek : c.peek = '\\' := by rw [peek_eq, h]; rfl
  have hend : ¬ c.atEnd := by simp [atEnd_iff, h]
  rw [passString?, if_neg hend, hpeek, if_neg hquote.symm, if_pos rfl]
  split
  next hnone => cases (advance?_eq h).symm.trans hnone
  next d hd =>
    cases (advance?_eq h).symm.trans hd
    rw [if_pos ((atEnd_iff _).2 (rest_moved h))]

theorem passString?_of_escape {quote : Char} (hquote : quote ≠ '\\') (content : List Char)
    (h : c.rest = '\\' :: x :: r) :
    c.passString? quote content =
      match escaped? x with
      | some y => c.moved.moved.passString? quote (content ++ [y])
      | none => some (.fault (.invalidEscape x), c.moved.moved) := by
  have hpeek : c.peek = '\\' := by rw [peek_eq, h]; rfl
  have hend : ¬ c.atEnd := by simp [atEnd_iff, h]
  have hmoved := rest_moved h
  have hend' : ¬ c.moved.atEnd := by simp [atEnd_iff, hmoved]
  rw [passString?, if_neg hend, hpeek, if_neg hquote.symm, if_pos rfl]
  split
  next hnone => cases (advance?_eq h).symm.trans hnone
  next d hd =>
    cases (advance?_eq h).symm.trans hd
    rw [if_neg hend']
    split
    next hnone => cases (advance?_eq hmoved).symm.trans hnone
    next hd' =>
      cases (advance?_eq hmoved).symm.trans hd'
      rfl

theorem passString?_of_other {quote : Char} (hquote : x ≠ quote) (hslash : x ≠ '\\')
    (content : List Char) (h : c.rest = x :: r) :
    c.passString? quote content =
      (c.past [x] (c.position.step x)).passString? quote (content ++ [x]) := by
  have hpeek : c.peek = x := by rw [peek_eq, h]; rfl
  have hend : ¬ c.atEnd := by simp [atEnd_iff, h]
  have hadvance : c.brokenLine.advance? = some (x, c.brokenLine.moved) :=
    advance?_eq (c.rest_brokenLine.trans h)
  rw [passString?, if_neg hend, hpeek, if_neg hquote, if_neg hslash, ← moved_brokenLine h]
  split
  next hnone => cases hadvance.symm.trans hnone
  next d hd =>
    cases hadvance.symm.trans hd
    rfl

/-- A string literal is taken as it is read. -/
theorem passString?_eq {quote : Char} (hquote : quote = '"' ∨ quote = '\'') (content : List Char)
    (c : Cursor) :
    c.passString? quote content =
      some ((readString quote c.rest).item content,
        c.past (readString quote c.rest).taken
          (((readString quote c.rest).item content).behind c.position
            (readString quote c.rest).taken)) := by
  have hslash : quote ≠ '\\' := by rcases hquote with rfl | rfl <;> decide
  have hline : quote ≠ '\n' := by rcases hquote with rfl | rfl <;> decide
  generalize hrest : c.rest = cs
  fun_induction readString quote cs generalizing c content with
  | case1 => exact passString?_of_nil content hrest
  | case2 => exact passString?_of_backslash hslash content hrest
  | case3 x r y hy ih =>
    have hx : x ≠ '\n' := by
      rintro rfl
      cases hy
    have hstep : (c.position.step '\\').step x = c.position.right.right := by
      rw [Position.step_of_ne hx, Position.step_of_ne (by decide)]
    rw [passString?_of_escape hslash content hrest, hy]
    simp only
    rw [ih _ c.moved.moved (rest_moved (rest_moved hrest)), StringBody.item_cons]
    simp only [StringBody.cons, List.cons_append, List.nil_append]
    rw [Item.behind_cons (fun h => by cases h), readString_behind, hstep]
    exact congrArg (fun d => some (_, d)) (c.past_past ['\\', x] _ c.position.right.right _)
  | case4 x r hx =>
    rw [passString?_of_escape hslash content hrest, hx]
    rfl
  | case5 r hlone hescape =>
    have hbehind : c.position.along [quote] = c.position.right := Position.step_of_ne hline _
    rw [passString?_of_quote content hrest]
    simp only [StringBody.item, List.append_nil, Item.behind, hbehind]
    rfl
  | case6 x r hlone hescape hother ih =>
    rw [passString?_of_other hother (ne_backslash hlone hescape) content hrest,
      ih _ _ (rest_past hrest _), StringBody.item_cons]
    simp only [StringBody.cons, List.cons_append, List.nil_append]
    rw [readString_behind, past_past]
    rfl

/-! ## Numbers and words -/

theorem text?_past {tail : List Char} (h : c.rest = x :: (tail ++ r)) (hstart : c.start = c.current)
    (p : Position) : (c.past (x :: tail) p).text? = some (x :: tail) := by
  have hlength : c.source.size - c.current = tail.length + r.length + 1 := by
    have := congrArg List.length h
    simpa [rest] using this
  have hslice : (c.source.extract c.current (c.current + (x :: tail).length)).toList = x :: tail := by
    rw [Array.toList_extract, List.extract_eq_take_drop, Nat.add_sub_cancel_left]
    change c.rest.take (x :: tail).length = x :: tail
    rw [h]
    exact List.take_left
  rw [text?, if_pos]
  · simp only [past, hstart]
    exact congrArg some hslice
  · simp only [past, hstart, List.length_cons]
    omega

/-- Takes a number behind its first digit. -/
def passNumber? (c : Cursor) : Option (Item × Cursor) :=
  (c.passWhile? (·.peek.isDigit)).bind fun c =>
    if c.peek = '.' ∧ c.peekNext.isDigit then
      c.advance?.bind fun (_, c) => (c.passWhile? (·.peek.isDigit)).bind fun c => c.text?.map fun text =>
        (floatItem (text.takeWhile Char.isDigit) ((text.dropWhile Char.isDigit).drop 1), c)
    else c.text?.map fun text => (integerItem text, c)

/-- Takes a word behind its first character. -/
def passWord? [Alphabet] (c : Cursor) : Option (Item × Cursor) :=
  (c.passWhile? (continuesWord ·.peek)).bind fun c => c.text?.map fun text =>
    (.token (wordKind (String.ofList text)), c)

/-- What is said of the next character is false of NUL, so it is false at the end. -/
theorem any_peek {p : Char → Bool} (hnul : p '\x00' = false) (c : Cursor) :
    p c.peek = c.rest.head?.any p := by
  rw [peek_eq]
  cases c.rest with
  | nil => exact hnul
  | cons => rfl

theorem passWord?_eq [Alphabet] (h : c.rest = x :: r) (hstart : c.start = c.current) :
    c.moved.passWord? = some ((Reading.word x r).item, c.past (x :: (Reading.word x r).tail)
      (c.position.right.along (Reading.word x r).tail)) := by
  have hnul : continuesWord '\x00' = false := not_continuesWord (by decide) rfl
  have hend : continuesWord '\n' = false := not_continuesWord (by decide) rfl
  have hpass := passWhile?_moved (any_peek hnul) hend h
  have hsplit : c.rest = x :: (r.takeWhile continuesWord ++ r.dropWhile continuesWord) := by
    rw [h, List.takeWhile_append_dropWhile]
  rw [passWord?, hpass, Option.bind_some, text?_past hsplit hstart]
  rfl

theorem peekNext_eq (c : Cursor) : c.peekNext = (c.rest.drop 1).headD '\x00' := by
  rw [peekNext, Array.getD_eq_getD_getElem?, rest, List.drop_drop, List.headD_eq_head?_getD,
    List.head?_drop, Array.getElem?_toList]

/-- The point tells the parts of a float apart. -/
theorem number_parts {whole fraction : List Char} (hx : x.isDigit)
    (hwhole : ∀ y ∈ whole, y.isDigit = true) :
    (x :: (whole ++ '.' :: fraction)).takeWhile Char.isDigit = x :: whole ∧
      ((x :: (whole ++ '.' :: fraction)).dropWhile Char.isDigit).drop 1 = fraction := by
  constructor
  · rw [List.takeWhile_cons_of_pos hx, List.takeWhile_append_of_pos hwhole]
    simp
  · rw [List.dropWhile_cons_of_pos hx, List.dropWhile_append_of_pos hwhole]
    rfl

theorem passNumber?_eq (h : c.rest = x :: r) (hstart : c.start = c.current) (hx : x.isDigit) :
    c.moved.passNumber? = some ((Reading.number x r).item, c.past (x :: (Reading.number x r).tail)
      (c.position.right.along (Reading.number x r).tail)) := by
  have hmore := any_peek (p := Char.isDigit) (by decide)
  have hsplit : c.rest = x :: (r.takeWhile Char.isDigit ++ r.dropWhile Char.isDigit) := by
    rw [h, List.takeWhile_append_dropWhile]
  rw [passNumber?, passWhile?_moved hmore (by decide) h, Option.bind_some]
  have htext := text?_past hsplit hstart (c.position.right.along (r.takeWhile Char.isDigit))
  -- What follows the digits decides whether a fraction is read.
  have hrest : (c.past (x :: r.takeWhile Char.isDigit)
      (c.position.right.along (r.takeWhile Char.isDigit))).rest = r.dropWhile Char.isDigit :=
    rest_past hsplit _
  fun_cases Reading.number x r
  case case1 whole y more hdrop hy fraction =>
    rw [hdrop] at hrest
    rw [if_pos ⟨by rw [peek_eq, hrest]; rfl, by rw [peekNext_eq, hrest]; exact hy⟩,
      advance?_eq hrest]
    simp only [Option.bind_some]
    rw [passWhile?_moved hmore (by decide) hrest, past_past, Option.bind_some,
      List.takeWhile_cons_of_pos hy]
    have hsplit' : c.rest = x :: ((whole ++ '.' :: fraction) ++ more.dropWhile Char.isDigit) := by
      rw [hsplit, hdrop, List.append_assoc]
      simp only [fraction, List.cons_append, List.takeWhile_append_dropWhile]
      rfl
    obtain ⟨hwhole, hfraction⟩ := number_parts hx fun z (hz : z ∈ whole) =>
      List.mem_takeWhile_imp hz
    have hplace : (c.position.right.along whole).right.along fraction =
        c.position.right.along (whole ++ '.' :: fraction) := by
      simp only [Position.along, List.foldl_append, List.foldl_cons]
      rfl
    rw [List.cons_append, text?_past hsplit' hstart, Option.map_some, hwhole, hfraction]
    exact congrArg (fun q => some (floatItem (x :: whole) fraction, c.past _ q)) hplace
  case case2 whole y more hdrop hy =>
    rw [if_neg, htext]
    · rfl
    · rw [peekNext_eq, hrest, hdrop]
      exact fun hpoint => hy hpoint.2
  case case3 whole hother =>
    rw [if_neg, htext]
    · rfl
    · rw [peek_eq, peekNext_eq, hrest]
      rintro ⟨hpoint, hdigit⟩
      -- The end of the text looks like NUL, which is neither a point nor a digit.
      rcases hdrop : r.dropWhile Char.isDigit with _ | ⟨z, _ | ⟨y, more⟩⟩
      · rw [hdrop] at hpoint
        exact absurd hpoint (by decide)
      · rw [hdrop] at hdigit
        change '\x00'.isDigit = true at hdigit
        exact absurd hdigit (by decide)
      · rw [hdrop] at hpoint
        obtain rfl : z = '.' := hpoint
        exact hother y more hdrop

/-! ## Items -/

/-- Takes a `=` if it is next. -/
def passEq (alone withEq : Item) (c : Cursor) : Item × Cursor :=
  if c.source[c.current]? = some '=' then (withEq, c.moved) else (alone, c)

/-- Takes an item. -/
def passItem? [Alphabet] (c : Cursor) : Option (Item × Cursor) :=
  c.advance?.bind fun (x, c) =>
    match x with
    | ' ' | '\r' | '\t' => some (.skip, c)
    | '\n' => some (.skip, { c with position := ⟨c.position.line + 1, 1⟩ })
    | '#' => (c.passWhile? fun c => !c.atEnd && c.peek != '\n').map (.skip, ·)
    | '(' => some (.token .leftParen, c)
    | ')' => some (.token .rightParen, c)
    | '{' => some (.token .leftBrace, c)
    | '}' => some (.token .rightBrace, c)
    | ';' => some (.token .semicolon, c)
    | ',' => some (.token .comma, c)
    | ':' => some (.token .colon, c)
    | '+' => some (.token .plus, c)
    | '-' => some (.token .minus, c)
    | '*' => some (.token .star, c)
    | '/' => some (.token .slash, c)
    | '=' => some (c.passEq (.token .assign) (.token .eq))
    | '!' => some (c.passEq (.fault .loneBang) (.token .notEq))
    | '<' => some (c.passEq (.token .lt) (.token .ltEq))
    | '>' => some (c.passEq (.token .gt) (.token .gtEq))
    | '"' => c.passString? '"' []
    | '\'' => c.passString? '\'' []
    | x =>
      if x.isDigit then c.passNumber?
      else if startsWord x then c.passWord?
      else some (.fault (.unexpectedCharacter x), c)

theorem passEq_eq (alone withEq : Item) (h : c.rest = x :: r) :
    c.moved.passEq alone withEq = ((Reading.signOrEq alone withEq r).item,
      c.past (x :: (Reading.signOrEq alone withEq r).tail)
        (c.position.right.along (Reading.signOrEq alone withEq r).tail)) := by
  rw [passEq, getElem?_current, rest_moved h]
  fun_cases Reading.signOrEq alone withEq r
  case case1 => rfl
  case case2 hother =>
    rw [if_neg]
    · rfl
    · cases r with
      | nil => simp
      | cons y r =>
        intro hy
        exact hother r (congrArg (· :: r) (Option.some.inj hy))

theorem passComment?_eq (h : c.rest = x :: r) :
    (c.moved.passWhile? fun d => !d.atEnd && d.peek != '\n') =
      some (c.past (x :: r.takeWhile (· ≠ '\n')) (c.position.right.along (r.takeWhile (· ≠ '\n')))) := by
  apply passWhile?_moved _ (by decide) h
  intro d
  -- A comment may hold NUL, so the end is told by the place and not by the next character.
  have hend : d.atEnd = d.rest.isEmpty := by rw [Bool.eq_iff_iff, atEnd_iff, List.isEmpty_iff]
  rw [hend, peek_eq]
  cases d.rest with
  | nil => rfl
  | cons y r =>
    change (y != '\n') = decide (y ≠ '\n')
    rw [Bool.eq_iff_iff, bne_iff_ne, decide_eq_true_iff]

theorem passLiteral?_eq {quote : Char} (hquote : quote = '"' ∨ quote = '\'')
    (h : c.rest = quote :: r) :
    c.moved.passString? quote [] = some ((Reading.string quote r).item,
      c.past (quote :: (Reading.string quote r).tail)
        ((Reading.string quote r).item.behind c.position (quote :: (Reading.string quote r).tail))) := by
  have hline : quote ≠ '\n' := by rcases hquote with rfl | rfl <;> decide
  rw [passString?_eq hquote, rest_moved h, Reading.string_item, Reading.string_tail,
    readString_behind, Position.step_of_ne hline, c.moved_eq quote, past_past]
  rfl

/-- An item is taken as it is read. -/
theorem passItem?_eq [Alphabet] (h : c.rest = x :: r) (hstart : c.start = c.current) :
    c.passItem? = some ((readItem x r).item, c.past (x :: (readItem x r).tail)
      ((readItem x r).item.behind c.position (x :: (readItem x r).tail))) := by
  rw [passItem?, advance?_eq h, Option.bind_some]
  simp only
  split
  case h_5 =>
    rw [passComment?_eq h]
    rfl
  case h_17 | h_18 | h_19 | h_20 =>
    rw [passEq_eq _ _ h]
    simp only [readItem]
    fun_cases Reading.signOrEq _ _ r <;> rfl
  case h_21 => exact passLiteral?_eq (.inl rfl) h
  case h_22 => exact passLiteral?_eq (.inr rfl) h
  case h_23 =>
    have hstep : c.position.step x = c.position.right := Position.step_of_ne (by assumption) _
    by_cases hdigit : x.isDigit
    · rw [if_pos hdigit, passNumber?_eq h hstart hdigit, readItem_number hdigit,
        Item.behind_eq_along (Reading.number_item_ne x r), ← hstep]
      rfl
    · rw [if_neg hdigit]
      by_cases hword : startsWord x
      · rw [if_pos hword, passWord?_eq h hstart, readItem_word hword, ← hstep]
        rfl
      · have hstray : readItem x r = ⟨.fault (.unexpectedCharacter x), []⟩ := by
          simp [readItem, hdigit, hword]
        rw [if_neg hword, hstray, c.moved_eq x, ← hstep]
        rfl
  all_goals rfl

/-! ## Requests -/

/-- The cursor with an item to start here. -/
def begun (c : Cursor) : Cursor :=
  { c with start := c.current, startColumn := c.position.column }

/-- Adds the token that ends here. -/
def addToken? (kind : TokenKind) (c : Cursor) : Option Cursor :=
  c.text?.map fun text =>
    { c with tokens := c.tokens ++ [⟨kind, String.ofList text, c.position.line, c.startColumn⟩] }

theorem rest_addToken? {kind : TokenKind} {d : Cursor} (h : c.addToken? kind = some d) :
    d.rest = c.rest := by
  obtain ⟨text, -, rfl⟩ := Option.map_eq_some_iff.1 h
  rfl

theorem passItem?_begun [Alphabet] {tail after : List Char} {item : Item}
    (h : c.rest = x :: (tail ++ after)) (hread : readItem x (tail ++ after) = ⟨item, tail⟩) :
    c.begun.passItem? =
      some (item, c.begun.past (x :: tail) (item.behind c.position (x :: tail))) := by
  have hbegun : c.begun.rest = x :: (tail ++ after) := h
  rw [passItem?_eq hbegun rfl, hread]
  rfl

/-- The lexeme of a token is the text between the start of the item and the place behind it. -/
theorem addToken?_begun {tail after : List Char} (h : c.rest = x :: (tail ++ after)) (kind : TokenKind)
    (p : Position) :
    (c.begun.past (x :: tail) p).addToken? kind =
      some { c.begun.past (x :: tail) p with
        tokens := c.tokens ++ [⟨kind, String.ofList (x :: tail), p.line, c.position.column⟩] } := by
  have hbegun : c.begun.rest = x :: (tail ++ after) := h
  rw [addToken?, text?_past hbegun rfl]
  rfl

/-- Taking an item leaves fewer characters. -/
theorem rest_length_lt_of_passItem? [Alphabet] {item : Item} {d : Cursor}
    (h : c.begun.passItem? = some (item, d)) : d.rest.length < c.rest.length := by
  cases hrest : c.rest with
  | nil =>
    have hnone : c.begun.advance? = none := advance?_eq_none hrest
    rw [passItem?, hnone] at h
    cases h
  | cons x r =>
    have hbegun : c.begun.rest = x :: r := hrest
    obtain ⟨after, hafter⟩ := readItem_tail_isPrefix x r
    have hsplit : c.begun.rest = (x :: (readItem x r).tail) ++ after := by
      rw [List.cons_append, hafter, hbegun]
    rw [passItem?_eq hbegun rfl] at h
    cases h
    rw [rest_past hsplit]
    have hlength := congrArg List.length hafter
    simp only [List.length_append] at hlength
    simp only [List.length_cons]
    omega

/-- Asks for all tokens up to the end of the text; none if something was read outside the text. -/
def scan? [Alphabet] (c : Cursor) : Option (Except Error (List Token) × Cursor) :=
  if c.atEnd then some (.ok (c.tokens ++ [.endAt c.position]), { c with tokens := [] })
  else
    match _h : c.begun.passItem? with
    | none => none
    | some (.skip, d) => d.scan?
    | some (.token kind, d) =>
      match _h' : d.addToken? kind with
      | none => none
      | some d' => d'.scan?
    | some (.fault f, d) => some (.error (.lexical d.position.line d.startColumn f), d)
termination_by c.rest.length
decreasing_by
  · exact rest_length_lt_of_passItem? _h
  · rw [rest_addToken? _h']
    exact rest_length_lt_of_passItem? _h

/-- The scanner that a cursor stands for. -/
def scanner (c : Cursor) : Scanner :=
  ⟨c.rest, c.position, c.tokens⟩

theorem scanner_eq (h : c.rest = r) : c.scanner = ⟨r, c.position, c.tokens⟩ := by
  rw [scanner, h]

theorem scan?_of_skip [Alphabet] {d : Cursor} (hend : ¬ c.atEnd)
    (h : c.begun.passItem? = some (.skip, d)) :
    c.scan? = d.scan? := by
  rw [scan?, if_neg hend]
  split
  next hnone => cases h.symm.trans hnone
  next heq =>
    cases h.symm.trans heq
    rfl
  next heq => cases h.symm.trans heq
  next heq => cases h.symm.trans heq

theorem scan?_of_token [Alphabet] {kind : TokenKind} {d d' : Cursor} (hend : ¬ c.atEnd)
    (h : c.begun.passItem? = some (.token kind, d)) (h' : d.addToken? kind = some d') :
    c.scan? = d'.scan? := by
  rw [scan?, if_neg hend]
  split
  next hnone => cases h.symm.trans hnone
  next heq => cases h.symm.trans heq
  next heq =>
    cases h.symm.trans heq
    split
    next hnone => cases h'.symm.trans hnone
    next heq' =>
      cases h'.symm.trans heq'
      rfl
  next heq => cases h.symm.trans heq

theorem scan?_of_fault [Alphabet] {f : LexicalFault} {d : Cursor} (hend : ¬ c.atEnd)
    (h : c.begun.passItem? = some (.fault f, d)) :
    c.scan? = some (.error (.lexical d.position.line d.startColumn f), d) := by
  rw [scan?, if_neg hend]
  split
  next hnone => cases h.symm.trans hnone
  next heq => cases h.symm.trans heq
  next heq => cases h.symm.trans heq
  next heq =>
    cases h.symm.trans heq
    rfl

/-- A cursor never reads outside its text, and it answers as the scanner that it stands for. -/
theorem scan?_eq [Alphabet] (c : Cursor) :
    ∃ d, c.scan? = some (c.scanner.scan.1, d) ∧ d.scanner = c.scanner.scan.2 := by
  generalize hrest : c.rest = text
  induction text using item_induction generalizing c with
  | nil =>
    have hscan : c.scanner.scan =
        (.ok (c.tokens ++ [.endAt c.position]), ⟨[], c.position, []⟩) := by
      simp [scanner_eq hrest, Scanner.scan, scanFrom]
    rw [scan?, if_pos (c.atEnd_iff.2 hrest), hscan]
    exact ⟨_, rfl, congrArg (Scanner.mk · c.position []) hrest⟩
  | item x tail after htail ih =>
    have hend : ¬ c.atEnd := by simp [atEnd_iff, hrest]
    have hafter : ∀ p, (c.begun.past (x :: tail) p).rest = after := fun p => rest_past hrest p
    cases hread : readItem x (tail ++ after) with
    | mk item taken =>
      obtain rfl : taken = tail := by rw [← htail, hread]
      have hpass := passItem?_begun hrest hread
      rw [scanner_eq hrest]
      cases item with
      | skip =>
        obtain ⟨d, hd, hstate⟩ := ih _ (hafter (c.position.along (x :: taken)))
        rw [scanner_eq (hafter _)] at hd hstate
        rw [scan?_of_skip hend hpass, Scanner.scan_skip hread]
        exact ⟨d, hd, hstate⟩
      | token kind =>
        have hadd := addToken?_begun hrest kind (c.position.along (x :: taken))
        have hrest' := (rest_addToken? hadd).trans (hafter _)
        obtain ⟨d, hd, hstate⟩ := ih _ hrest'
        rw [scanner_eq hrest'] at hd hstate
        rw [scan?_of_token hend hpass hadd, Scanner.scan_read hread]
        exact ⟨d, hd, hstate⟩
      | fault f =>
        rw [scan?_of_fault hend hpass, Scanner.scan_fault hread]
        exact ⟨_, rfl, congrArg (Scanner.mk · _ c.tokens) (hafter _)⟩

end Cursor

end Tremolo
