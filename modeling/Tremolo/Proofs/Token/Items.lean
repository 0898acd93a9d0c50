import Mathlib.Data.List.TakeWhile
import Tremolo.Proofs.Token.Scanning

/-! # Texts as sequences of items

The first character of an item decides which reader it goes to (`Lead`), whatever follows.  Every
reader takes a prefix of what follows (`readItem_tail_isPrefix`) and reads that prefix alone as it
read it in its place (`readItem_tail`).  So every text is a sequence of items (`item_induction`), and
a scan goes along it item by item (`scanFrom_skip`, `scanFrom_read`, `scanFrom_fault`). -/

namespace Tremolo

/-- Which reader the first character of an item leads to. -/
inductive Lead [Alphabet] (c : Char) : Prop where
  | blank (hc : c = ' ' ∨ c = '\t' ∨ c = '\r' ∨ c = '\n')
      (read : ∀ rest, readItem c rest = ⟨.skip, []⟩)
  | comment (hc : c = '#')
      (read : ∀ rest, readItem c rest = ⟨.skip, rest.takeWhile (· ≠ '\n')⟩)
  | sign (kind : TokenKind) (read : ∀ rest, readItem c rest = .sign kind)
  | signOrEq (alone withEq : Item) (halone : alone ≠ .skip) (hwithEq : withEq ≠ .skip)
      (read : ∀ rest, readItem c rest = .signOrEq alone withEq rest)
  | string (hc : c = '"' ∨ c = '\'') (read : ∀ rest, readItem c rest = .string c rest)
  | number (read : ∀ rest, readItem c rest = .number c rest)
  | word (read : ∀ rest, readItem c rest = .word c rest)
  | stray (read : ∀ rest, readItem c rest = ⟨.fault (.unexpectedCharacter c), []⟩)

theorem lead [Alphabet] (c : Char) : Lead c := by
  fun_cases readItem c []
  case case1 | case2 | case3 | case4 => exact .blank (by decide) fun _ => rfl
  case case5 => exact .comment rfl fun _ => rfl
  case case17 | case19 | case20 => exact .signOrEq (.token _) (.token _) nofun nofun fun _ => rfl
  case case18 => exact .signOrEq (.fault _) (.token _) nofun nofun fun _ => rfl
  case case21 | case22 => exact .string (by decide) fun _ => rfl
  case case23 hdigit => exact .number (readItem_number hdigit)
  case case24 _ hword => exact .word (readItem_word hword)
  case case25 hdigit hword =>
    apply Lead.stray
    intro rest
    simp [readItem, hdigit, hword]
  all_goals exact .sign _ fun _ => rfl

/-! ## Strings -/

theorem readString_cons {quote c : Char} (hslash : c ≠ '\\') (rest : List Char) :
    readString quote (c :: rest) =
      if c = quote then ⟨[c], [], .closed⟩ else (readString quote rest).cons [c] c := by
  rw [readString]
  · intro h
    exact absurd h hslash
  · intro _ _ h
    exact absurd h hslash

/-- What is neither a backslash alone nor one in front of a character is no backslash. -/
theorem ne_backslash {c : Char} {cs : List Char} (hlone : c = '\\' → cs = [] → False)
    (hescape : ∀ d rest, c = '\\' → cs = d :: rest → False) : c ≠ '\\' := by
  intro h
  cases cs with
  | nil => exact hlone h rfl
  | cons d rest => exact hescape d rest h rfl

theorem readString_isPrefix (quote : Char) (cs : List Char) :
    (readString quote cs).taken <+: cs := by
  fun_induction readString quote cs with
  | case1 | case2 => exact List.prefix_rfl
  | case3 c rest d _ ih => simpa [StringBody.cons] using ih
  | case4 | case5 => simp
  | case6 c rest _ _ _ ih => simpa [StringBody.cons] using ih

/-- Nothing behind the end of a string literal bears on it. -/
theorem readString_taken (quote : Char) (cs : List Char) :
    readString quote (readString quote cs).taken = readString quote cs := by
  fun_induction readString quote cs with
  | case1 | case2 => rfl
  | case3 c rest d hd ih => simp [StringBody.cons, readString, hd, ih]
  | case4 c rest hd => simp [readString, hd]
  | case5 rest hlone hescape => simp [readString_cons (ne_backslash hlone hescape)]
  | case6 c rest hlone hescape hquote ih =>
    simp [StringBody.cons, readString_cons (ne_backslash hlone hescape), hquote, ih]

theorem Reading.string_tail (quote : Char) (rest : List Char) :
    (Reading.string quote rest).tail = (readString quote rest).taken := by
  simp only [Reading.string]
  split <;> rfl

/-! ## Numbers -/

/-- The two forms of a number: digits up to no point, or digits, a point and digits. -/
theorem Reading.number_cases (first : Char) (rest : List Char) :
    (Reading.number first rest = ⟨integerItem (first :: rest.takeWhile Char.isDigit),
        rest.takeWhile Char.isDigit⟩) ∨
    ∃ d more, d.isDigit = true ∧ rest.dropWhile Char.isDigit = '.' :: d :: more ∧
      Reading.number first rest =
        ⟨floatItem (first :: rest.takeWhile Char.isDigit) (d :: more.takeWhile Char.isDigit),
          rest.takeWhile Char.isDigit ++ '.' :: d :: more.takeWhile Char.isDigit⟩ := by
  fun_cases Reading.number first rest
  case case1 whole d more hdrop hdigit _ => exact .inr ⟨d, more, hdigit, hdrop, rfl⟩
  case case2 => exact .inl rfl
  case case3 => exact .inl rfl

theorem Reading.number_isPrefix (first : Char) (rest : List Char) :
    (Reading.number first rest).tail <+: rest := by
  rcases Reading.number_cases first rest with heq | ⟨d, more, -, hdrop, heq⟩
  · rw [heq]
    exact List.takeWhile_prefix _
  · have hsplit : rest.takeWhile Char.isDigit ++ '.' :: d :: more = rest := by
      rw [← hdrop, List.takeWhile_append_dropWhile]
    have hmore : more.takeWhile Char.isDigit <+: more := List.takeWhile_prefix _
    have hlong : rest.takeWhile Char.isDigit ++ '.' :: d :: more.takeWhile Char.isDigit <+:
        rest.takeWhile Char.isDigit ++ '.' :: d :: more := by
      simpa using hmore
    rw [hsplit] at hlong
    rw [heq]
    exact hlong

theorem Reading.number_tail (first : Char) (rest : List Char) :
    Reading.number first (Reading.number first rest).tail = Reading.number first rest := by
  have hdigits : ∀ c ∈ rest.takeWhile Char.isDigit, c.isDigit = true :=
    fun c hc => List.mem_takeWhile_imp hc
  rcases Reading.number_cases first rest with heq | ⟨d, more, hd, -, heq⟩
  · have hdrop : (rest.takeWhile Char.isDigit).dropWhile Char.isDigit = [] :=
      List.dropWhile_eq_nil_iff.2 hdigits
    rw [heq]
    simp [Reading.number, List.takeWhile_idem, hdrop]
  · -- The point ends the digits before it, as it did in the longer text.
    have hwhole (fraction : List Char) :
        (rest.takeWhile Char.isDigit ++ '.' :: fraction).takeWhile Char.isDigit =
          rest.takeWhile Char.isDigit := by
      rw [List.takeWhile_append_of_pos hdigits]
      simp
    have hpoint (fraction : List Char) :
        (rest.takeWhile Char.isDigit ++ '.' :: fraction).dropWhile Char.isDigit =
          '.' :: fraction := by
      rw [List.dropWhile_append_of_pos hdigits]
      simp
    rw [heq]
    simp [Reading.number, hwhole, hpoint, hd, List.takeWhile_idem]

/-! ## All items -/

theorem Reading.signOrEq_isPrefix (alone withEq : Item) (rest : List Char) :
    (Reading.signOrEq alone withEq rest).tail <+: rest := by
  unfold Reading.signOrEq
  split <;> simp

theorem Reading.signOrEq_tail (alone withEq : Item) (rest : List Char) :
    Reading.signOrEq alone withEq (Reading.signOrEq alone withEq rest).tail =
      Reading.signOrEq alone withEq rest := by
  fun_cases Reading.signOrEq alone withEq rest <;> rfl

/-- An item is made of characters next to each other. -/
theorem readItem_tail_isPrefix [Alphabet] (c : Char) (rest : List Char) :
    (readItem c rest).tail <+: rest := by
  cases lead c with
  | blank _ read | stray read => simp [read]
  | comment _ read => simp [read, List.takeWhile_prefix]
  | sign _ read => simp [read, Reading.sign]
  | signOrEq _ _ _ _ read => simpa [read] using Reading.signOrEq_isPrefix _ _ rest
  | string _ read => simpa [read, Reading.string_tail] using readString_isPrefix c rest
  | number read => simpa [read] using Reading.number_isPrefix c rest
  | word read => simp [read, Reading.word, List.takeWhile_prefix]

/-- An item is read alone as it was read in its place. -/
theorem readItem_tail [Alphabet] (c : Char) (rest : List Char) :
    readItem c (readItem c rest).tail = readItem c rest := by
  cases lead c with
  | blank _ read | sign _ read | stray read => simp [read]
  | comment _ read => simp only [read, List.takeWhile_idem]
  | signOrEq _ _ _ _ read => simp only [read, Reading.signOrEq_tail]
  | string _ read =>
    simp only [read, Reading.string_tail]
    simp only [Reading.string, readString_taken]
  | number read => simp only [read, Reading.number_tail]
  | word read => simp only [read, Reading.word, List.takeWhile_idem]

theorem readItem_alone [Alphabet] {c : Char} {tail after : List Char} {item : Item}
    (h : readItem c (tail ++ after) = ⟨item, tail⟩) : readItem c tail = ⟨item, tail⟩ := by
  have htail := readItem_tail c (tail ++ after)
  rwa [h] at htail

/-- Induction along the items of a text. -/
@[elab_as_elim]
theorem item_induction [Alphabet] {P : List Char → Prop} (nil : P [])
    (item : ∀ c tail after, (readItem c (tail ++ after)).tail = tail → P after →
      P (c :: (tail ++ after))) (text : List Char) : P text := by
  induction hlen : text.length using Nat.strong_induction_on generalizing text with
  | _ n ih =>
    cases text with
    | nil => exact nil
    | cons c rest =>
      obtain ⟨after, hafter⟩ := readItem_tail_isPrefix c rest
      have hshort : after.length < n := by
        have := congrArg List.length hafter
        simp only [List.length_append, List.length_cons] at this hlen
        omega
      rw [← hafter]
      apply item
      · rw [hafter]
      · exact ih after.length hshort after rfl

/-! ## Scans, item by item -/

theorem scanFrom_skip [Alphabet] {c : Char} {tail after : List Char}
    (h : readItem c (tail ++ after) = ⟨.skip, tail⟩) (p : Position) :
    scanFrom p 0 (c :: (tail ++ after)) = scanFrom (p.along (c :: tail)) 0 after := by
  simp only [scanFrom, h, scanFrom_taken]

theorem scanFrom_read [Alphabet] {c : Char} {tail after : List Char} {kind : TokenKind}
    (h : readItem c (tail ++ after) = ⟨.token kind, tail⟩) (p : Position) :
    scanFrom p 0 (c :: (tail ++ after)) =
      { scanFrom (p.along (c :: tail)) 0 after with
        tokens := ⟨kind, String.ofList (c :: tail), (p.along (c :: tail)).line, p.column⟩ ::
          (scanFrom (p.along (c :: tail)) 0 after).tokens } := by
  simp only [scanFrom, h, scanFrom_taken]

theorem scanFrom_fault [Alphabet] {c : Char} {tail after : List Char} {f : LexicalFault}
    (h : readItem c (tail ++ after) = ⟨.fault f, tail⟩) (p : Position) :
    scanFrom p 0 (c :: (tail ++ after)) =
      ⟨[], after, f.behind p (c :: tail),
        some (.lexical (f.behind p (c :: tail)).line p.column f)⟩ := by
  simp only [scanFrom, h, List.drop_left]

/-- Every token is read from its lexeme. -/
theorem readItem_of_mem_scanFrom [Alphabet] {text : List Char} {p : Position} {t : Token}
    (h : t ∈ (scanFrom p 0 text).tokens) :
    ∃ c tail, t.lexeme = String.ofList (c :: tail) ∧ readItem c tail = ⟨.token t.kind, tail⟩ := by
  induction text using item_induction generalizing p with
  | nil => simp [scanFrom] at h
  | item c tail after htail ih =>
    cases hread : readItem c (tail ++ after) with
    | mk item taken =>
      obtain rfl : taken = tail := by rw [← htail, hread]
      cases item with
      | skip =>
        rw [scanFrom_skip hread] at h
        exact ih h
      | token kind =>
        rw [scanFrom_read hread] at h
        rcases List.mem_cons.1 h with rfl | hafter
        · exact ⟨c, taken, rfl, readItem_alone hread⟩
        · exact ih hafter
      | fault f =>
        rw [scanFrom_fault hread] at h
        cases h

end Tremolo
