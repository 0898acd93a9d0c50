import Mathlib.Data.List.TakeWhile
import Tremolo.Proofs.Token.Factoring

/-! # Texts are scanned line by line

A line end separates what stands above it from what stands below: no item reaches across it unless it
is a string, and a string that is closed above does not look further (`readItem_append_line`).  Of what
was read above, a scan keeps nothing but the number of lines, and from a place further down it reads the
same, further down (`scanFrom_below`). -/

namespace Tremolo

/-! ## Further down -/

/-- The place some lines further down. -/
def Position.below (lines : Nat) (p : Position) : Position :=
  ⟨p.line + lines, p.column⟩

/-- The same token, some lines further down. -/
def Token.below (lines : Nat) (t : Token) : Token :=
  { t with line := t.line + lines }

/-- The same error, some lines further down if it is one of the scanner. -/
def Error.below (lines : Nat) : Error → Error
  | .lexical line column fault => .lexical (line + lines) column fault
  | e => e

/-- The same scan, of a text that stands some lines further down. -/
def Scan.below (lines : Nat) (s : Scan) : Scan :=
  ⟨s.tokens.map (.below lines), s.rest, s.position.below lines, s.error.map (.below lines)⟩

variable (lines : Nat)

theorem Position.step_below (p : Position) (c : Char) :
    (p.below lines).step c = (p.step c).below lines := by
  by_cases hc : c = '\n'
  · simp [Position.step, Position.below, hc, Nat.add_right_comm]
  · simp [Position.step, Position.right, Position.below, hc]

theorem Position.along_below (p : Position) (cs : List Char) :
    (p.below lines).along cs = (p.along cs).below lines := by
  induction cs generalizing p with
  | nil => rfl
  | cons c cs ih =>
    have hstep : ∀ q : Position, q.along (c :: cs) = (q.step c).along cs := fun _ => rfl
    rw [hstep, hstep, Position.step_below, ih]

theorem LexicalFault.behind_below (f : LexicalFault) (p : Position) (cs : List Char) :
    f.behind (p.below lines) cs = (f.behind p cs).below lines := by
  cases f with
  | invalidEscape =>
    simp only [LexicalFault.behind, Position.along_below]
    rfl
  | _ => simp only [LexicalFault.behind, Position.along_below]

theorem scanFrom_below [Alphabet] (p : Position) (text : List Char) :
    scanFrom (p.below lines) 0 text = (scanFrom p 0 text).below lines := by
  induction text using item_induction generalizing p with
  | nil => rfl
  | item c tail after htail ih =>
    cases hread : readItem c (tail ++ after) with
    | mk item taken =>
      obtain rfl : taken = tail := by rw [← htail, hread]
      cases item with
      | skip => rw [scanFrom_skip hread, scanFrom_skip hread, Position.along_below, ih]
      | token kind =>
        rw [scanFrom_read hread, scanFrom_read hread, Position.along_below, ih]
        rfl
      | fault f =>
        rw [scanFrom_fault hread, scanFrom_fault hread, LexicalFault.behind_below]
        rfl

/-! ## Items above a line end -/

section LineEnd

variable (rest more : List Char)

theorem takeWhile_append_line {p : Char → Bool} (hp : p '\n' = false) :
    (rest ++ '\n' :: more).takeWhile p = rest.takeWhile p := by
  induction rest with
  | nil => simp [hp]
  | cons c rest ih =>
    cases hc : p c with
    | true => simp [hc, ih]
    | false => simp [hc]

theorem dropWhile_append_line {p : Char → Bool} (hp : p '\n' = false) :
    (rest ++ '\n' :: more).dropWhile p = rest.dropWhile p ++ '\n' :: more := by
  induction rest with
  | nil => simp [hp]
  | cons c rest ih =>
    cases hc : p c with
    | true => simp [hc, ih]
    | false => simp [hc]

theorem Reading.signOrEq_append_line (alone withEq : Item) :
    Reading.signOrEq alone withEq (rest ++ '\n' :: more) = Reading.signOrEq alone withEq rest := by
  fun_cases Reading.signOrEq alone withEq rest with
  | case1 rest => rfl
  | case2 rest hne =>
    cases rest with
    | nil => rfl
    | cons c rest =>
      have hc : c ≠ '=' := fun h => hne rest (by rw [h])
      simp [Reading.signOrEq, hc]

/-- A point that ends the line is not part of a number. -/
theorem Reading.number_append_line (first : Char) :
    Reading.number first (rest ++ '\n' :: more) = Reading.number first rest := by
  have hdigits : ∀ cs : List Char,
      (cs ++ '\n' :: more).takeWhile Char.isDigit = cs.takeWhile Char.isDigit :=
    fun cs => takeWhile_append_line cs more (by decide)
  have hdrop := dropWhile_append_line rest more (p := Char.isDigit) (by decide)
  unfold Reading.number
  rw [hdrop, hdigits]
  cases hafter : rest.dropWhile Char.isDigit with
  | nil => simp
  | cons point after =>
    cases after with
    | nil => by_cases hpoint : point = '.' <;> simp [hpoint]
    | cons d after => by_cases hpoint : point = '.' <;> simp [hpoint, hdigits]

/-- A string that is closed does not look behind its quote. -/
theorem readString_append {quote : Char} {cs : List Char}
    (h : (readString quote cs).closing = .closed) :
    readString quote (cs ++ more) = readString quote cs := by
  fun_induction readString quote cs with
  | case1 | case2 => cases h
  | case3 c cs d hd ih => simp [readString, hd, ih h]
  | case4 => cases h
  | case5 cs hlone hescape => simp [readString_cons (ne_backslash hlone hescape)]
  | case6 c cs hlone hescape hquote ih =>
    simp [readString_cons (ne_backslash hlone hescape), hquote, ih h]

theorem Reading.string_append {quote : Char}
    (h : ∀ f, (Reading.string quote rest).item ≠ .fault f) :
    Reading.string quote (rest ++ more) = Reading.string quote rest := by
  have hclosed : (readString quote rest).closing = .closed := by
    cases hclosing : (readString quote rest).closing with
    | closed => rfl
    | invalidEscape c => exact absurd (by simp [Reading.string, hclosing]) (h (.invalidEscape c))
    | unterminated => exact absurd (by simp [Reading.string, hclosing]) (h .unterminatedString)
  simp only [Reading.string, readString_append more hclosed]

/-- What stands below a line end bears on nothing above it but an open string. -/
theorem readItem_append_line [Alphabet] {c : Char} (h : ∀ f, (readItem c rest).item ≠ .fault f) :
    readItem c (rest ++ '\n' :: more) = readItem c rest := by
  cases lead c with
  | blank _ read | sign _ read | stray read => simp only [read]
  | comment _ read => simp only [read, takeWhile_append_line rest more (p := (· ≠ '\n')) (by decide)]
  | signOrEq _ _ _ _ read => simp only [read, Reading.signOrEq_append_line]
  | string _ read =>
    rw [read] at h
    rw [read, read, Reading.string_append _ _ h]
  | number read => simp only [read, Reading.number_append_line]
  | word read =>
    have hend : continuesWord '\n' = false := not_continuesWord (by decide) rfl
    simp only [read, Reading.word, takeWhile_append_line rest more hend]

end LineEnd

/-! ## Texts -/

/-- A scan that gets to a line end goes on below it, at the start of the next line. -/
theorem scanFrom_append_line [Alphabet] (text more : List Char) (p : Position)
    (h : (scanFrom p 0 text).error = none) :
    scanFrom p 0 (text ++ '\n' :: more) =
      { scanFrom ((p.along text).step '\n') 0 more with
        tokens := (scanFrom p 0 text).tokens ++
          (scanFrom ((p.along text).step '\n') 0 more).tokens } := by
  induction text using item_induction generalizing p with
  | nil => rfl
  | item c tail after htail ih =>
    have halong : p.along (c :: (tail ++ after)) = (p.along (c :: tail)).along after := by
      simp [Position.along]
    rw [halong]
    cases hread : readItem c (tail ++ after) with
    | mk item taken =>
      obtain rfl : taken = tail := by rw [← htail, hread]
      have hlonger (hitem : ∀ f, item ≠ .fault f) :
          readItem c (taken ++ (after ++ '\n' :: more)) = ⟨item, taken⟩ := by
        rw [← List.append_assoc, readItem_append_line _ _ (by rw [hread]; exact hitem), hread]
      cases item with
      | skip =>
        rw [scanFrom_skip hread] at h ⊢
        rw [List.cons_append, List.append_assoc, scanFrom_skip (hlonger (by simp)), ih _ h]
      | token kind =>
        rw [scanFrom_read hread] at h ⊢
        rw [List.cons_append, List.append_assoc, scanFrom_read (hlonger (by simp)), ih _ h]
        rfl
      | fault f =>
        rw [scanFrom_fault hread] at h
        cases h

/-- All faults of a text are dated. -/
theorem scanFrom_error [Alphabet] {p : Position} {text : List Char} {e : Error}
    (h : (scanFrom p 0 text).error = some e) : ∃ line column fault, e = .lexical line column fault := by
  induction text using item_induction generalizing p with
  | nil => cases h
  | item c tail after htail ih =>
    cases hread : readItem c (tail ++ after) with
    | mk item taken =>
      obtain rfl : taken = tail := by rw [← htail, hread]
      cases item with
      | skip =>
        rw [scanFrom_skip hread] at h
        exact ih h
      | token kind =>
        rw [scanFrom_read hread] at h
        exact ih h
      | fault f =>
        rw [scanFrom_fault hread] at h
        exact ⟨_, _, f, (Option.some.inj h).symm⟩

/-- Where the line below a text starts. -/
theorem start_step_line (text : List Char) :
    (Position.start.along text).step '\n' = Position.start.below (1 + text.count '\n') := by
  rw [start_along]
  simp [Position.step, Position.below, Position.start, Nat.add_comm]

theorem tokenize_eq_ok [Alphabet] {source : String} {tokens : List Token} :
    tokenize source = .ok tokens ↔ (scanFrom .start 0 source.toList).error = none ∧
      tokens = (scanFrom .start 0 source.toList).tokens ++
        [.endAt (scanFrom .start 0 source.toList).position] := by
  simp only [tokenize, Scanner.ofString, Scanner.scan]
  cases (scanFrom .start 0 source.toList).error with
  | none => simp [eq_comm]
  | some e => simp

theorem tokenize_eq_error [Alphabet] {source : String} {e : Error} :
    tokenize source = .error e ↔ (scanFrom .start 0 source.toList).error = some e := by
  simp only [tokenize, Scanner.ofString, Scanner.scan]
  cases (scanFrom .start 0 source.toList).error with
  | none => simp
  | some e => simp

/-- Two texts with a line end between them are scanned one after the other: the tokens or the fault of the
    second are those it has alone, as many lines further down as the first text has. -/
theorem tokenize_append_line [Alphabet] {first : String} {ts : List Token} {last : Token}
    (h : tokenize first = .ok (ts ++ [last])) (second : String) :
    let lines := 1 + first.toList.count '\n'
    (∀ us, tokenize second = .ok us →
      tokenize (first ++ "\n" ++ second) = .ok (ts ++ us.map (Token.below lines))) ∧
    ∀ e, tokenize second = .error e → ∃ line column fault, e = .lexical line column fault ∧
      tokenize (first ++ "\n" ++ second) = .error (.lexical (line + lines) column fault) := by
  intro lines
  obtain ⟨hfirst, htokens⟩ := tokenize_eq_ok.1 h
  obtain ⟨rfl, -⟩ := List.append_inj' htokens rfl
  have htext : (first ++ "\n" ++ second).toList = first.toList ++ '\n' :: second.toList := by simp
  have hscan := scanFrom_append_line first.toList second.toList .start hfirst
  rw [start_step_line, scanFrom_below] at hscan
  refine ⟨fun us hus => ?_, fun e he => ?_⟩
  · obtain ⟨hsecond, rfl⟩ := tokenize_eq_ok.1 hus
    rw [tokenize_eq_ok, htext, hscan]
    refine ⟨by simp [Scan.below, hsecond], ?_⟩
    rw [List.map_append, List.append_assoc]
    rfl
  · have hsecond := tokenize_eq_error.1 he
    obtain ⟨line, column, fault, rfl⟩ := scanFrom_error hsecond
    refine ⟨line, column, fault, rfl, ?_⟩
    rw [tokenize_eq_error, htext, hscan]
    simp [Scan.below, hsecond, Error.below, lines]

/-- A string over two lines and a comment that ends the second. -/
def Excerpt.upper : String :=
  "x = 'a\nb' #'"

open Excerpt in
theorem tokenize_append_line_excerpt :
    (∃ ts last, tokenize upper = .ok (ts ++ [last]) ∧
      ts.map (fun t => (t.lexeme, t.line, t.column)) = [("x", 1, 1), ("=", 1, 3), ("'a\nb'", 2, 5)] ∧
      tokenize (upper ++ "\n" ++ "= 1") =
        .ok (ts ++ [⟨.assign, "=", 3, 1⟩, ⟨.integer 1, "1", 3, 3⟩, ⟨.eof, "", 3, 4⟩])) ∧
    tokenize (upper ++ "\n" ++ "= '\n") = .error (.lexical 4 3 .unterminatedString) := by
  have hupper : ∃ ts last, tokenize upper = .ok (ts ++ [last]) ∧
      ts.map (fun t => (t.lexeme, t.line, t.column)) =
        [("x", 1, 1), ("=", 1, 3), ("'a\nb'", 2, 5)] :=
    ⟨[⟨.identifier "x", "x", 1, 1⟩, ⟨.assign, "=", 1, 3⟩, ⟨.string "a\nb", "'a\nb'", 2, 5⟩],
      ⟨.eof, "", 2, 6⟩, by decide +kernel, rfl⟩
  have hlower : tokenize "= 1" =
      .ok [⟨.assign, "=", 1, 1⟩, ⟨.integer 1, "1", 1, 3⟩, ⟨.eof, "", 1, 4⟩] := by decide +kernel
  have hfault : tokenize "= '\n" = .error (.lexical 2 3 .unterminatedString) := by decide +kernel
  obtain ⟨ts, last, hts, hlexemes⟩ := hupper
  obtain ⟨hok, -⟩ := tokenize_append_line hts "= 1"
  refine ⟨⟨ts, last, hts, hlexemes, (hok _ hlower).trans ?_⟩, ?_⟩
  · rfl
  · obtain ⟨-, herror⟩ := tokenize_append_line hts "= '\n"
    obtain ⟨line, column, fault, heq, hresult⟩ := herror _ hfault
    cases heq
    exact hresult

end Tremolo
