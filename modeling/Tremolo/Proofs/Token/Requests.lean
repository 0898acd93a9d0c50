import Tremolo.Proofs.Token.Cursor

/-! # One request for tokens after another

A scanner may be asked again and again, also after a fault.  What it answers is read off the items of
the text, in which a fault is an item like any other (`Itemized`): each request up to the last fault
reports one fault, the next one hands out all tokens, and those after that find only the end. -/

namespace Tremolo

/-! ## The items of a text -/

/-- The items of a text from a place on: the tokens among them, the faults among them, and the place
    behind the last item. -/
inductive Itemized [Alphabet] : Position → List Char → List Token → List Error → Position → Prop
  | nil {p : Position} : Itemized p [] [] [] p
  | skip {p q : Position} {c : Char} {tail after : List Char} {ts : List Token} {es : List Error} :
      readItem c (tail ++ after) = ⟨.skip, tail⟩ →
      Itemized (p.along (c :: tail)) after ts es q → Itemized p (c :: (tail ++ after)) ts es q
  | token {p q : Position} {c : Char} {tail after : List Char} {kind : TokenKind} {ts : List Token}
      {es : List Error} : readItem c (tail ++ after) = ⟨.token kind, tail⟩ →
      Itemized (p.along (c :: tail)) after ts es q →
      Itemized p (c :: (tail ++ after))
        (⟨kind, String.ofList (c :: tail), (p.along (c :: tail)).line, p.column⟩ :: ts) es q
  | fault {p q : Position} {c : Char} {tail after : List Char} {f : LexicalFault} {ts : List Token}
      {es : List Error} : readItem c (tail ++ after) = ⟨.fault f, tail⟩ →
      Itemized (f.behind p (c :: tail)) after ts es q →
      Itemized p (c :: (tail ++ after)) ts
        (.lexical (f.behind p (c :: tail)).line p.column f :: es) q

/-- Every text is made of items. -/
theorem exists_itemized [Alphabet] (p : Position) (text : List Char) :
    ∃ ts es q, Itemized p text ts es q := by
  induction text using item_induction generalizing p with
  | nil => exact ⟨[], [], p, .nil⟩
  | item c tail after htail ih =>
    cases hread : readItem c (tail ++ after) with
    | mk item taken =>
      obtain rfl : taken = tail := by rw [← htail, hread]
      cases item with
      | skip =>
        obtain ⟨ts, es, q, hafter⟩ := ih (p.along (c :: taken))
        exact ⟨ts, es, q, .skip hread hafter⟩
      | token kind =>
        obtain ⟨ts, es, q, hafter⟩ := ih (p.along (c :: taken))
        exact ⟨_, es, q, .token hread hafter⟩
      | fault f =>
        obtain ⟨ts, es, q, hafter⟩ := ih (f.behind p (c :: taken))
        exact ⟨ts, _, q, .fault hread hafter⟩

variable {p q : Position} {text : List Char} {ts : List Token} {es : List Error} {e : Error}

/-- Every fault takes a character. -/
theorem Itemized.length_le [Alphabet] (h : Itemized p text ts es q) : es.length ≤ text.length := by
  induction h with
  | nil => exact Nat.le_refl _
  | skip _ _ ih | token _ _ ih | fault _ _ ih =>
    simp only [List.length_cons, List.length_append]
    omega

/-- A text without faults is read to its end. -/
theorem Itemized.scanFrom_eq [Alphabet] (h : Itemized p text ts [] q) :
    scanFrom p 0 text = ⟨ts, [], q, none⟩ := by
  generalize hes : ([] : List Error) = es at h
  induction h with
  | nil => rfl
  | skip hread _ ih => rw [scanFrom_skip hread, ih hes]
  | token hread _ ih => rw [scanFrom_read hread, ih hes]
  | fault => cases hes

/-- A text with faults is read up to the first one, and its other items are still to be read. -/
theorem Itemized.scanFrom_fault [Alphabet] (h : Itemized p text ts (e :: es) q) :
    ∃ ts₁ ts₂ taken rest p', ts = ts₁ ++ ts₂ ∧ text = taken ++ rest ∧ taken ≠ [] ∧
      scanFrom p 0 text = ⟨ts₁, rest, p', some e⟩ ∧ Itemized p' rest ts₂ es q := by
  generalize hes : e :: es = all at h
  induction h with
  | nil => cases hes
  | @skip _ _ c tail _ _ _ hread _ ih =>
    obtain ⟨ts₁, ts₂, taken, rest, p', rfl, rfl, -, hscan, hrest⟩ := ih hes
    exact ⟨ts₁, ts₂, c :: (tail ++ taken), rest, p', rfl, by simp, by simp,
      by rw [scanFrom_skip hread, hscan], hrest⟩
  | @token _ _ c tail _ _ _ _ hread _ ih =>
    obtain ⟨ts₁, ts₂, taken, rest, p', rfl, rfl, -, hscan, hrest⟩ := ih hes
    exact ⟨_ :: ts₁, ts₂, c :: (tail ++ taken), rest, p', rfl, by simp, by simp,
      by rw [scanFrom_read hread, hscan], hrest⟩
  | @fault _ _ c tail _ _ _ _ hread hafter _ =>
    cases hes
    exact ⟨[], _, c :: tail, _, _, rfl, rfl, by simp, Tremolo.scanFrom_fault hread _, hafter⟩

/-! ## Requests -/

namespace Scanner

/-- The scanner after some requests. -/
def after [Alphabet] (s : Scanner) : Nat → Scanner
  | 0 => s
  | k + 1 => s.scan.2.after k

/-- The answer to a request, counted from 0. -/
def answer [Alphabet] (s : Scanner) (k : Nat) : Except Error (List Token) :=
  (s.after k).scan.1

variable {s : Scanner}

theorem after_succ [Alphabet] (s : Scanner) (k : Nat) : s.after (k + 1) = (s.after k).scan.2 := by
  induction k generalizing s with
  | zero => rfl
  | succ k ih => exact ih s.scan.2

/-- A request that meets no fault hands out all tokens and reaches the end. -/
theorem scan_of_clean [Alphabet] (h : Itemized s.position s.rest ts [] q) :
    s.scan = (.ok (s.pending ++ ts ++ [.endAt q]), ⟨[], q, []⟩) := by
  simp only [scan, h.scanFrom_eq]

/-- A request that meets a fault takes a character at least and keeps the tokens in front of it. -/
theorem scan_of_fault [Alphabet] (h : Itemized s.position s.rest ts (e :: es) q) :
    ∃ ts₁ ts₂ taken, ts = ts₁ ++ ts₂ ∧ taken ≠ [] ∧ s.rest = taken ++ s.scan.2.rest ∧
      s.scan.1 = .error e ∧ s.scan.2.pending = s.pending ++ ts₁ ∧
      Itemized s.scan.2.position s.scan.2.rest ts₂ es q := by
  obtain ⟨ts₁, ts₂, taken, rest, p', hts, htext, htaken, hscan, hrest⟩ := h.scanFrom_fault
  have hrequest : s.scan = (.error e, ⟨rest, p', s.pending ++ ts₁⟩) := by simp only [scan, hscan]
  rw [hrequest]
  exact ⟨ts₁, ts₂, taken, hts, htaken, htext, rfl, rfl, hrest⟩

/-- A request never goes back, and one that fails goes on. -/
theorem scan_rest [Alphabet] (s : Scanner) :
    s.scan.2.rest <:+ s.rest ∧ ∀ e, s.scan.1 = .error e → s.scan.2.rest.length < s.rest.length := by
  obtain ⟨ts, es, q, hitems⟩ := exists_itemized s.position s.rest
  cases es with
  | nil =>
    rw [scan_of_clean hitems]
    exact ⟨List.nil_suffix, fun e he => by cases he⟩
  | cons e es =>
    obtain ⟨ts₁, ts₂, taken, -, htaken, hrest, -⟩ := scan_of_fault hitems
    have hlength := congrArg List.length hrest
    have hpos := List.length_pos_iff.2 htaken
    rw [List.length_append] at hlength
    exact ⟨⟨taken, hrest.symm⟩, fun _ _ => by omega⟩

/-- The answers to all requests.  The induction is on the faults: the first request reports the first
    one, and what it leaves has the others. -/
theorem answers [Alphabet] (h : Itemized s.position s.rest ts es q) :
    (∀ k e, es[k]? = some e → s.answer k = .error e) ∧
      s.answer es.length = .ok (s.pending ++ ts ++ [.endAt q]) ∧
      ∀ k, es.length < k → s.answer k = .ok [.endAt q] := by
  induction es generalizing s ts with
  | nil =>
    have hfirst := scan_of_clean h
    refine ⟨fun k e he => (by cases he), congrArg Prod.fst hfirst, fun k hk => ?_⟩
    -- Behind the end every request finds the same.
    have hend : ∀ n, (Scanner.mk [] q []).after n = ⟨[], q, []⟩ := by
      intro n
      induction n with
      | zero => rfl
      | succ n ih => exact ih
    obtain ⟨n, rfl⟩ := Nat.exists_eq_succ_of_ne_zero (Nat.ne_of_gt hk)
    rw [answer, after, hfirst, hend]
    rfl
  | cons e es ih =>
    obtain ⟨ts₁, ts₂, taken, rfl, -, -, hanswer, hpending, hrest⟩ := scan_of_fault h
    obtain ⟨hfaults, hlast, hend⟩ := ih hrest
    refine ⟨fun k e' he => ?_, ?_, fun k hk => ?_⟩
    · cases k with
      | zero =>
        cases he
        exact hanswer
      | succ k => exact hfaults k e' he
    · rw [hpending, List.append_assoc s.pending] at hlast
      exact hlast
    · cases k with
      | zero => cases hk
      | succ k => exact hend k (Nat.lt_of_succ_lt_succ hk)

end Scanner

namespace Cursor

/-- The cursor after some requests; none if one of them has read outside the text. -/
def after? [Alphabet] (c : Cursor) : Nat → Option Cursor
  | 0 => some c
  | k + 1 => c.scan?.bind fun r => r.2.after? k

/-- The answer to a request, counted from 0. -/
def answer? [Alphabet] (c : Cursor) (k : Nat) : Option (Except Error (List Token)) :=
  (c.after? k).bind fun d => d.scan?.map (·.1)

theorem after?_eq [Alphabet] (c : Cursor) (k : Nat) :
    ∃ d, c.after? k = some d ∧ d.scanner = c.scanner.after k := by
  induction k generalizing c with
  | zero => exact ⟨c, rfl, rfl⟩
  | succ k ih =>
    obtain ⟨d, hscan, hd⟩ := c.scan?_eq
    obtain ⟨d', hafter, hd'⟩ := ih d
    exact ⟨d', by rw [after?, hscan, Option.bind_some, hafter], by rw [hd', hd]; rfl⟩

theorem answer?_eq [Alphabet] (c : Cursor) (k : Nat) : c.answer? k = some (c.scanner.answer k) := by
  obtain ⟨d, hafter, hd⟩ := c.after?_eq k
  obtain ⟨d', hscan, -⟩ := d.scan?_eq
  rw [answer?, hafter, Option.bind_some, hscan, hd]
  rfl

theorem scanner_ofString (source : String) : (ofString source).scanner = Scanner.ofString source := by
  simp [scanner, rest, ofString, Scanner.ofString]

end Cursor

/-- Whatever the text is, every request is answered without reading outside it and never goes back.  A
    request that fails takes a character, so there are no more failures than characters.  The requests
    report the faults of the text one by one, then all of its tokens with an end mark, and from then on
    only that end mark. -/
theorem scans_progress [Alphabet] (source : String) :
    let s := Scanner.ofString source
    (∀ k, (Cursor.ofString source).answer? k = some (s.answer k)) ∧
    (∀ k, (s.after (k + 1)).rest <:+ (s.after k).rest) ∧
    (∀ k e, s.answer k = .error e → (s.after (k + 1)).rest.length < (s.after k).rest.length) ∧
    ∃ ts es q, Itemized .start source.toList ts es q ∧ es.length ≤ source.length ∧
      (∀ k e, es[k]? = some e → s.answer k = .error e) ∧
      s.answer es.length = .ok (ts ++ [.endAt q]) ∧
      ∀ k, es.length < k → s.answer k = .ok [.endAt q] := by
  intro s
  refine ⟨fun k => ?_, fun k => ?_, fun k e he => ?_, ?_⟩
  · rw [Cursor.answer?_eq, Cursor.scanner_ofString]
  · rw [s.after_succ]
    exact (s.after k).scan_rest.1
  · rw [s.after_succ]
    exact (s.after k).scan_rest.2 e he
  · obtain ⟨ts, es, q, hitems⟩ := exists_itemized .start source.toList
    have hlength : es.length ≤ source.length := String.length_toList ▸ hitems.length_le
    exact ⟨ts, es, q, hitems, hlength, Scanner.answers hitems⟩

namespace Interrupted

/-- Two words with two faults between them, the first of which looks like the end of the text. -/
def script : String :=
  "a\x00!b"

/-- All of its tokens. -/
def tokens : List Token :=
  [⟨.identifier "a", "a", 1, 1⟩, ⟨.identifier "b", "b", 1, 4⟩, ⟨.eof, "", 1, 5⟩]

end Interrupted

open Interrupted in
theorem scans_progress_interrupted :
    (Scanner.ofString script).answer 0 = .error (.lexical 1 2 (.unexpectedCharacter '\x00')) ∧
      ((Scanner.ofString script).after 1).rest.length < ((Scanner.ofString script).after 0).rest.length ∧
      (Cursor.ofString script).answer? 1 = some (.error (.lexical 1 3 .loneBang)) ∧
      (Cursor.ofString script).answer? 2 = some (.ok tokens) ∧
      (Cursor.ofString script).answer? 3 = some (.ok [⟨.eof, "", 1, 5⟩]) := by
  obtain ⟨hanswer, -, hfewer, -⟩ := scans_progress script
  have hfirst : (Scanner.ofString script).answer 0 =
      .error (.lexical 1 2 (.unexpectedCharacter '\x00')) := by decide +kernel
  refine ⟨hfirst, hfewer 0 _ hfirst, (hanswer 1).trans ?_, (hanswer 2).trans ?_, (hanswer 3).trans ?_⟩
  · decide +kernel
  · decide +kernel
  · decide +kernel

end Tremolo
