import Tremolo.Proofs.Syntax.Advance

/-! # One request after another

A parser may be asked again and again, also after a mistake.  Each request that fails takes a token, and
one that succeeds takes all that are left, so mistakes come to an end.  A reader of the whole array, in
which end marks may stand anywhere, gives the same answers. -/

namespace Tremolo

namespace Parser

/-- The parser after some requests. -/
def after (p : Parser) : Nat → Parser
  | 0 => p
  | k + 1 => (p.after k).parse.2

/-- The answer to a request, counted from 0. -/
def answer (p : Parser) (k : Nat) : Except Error Program :=
  (p.after k).parse.1

/-- How many of the first requests fail. -/
def failures (p : Parser) (k : Nat) : Nat :=
  (List.range k).countP fun i => !(p.answer i).isOk

/-- How many tokens the first requests take. -/
def taken (p : Parser) (k : Nat) : Nat :=
  p.rest.length - (p.after k).rest.length

variable (p : Parser)

/-! ## One request -/

theorem parse_rest : p.parse.2.rest = (Parse.program p.rest).rest := by
  unfold parse
  cases Parse.program p.rest <;> rfl

theorem parse_of_nil (h : p.rest = []) : p.parse = (.ok ⟨none, []⟩, p) := by
  obtain ⟨rest⟩ := p
  cases h
  rfl

/-- A request takes a token if there is one. -/
theorem parse_takes : p.parse.2.rest <:+ p.rest.drop 1 := by
  rw [parse_rest]
  exact (Read.program_follows (Nat.le_refl _) p.rest (Nat.lt_succ_self _)).leaves

/-- A request that succeeds takes all tokens. -/
theorem rest_of_ok {program : Program} (h : p.parse.1 = .ok program) : p.parse.2.rest = [] := by
  rw [parse_rest]
  unfold parse at h
  cases hread : Parse.program p.rest with
  | ok q rest => exact (Parse.program_sound hread).2
  | fail e rest =>
    rw [hread] at h
    cases h

/-- A request that fails leaves fewer tokens. -/
theorem rest_of_error {e : Error} (h : p.parse.1 = .error e) :
    p.parse.2.rest.length < p.rest.length := by
  have hle := p.parse_takes.length_le
  rw [List.length_drop] at hle
  have hpos : 0 < p.rest.length := by
    rw [List.length_pos_iff]
    intro hnil
    rw [p.parse_of_nil hnil] at h
    cases h
  omega

/-! ## Many requests -/

theorem after_succ_suffix (k : Nat) : (p.after (k + 1)).rest <:+ (p.after k).rest :=
  (p.after k).parse_takes.trans (List.drop_suffix 1 _)

theorem after_suffix (k : Nat) : (p.after k).rest <:+ p.rest := by
  induction k with
  | zero => exact List.suffix_rfl
  | succ k ih => exact (p.after_succ_suffix k).trans ih

theorem after_eq_drop (k : Nat) : (p.after k).rest = p.rest.drop (p.taken k) :=
  List.suffix_iff_eq_drop.1 (p.after_suffix k)

theorem taken_le_succ (k : Nat) : p.taken k ≤ p.taken (k + 1) :=
  Nat.sub_le_sub_left (p.after_succ_suffix k).length_le _

theorem taken_lt_of_error {k : Nat} {e : Error} (h : p.answer k = .error e) :
    p.taken k < p.taken (k + 1) := by
  have hfewer : (p.after (k + 1)).rest.length < (p.after k).rest.length := (p.after k).rest_of_error h
  have hle := (p.after_suffix k).length_le
  unfold taken
  omega

/-- What all requests after a successful one find. -/
theorem after_of_ok {i j : Nat} {program : Program} (h : p.answer i = .ok program) (hij : i < j) :
    (p.after j).rest = [] := by
  induction hij with
  | refl => exact (p.after i).rest_of_ok h
  | @step j _ ih => exact (congrArg (fun r => r.2.rest) ((p.after j).parse_of_nil ih)).trans ih

theorem failures_succ (k : Nat) :
    p.failures (k + 1) = p.failures k + if (p.answer k).isOk then 0 else 1 := by
  simp only [failures, List.range_succ, List.countP_append, List.countP_singleton]
  cases (p.answer k).isOk <;> rfl

/-- Each failure has used up a token. -/
theorem failures_add_le (k : Nat) : p.failures k + (p.after k).rest.length ≤ p.rest.length := by
  induction k with
  | zero => simp [failures, after]
  | succ k ih =>
    cases hanswer : p.answer k with
    | ok program =>
      have hend : (p.after (k + 1)).rest = [] := p.after_of_ok hanswer (Nat.lt_succ_self k)
      rw [failures_succ, hanswer, hend]
      simp only [Except.isOk, Except.toBool, if_true, List.length_nil]
      omega
    | error e =>
      have hfewer : (p.after (k + 1)).rest.length < (p.after k).rest.length :=
        (p.after k).rest_of_error hanswer
      rw [failures_succ, hanswer]
      simp only [Except.isOk, Except.toBool, Bool.false_eq_true, if_false]
      omega

end Parser

/-! ## Readers -/

section Readers

variable {limit : Nat}

/-- An end mark at the end changes nothing in front of the first one. -/
theorem readable_withEnd (tokens : List Token) : readable (withEnd tokens) = readable tokens := by
  unfold withEnd
  split
  next h =>
    rw [List.getLast?_eq_none_iff.1 h]
    rfl
  next last h =>
    split
    next => rfl
    next =>
      simp only [readable, List.takeWhile_append]
      split
      next hall => simpa using ((List.takeWhile_prefix _).eq_of_length hall).symm
      next => rfl

theorem stands_withEnd (tokens : List Token) : Stands (withEnd tokens).toArray (readable tokens) where
  ended := by
    unfold withEnd
    split
    next => exact ⟨⟨.eof, "", 1, 0⟩, by simp, rfl⟩
    next last h =>
      split
      next hlast => exact ⟨last, by simpa using List.mem_of_getLast? h, hlast⟩
      next => exact ⟨⟨.eof, "", last.line, 0⟩, by simp, rfl⟩
  suffix := by
    have hsame : readable (withEnd tokens).toArray.toList = readable tokens := readable_withEnd tokens
    exact hsame.symm ▸ List.suffix_rfl

/-- One request to a reader and to the parser. -/
theorem Reader.parse?_before {tokens : Array Token} {p : Parser} (h : Stands tokens p.rest)
    (hlimit : p.rest.length < limit) :
    (Reader.before tokens p.rest).parse? limit = some (p.parse.1, .before tokens p.parse.2.rest) := by
  have hread := (Read.program_follows (Nat.le_refl limit) p.rest hlimit).reads h
  unfold Reader.parse? Parser.parse
  rw [hread]
  cases Parse.program p.rest <;> rfl

variable (tokens : List Token) (hlimit : (readable tokens).length < limit) (k : Nat)

include hlimit

theorem Reader.parse?_after :
    (Reader.before (withEnd tokens).toArray ((Parser.ofTokens tokens).after k).rest).parse? limit =
      some ((Parser.ofTokens tokens).answer k,
        .before (withEnd tokens).toArray ((Parser.ofTokens tokens).after (k + 1)).rest) := by
  have hsuffix := (Parser.ofTokens tokens).after_suffix k
  exact Reader.parse?_before ((stands_withEnd tokens).of_suffix hsuffix)
    (Nat.lt_of_le_of_lt hsuffix.length_le hlimit)

/-- After any number of requests a reader stands where the parser does. -/
theorem Reader.after?_ofTokens :
    (Reader.ofTokens tokens).after? limit k =
      some (.before (withEnd tokens).toArray ((Parser.ofTokens tokens).after k).rest) := by
  induction k with
  | zero =>
    have hstart : (readable (withEnd tokens)).length - (readable tokens).length = 0 := by
      rw [readable_withEnd, Nat.sub_self]
    exact congrArg (fun i => some (Reader.mk (withEnd tokens).toArray i)) hstart.symm
  | succ k ih =>
    rw [Reader.after?, ih, Option.bind_some, Reader.parse?_after tokens hlimit k]
    rfl

theorem Reader.answer?_ofTokens :
    (Reader.ofTokens tokens).answer? limit k = some ((Parser.ofTokens tokens).answer k) := by
  rw [Reader.answer?, Reader.after?_ofTokens tokens hlimit, Option.bind_some,
    Reader.parse?_after tokens hlimit k]
  rfl

end Readers

/-- Whatever the tokens are and wherever end marks stand among them, a reader answers every request: it
    never looks outside the array, and no loop or recursion reaches a limit above the number of tokens in
    front of the first end mark.  Its answers and places are those of the parser and depend on these
    tokens only.  It never goes back.  A request that fails takes a token, so there are no more failures
    than tokens; after a request that succeeds all others find an empty program. -/
theorem requests_progress (tokens : List Token) :
    let p := Parser.ofTokens tokens
    let n := (readable tokens).length
    (∀ limit k, n < limit →
      (Reader.ofTokens tokens).after? limit k = some ⟨(withEnd tokens).toArray, p.taken k⟩ ∧
      (Reader.ofTokens tokens).answer? limit k = some (p.answer k)) ∧
    (∀ tokens' limit k, readable tokens' = readable tokens → n < limit →
      (Reader.ofTokens tokens').answer? limit k = (Reader.ofTokens tokens).answer? limit k) ∧
    (∀ k, p.taken k ≤ p.taken (k + 1) ∧ p.taken k ≤ n ∧
      (p.after k).rest = (readable tokens).drop (p.taken k)) ∧
    (∀ k e, p.answer k = .error e → p.taken k < p.taken (k + 1)) ∧
    (∀ k, p.failures k ≤ n) ∧
    ∀ i j program, i < j → p.answer i = .ok program → p.answer j = .ok ⟨none, []⟩ := by
  intro p n
  refine ⟨fun limit k hlimit => ⟨?_, Reader.answer?_ofTokens tokens hlimit k⟩,
    fun tokens' limit k hsame hlimit => ?_,
    fun k => ⟨p.taken_le_succ k, Nat.sub_le _ _, p.after_eq_drop k⟩, fun k e => p.taken_lt_of_error,
    fun k => ?_, fun i j program hij h => ?_⟩
  · rw [Reader.after?_ofTokens tokens hlimit, Reader.before]
    change some (Reader.mk _ ((readable (withEnd tokens)).length - _)) = _
    rw [readable_withEnd]
    rfl
  · have hparser : Parser.ofTokens tokens' = p := congrArg Parser.mk hsame
    rw [Reader.answer?_ofTokens tokens' (hsame.symm ▸ hlimit), Reader.answer?_ofTokens tokens hlimit,
      hparser]
  · exact Nat.le_trans (Nat.le_add_right _ _) (p.failures_add_le k)
  · exact congrArg Prod.fst ((p.after j).parse_of_nil (p.after_of_ok h hij))

namespace Soup

/-- Two tokens that form no program, an end mark, and a token behind it. -/
def tokens : List Token :=
  [⟨.rightBrace, "\x7d", 1, 1⟩, ⟨.identifier "x", "x", 1, 2⟩, ⟨.eof, "", 1, 3⟩, ⟨.semicolon, ";", 1, 4⟩]

end Soup

open Soup in
theorem requests_progress_soup :
    (Reader.ofTokens tokens).answer? 3 0 =
        some (.error (.unexpectedToken 1 .expression .rightBrace)) ∧
      (Reader.ofTokens tokens).answer? 3 1 = some (.error .unexpectedEnd) ∧
      (Reader.ofTokens tokens).after? 3 2 = some ⟨(withEnd tokens).toArray, 2⟩ ∧
      (Reader.ofTokens tokens).answer? 3 2 = some (.ok ⟨none, []⟩) ∧
      (Reader.ofTokens (tokens.take 2)).answer? 3 1 = (Reader.ofTokens tokens).answer? 3 1 := by
  obtain ⟨hreader, hsame, -⟩ := requests_progress tokens
  have hlimit : (readable tokens).length < 3 := by decide
  exact ⟨(hreader 3 0 hlimit).2, (hreader 3 1 hlimit).2, (hreader 3 2 hlimit).1, (hreader 3 2 hlimit).2,
    hsame (tokens.take 2) 3 1 rfl hlimit⟩

end Tremolo
