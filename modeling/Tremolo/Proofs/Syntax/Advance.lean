import Tremolo.Proofs.Syntax.Persistence
import Tremolo.Proofs.Syntax.Reader

/-! # Readers follow the parser

The parser of a list and the reader of an array do the same (`Follows`): in front of the same tokens
they come to the same result or the same mistake and leave the same tokens.  What is left is always an
end of what was there.  Every round of a loop and every nesting takes a token, so a limit above the
number of tokens is never reached, and neither is the parser's own depth. -/

namespace Tremolo

/-- What a parser leaves. -/
def Parsed.rest {α : Type} : Parsed α → List Token
  | .ok _ rest => rest
  | .fail _ rest => rest

/-- One round of a loop, which may be the last. -/
def Parse.round {α : Type} (more : TokenKind → Bool) (step : Parse α) : Parse (Option α)
  | [] => .ok none []
  | t :: ts => if more t.kind then (step (t :: ts)).map some else .ok none (t :: ts)

/-- Of fewer than `n` tokens, every result takes one at least. -/
def Parse.Shortens {α : Type} (n : Nat) (q : Parse α) : Prop :=
  ∀ ⦃t ts a rest⦄, ts.length + 1 < n → q (t :: ts) = .ok a rest → rest.length ≤ ts.length

/-! ## Places -/

/-- The reader with `ts` between its place and the first end mark. -/
def Reader.before (tokens : Array Token) (ts : List Token) : Reader :=
  ⟨tokens, (readable tokens.toList).length - ts.length⟩

/-- The same result, of a reader. -/
def Parsed.before {α : Type} (tokens : Array Token) : Parsed α → Reads α
  | .ok a rest => .ok a (.before tokens rest)
  | .fail e rest => .fail e (.before tokens rest)

/-- The tokens have an end mark, and `ts` stands right in front of the first one. -/
structure Stands (tokens : Array Token) (ts : List Token) : Prop where
  ended : ∃ t ∈ tokens, t.kind = .eof
  suffix : ts <:+ readable tokens.toList

section Stands

variable {tokens : Array Token} {t : Token} {ts : List Token}

theorem Stands.of_suffix (h : Stands tokens ts) {us : List Token} (hus : us <:+ ts) :
    Stands tokens us :=
  ⟨h.ended, hus.trans h.suffix⟩

theorem kind_ne_of_mem_readable {tokens : List Token} {t : Token} (h : t ∈ readable tokens) :
    t.kind ≠ .eof :=
  of_decide_eq_true (List.all_eq_true.1 List.all_takeWhile t h)

theorem Stands.ne_eof (h : Stands tokens (t :: ts)) : t.kind ≠ .eof :=
  kind_ne_of_mem_readable (h.suffix.subset (List.mem_cons_self ..))

/-- Around the place: what has been taken, what is left, the first end mark, and whatever follows. -/
theorem Stands.split (h : Stands tokens ts) :
    ∃ front e back, tokens.toList = front ++ (ts ++ e :: back) ∧ e.kind = .eof ∧
      (Reader.before tokens ts).current = front.length := by
  obtain ⟨front, hfront⟩ := h.suffix
  obtain ⟨mark, hmark, hkind⟩ := h.ended
  have hsplit : tokens.toList = front ++ ts ++ tokens.toList.dropWhile fun t => t.kind ≠ .eof := by
    rw [hfront]
    exact List.takeWhile_append_dropWhile.symm
  have hhead := List.head?_dropWhile_not (fun t : Token => decide (t.kind ≠ .eof)) tokens.toList
  cases hdrop : tokens.toList.dropWhile fun t => t.kind ≠ .eof with
  | nil =>
    rw [hdrop, List.append_nil, hfront] at hsplit
    exact absurd hkind (kind_ne_of_mem_readable (hsplit ▸ Array.mem_toList_iff.2 hmark))
  | cons e back =>
    rw [hdrop] at hhead
    refine ⟨front, e, back, by rw [hsplit, hdrop, List.append_assoc], by simpa using hhead, ?_⟩
    have hlength := congrArg List.length hfront
    rw [List.length_append] at hlength
    simp only [Reader.before]
    omega

end Stands

namespace Read

/-! ## Looking and moving -/

section Places

variable {tokens : Array Token} {t : Token} {ts : List Token}

theorem ahead_of_getElem? {r : Reader} {i : Nat}
    (h : r.tokens[min (r.current + i) (r.tokens.size - 1)]? = some t) : ahead i r = .ok t r := by
  simp only [ahead, h]

/-- A token that is there is found; right behind the tokens stands the end mark, and a look further
    ahead still finds something. -/
theorem ahead_eq (h : Stands tokens ts) (i : Nat) :
    ∃ u, ahead i (.before tokens ts) = .ok u (.before tokens ts) ∧
      (i < ts.length → ts[i]? = some u) ∧ (i = ts.length → u.kind = .eof) := by
  obtain ⟨front, e, back, htokens, he, hplace⟩ := h.split
  have hsize : tokens.size = front.length + (ts.length + (back.length + 1)) := by
    rw [← Array.length_toList, htokens]
    simp
  have hplace' : min ((Reader.before tokens ts).current + i) (tokens.size - 1) < tokens.size := by omega
  refine ⟨_, ahead_of_getElem? (Array.getElem?_eq_getElem hplace'), fun hi => ?_, fun hi => ?_⟩
  · rw [← Array.getElem?_eq_getElem hplace', hplace, Nat.min_eq_left (by omega), ← Array.getElem?_toList,
      htokens, List.getElem?_append_right (Nat.le_add_right _ _), Nat.add_sub_cancel_left,
      List.getElem?_append_left hi]
  · have hread : tokens[min ((Reader.before tokens ts).current + i) (tokens.size - 1)]? = some e := by
      rw [hplace, Nat.min_eq_left (by omega), ← Array.getElem?_toList, htokens,
        List.getElem?_append_right (Nat.le_add_right _ _), Nat.add_sub_cancel_left, hi,
        List.getElem?_append_right (Nat.le_refl _), Nat.sub_self]
      rfl
    obtain ⟨_, hu⟩ := Array.getElem?_eq_some_iff.1 hread
    exact hu ▸ he

theorem peek_cons (h : Stands tokens (t :: ts)) :
    peek (.before tokens (t :: ts)) = .ok t (.before tokens (t :: ts)) := by
  obtain ⟨u, hread, hu, -⟩ := ahead_eq h 0
  cases hu (Nat.zero_lt_succ _)
  exact hread

theorem peek_nil (h : Stands tokens []) :
    ∃ e, e.kind = .eof ∧ peek (.before tokens []) = .ok e (.before tokens []) := by
  obtain ⟨e, hread, -, he⟩ := ahead_eq h 0
  exact ⟨e, he rfl, hread⟩

theorem peekNext_cons {u : Token} (h : Stands tokens (t :: u :: ts)) :
    peekNext (.before tokens (t :: u :: ts)) = .ok u (.before tokens (t :: u :: ts)) := by
  obtain ⟨v, hread, hv, -⟩ := ahead_eq h 1
  cases hv (Nat.succ_lt_succ (Nat.zero_lt_succ _))
  exact hread

theorem peekNext_last (h : Stands tokens [t]) :
    ∃ e, e.kind = .eof ∧ peekNext (.before tokens [t]) = .ok e (.before tokens [t]) := by
  obtain ⟨e, hread, -, he⟩ := ahead_eq h 1
  exact ⟨e, he rfl, hread⟩

/-- Behind the end mark there may be anything, but a look there stays inside. -/
theorem peekNext_nil (h : Stands tokens []) :
    ∃ u, peekNext (.before tokens []) = .ok u (.before tokens []) := by
  obtain ⟨u, hread, -⟩ := ahead_eq h 1
  exact ⟨u, hread⟩

theorem move_cons (h : Stands tokens (t :: ts)) :
    move (.before tokens (t :: ts)) = .ok () (.before tokens ts) := by
  have hlength := h.suffix.length_le
  rw [List.length_cons] at hlength
  simp only [move, Reader.before, List.length_cons]
  congr 2
  omega

end Places

/-! ## Following -/

variable {α β : Type}

/-- In front of `ts` the reader comes to this result.  What is left is an end of `ts` without its first
    `taken` tokens. -/
structure Gives (p : Read α) (ts : List Token) (taken : Nat) (result : Parsed α) : Prop where
  leaves : result.rest <:+ ts.drop taken
  reads : ∀ ⦃tokens⦄, Stands tokens ts → p (.before tokens ts) = result.before tokens

/-- In front of fewer than `n` tokens the reader does what the parser does. -/
def Follows (n taken : Nat) (p : Read α) (q : Parse α) : Prop :=
  ∀ ts, ts.length < n → Gives p ts taken (q ts)

section Rules

variable {p : Read α} {f : α → Read β} {t : Token} {ts rest : List Token} {n taken : Nat}

theorem bind_of_ok {r next : Reader} {a : α} (h : p r = .ok a next) : (p >>= f) r = f a next := by
  change Read.bind p f r = _
  simp only [Read.bind, h]

theorem bind_of_fail {r next : Reader} {e : Error} (h : p r = .fail e next) :
    (p >>= f) r = .fail e next := by
  change Read.bind p f r = _
  simp only [Read.bind, h]

theorem Gives.free {result : Parsed α} (h : Gives p ts taken result) : Gives p ts 0 result :=
  ⟨h.leaves.trans (List.drop_suffix _ _), h.reads⟩

theorem Gives.pure (a : α) (ts : List Token) : Gives (pure a) ts 0 (.ok a ts) :=
  ⟨List.suffix_rfl, fun _ _ => rfl⟩

theorem Gives.fail (e : Error) (ts : List Token) : Gives (fail e : Read α) ts 0 (.fail e ts) :=
  ⟨List.suffix_rfl, fun _ _ => rfl⟩

theorem Gives.bind_ok {a : α} {result : Parsed β} (hp : Gives p ts taken (.ok a rest))
    (hf : Gives (f a) rest 0 result) : Gives (p >>= f) ts taken result where
  leaves := hf.leaves.trans hp.leaves
  reads tokens h := by
    have hrest : Stands tokens rest := h.of_suffix (hp.leaves.trans (List.drop_suffix _ _))
    rw [bind_of_ok (hp.reads h)]
    exact hf.reads hrest

theorem Gives.bind_fail {e : Error} (hp : Gives p ts taken (.fail e rest)) :
    Gives (p >>= f) ts taken (.fail e rest) where
  leaves := hp.leaves
  reads _ h := bind_of_fail (hp.reads h)

theorem Gives.bind {q : Parse α} {g : α → Parse β} (hp : Gives p ts taken (q ts))
    (hf : ∀ a rest, rest.length ≤ ts.length → Gives (f a) rest 0 (g a rest)) :
    Gives (p >>= f) ts taken ((q >>= g) ts) := by
  cases hread : q ts with
  | ok a rest =>
    rw [hread] at hp
    have hlength : rest.length ≤ ts.length := (hp.leaves.trans (List.drop_suffix _ _)).length_le
    rw [Parse.bind_of_ok hread]
    exact hp.bind_ok (hf a rest hlength)
  | fail e rest =>
    rw [hread] at hp
    rw [Parse.bind_of_fail hread]
    exact hp.bind_fail

theorem Gives.map {result : Parsed α} (g : α → β) (h : Gives p ts taken result) :
    Gives (g <$> p) ts taken (result.map g) := by
  cases result with
  | ok a rest => exact h.bind_ok (.pure (g a) rest)
  | fail e rest => exact h.bind_fail

/-- A part that takes nothing. -/
theorem Gives.look {a : α} {result : Parsed β} (hp : Gives p ts 0 (.ok a ts))
    (hf : Gives (f a) ts taken result) : Gives (p >>= f) ts taken result where
  leaves := hf.leaves
  reads tokens h := by
    rw [bind_of_ok (hp.reads h)]
    exact hf.reads h

/-- A look that finds one of several things. -/
theorem Gives.look_some {P : α → Prop} {result : Parsed β} (hsome : ∃ a, P a)
    (hp : ∀ ⦃tokens⦄, Stands tokens ts →
      ∃ a, P a ∧ p (.before tokens ts) = .ok a (.before tokens ts))
    (hf : ∀ a, P a → Gives (f a) ts taken result) : Gives (p >>= f) ts taken result where
  leaves := by
    obtain ⟨a, ha⟩ := hsome
    exact (hf a ha).leaves
  reads tokens h := by
    obtain ⟨a, ha, hread⟩ := hp h
    rw [bind_of_ok hread]
    exact (hf a ha).reads h

theorem exists_end : ∃ e : Token, e.kind = .eof :=
  ⟨⟨.eof, "", 1, 0⟩, rfl⟩

/-- A look at the next token. -/
theorem Gives.peek {g : Token → Read β} {result : Parsed β} (h : Gives (g t) (t :: ts) taken result) :
    Gives (peek >>= g) (t :: ts) taken result :=
  look ⟨List.suffix_rfl, fun _ => peek_cons⟩ h

/-- A look at the end mark. -/
theorem Gives.peek_end {g : Token → Read β} {result : Parsed β}
    (h : ∀ e, e.kind = .eof → Gives (g e) [] taken result) :
    Gives (Read.peek >>= g) [] taken result :=
  look_some exists_end (fun _ => peek_nil) h

/-- A look behind the next token. -/
theorem Gives.peekNext {g : Token → Read β} {u : Token} {result : Parsed β}
    (h : Gives (g u) (t :: u :: ts) taken result) :
    Gives (peekNext >>= g) (t :: u :: ts) taken result :=
  look ⟨List.suffix_rfl, fun _ => peekNext_cons⟩ h

theorem Gives.peekNext_end {g : Token → Read β} {result : Parsed β}
    (h : ∀ e, e.kind = .eof → Gives (g e) [t] taken result) :
    Gives (Read.peekNext >>= g) [t] taken result :=
  look_some exists_end (fun _ => peekNext_last) h

theorem Gives.peekNext_past {g : Token → Read β} {result : Parsed β}
    (h : ∀ u, Gives (g u) [] taken result) : Gives (Read.peekNext >>= g) [] taken result :=
  look_some (P := fun _ => True) ⟨⟨.eof, "", 1, 0⟩, trivial⟩
    (fun _ hstands => (peekNext_nil hstands).imp fun _ hread => ⟨trivial, hread⟩) fun u _ => h u

theorem Gives.atEnd_cons (t : Token) (ts : List Token) :
    Gives atEnd (t :: ts) 0 (.ok false (t :: ts)) where
  leaves := List.suffix_rfl
  reads tokens hstands := by
    rw [atEnd, bind_of_ok (peek_cons hstands), decide_eq_false hstands.ne_eof]
    rfl

theorem Gives.atEnd_nil : Gives atEnd [] 0 (.ok true []) :=
  peek_end fun e he => by
    rw [he]
    exact .pure true []

theorem Gives.advance {g : Token → Read β} {result : Parsed β} (h : Gives (g t) ts 0 result) :
    Gives (advance >>= g) (t :: ts) 1 result := by
  have hmove : Gives move (t :: ts) 1 (.ok () ts) := ⟨List.suffix_rfl, fun _ => move_cons⟩
  have hread : Gives Read.advance (t :: ts) 1 (.ok t ts) :=
    peek ((atEnd_cons t ts).look (hmove.bind_ok (.pure t ts)))
  exact hread.bind_ok h

/-- An end mark is not passed. -/
theorem Gives.advance_end {g : Token → Read β} {result : Parsed β}
    (h : ∀ e, e.kind = .eof → Gives (g e) [] taken result) :
    Gives (Read.advance >>= g) [] taken result := by
  refine look_some exists_end (fun tokens hstands => ?_) h
  obtain ⟨e, he, hpeek⟩ := peek_nil hstands
  refine ⟨e, he, ?_⟩
  rw [Read.advance, bind_of_ok hpeek, bind_of_ok (atEnd_nil.reads hstands)]
  rfl

theorem Follows.free {q : Parse α} (h : Follows n taken p q) : Follows n 0 p q :=
  fun ts hlength => (h ts hlength).free

theorem Follows.mono {m : Nat} {q : Parse α} (h : Follows m taken p q) (hle : n ≤ m) :
    Follows n taken p q :=
  fun ts hlength => h ts (Nat.lt_of_lt_of_le hlength hle)

theorem Follows.bind {q : Parse α} {g : α → Parse β} (hp : Follows n taken p q)
    (hf : ∀ a, Follows n 0 (f a) (g a)) : Follows n taken (p >>= f) (q >>= g) :=
  fun ts hlength => (hp ts hlength).bind fun a rest hle => hf a rest (Nat.lt_of_le_of_lt hle hlength)

theorem Follows.length_le {q : Parse α} {a : α} (h : Follows n taken p q) (hlength : ts.length < n)
    (hread : q ts = .ok a rest) : rest.length ≤ ts.length := by
  have hleft := (h.free ts hlength).leaves
  rw [hread] at hleft
  exact hleft.length_le

theorem Follows.shortens {q : Parse α} (h : Follows n 1 p q) : Parse.Shortens n q := by
  intro t ts a rest hlength hread
  have hleft := (h (t :: ts) hlength).leaves
  rw [hread] at hleft
  exact hleft.length_le

theorem Follows.pure (a : α) : Follows n 0 (pure a) (pure a) :=
  fun ts _ => .pure a ts

theorem Follows.map {q : Parse α} (g : α → β) (h : Follows n taken p q) :
    Follows n taken (g <$> p) (g <$> q) :=
  h.bind fun a => .pure (g a)

end Rules

/-! ## Single tokens -/

section Tokens

variable {p q : Read α} {p' q' : Parse α} {k : TokenKind} {t : Token} {ts : List Token} {n taken : Nat}
  {result : Parsed α}

theorem Gives.ifCheck_of_eq (ht : t.kind = k) (h : Gives p (t :: ts) taken result) :
    Gives (ifCheck k p q) (t :: ts) taken result := by
  have hcheck : Gives (check k) (t :: ts) 0 (.ok true (t :: ts)) :=
    peek (by rw [decide_eq_true ht]; exact .pure true _)
  exact hcheck.look h

theorem Gives.ifCheck_of_ne (ht : t.kind ≠ k) (h : Gives q (t :: ts) taken result) :
    Gives (ifCheck k p q) (t :: ts) taken result := by
  have hcheck : Gives (check k) (t :: ts) 0 (.ok false (t :: ts)) :=
    peek (by rw [decide_eq_false ht]; exact .pure false _)
  exact hcheck.look h

theorem Gives.ifCheck_end (hk : .eof ≠ k) (h : Gives q [] taken result) :
    Gives (ifCheck k p q) [] taken result := by
  have hcheck : Gives (check k) [] 0 (.ok false []) :=
    peek_end fun e he => by
      rw [he, decide_eq_false hk]
      exact .pure false []
  exact hcheck.look h

theorem Gives.ifMatch_of_eq (ht : t.kind = k) (h : Gives p ts 0 result) :
    Gives (ifMatch k p q) (t :: ts) 1 result :=
  ifCheck_of_eq ht (advance h)

theorem expect_bind {g : Unit → Parse α} (ht : t.kind = k) (ts : List Token) :
    (Parse.expect k >>= g) (t :: ts) = g () ts :=
  Parse.bind_of_ok (Parse.expect_eq_ok.2 ⟨t, rfl, ht⟩)

theorem Follows.ifCheck (k : TokenKind) (hk : .eof ≠ k) (hp : Follows n taken p p')
    (hq : Follows n taken q q') :
    Follows n taken (ifCheck k p q) (Parse.ifNext k p' q') := by
  intro ts hlength
  cases ts with
  | nil => exact .ifCheck_end hk (hq [] hlength)
  | cons t ts =>
    simp only [Parse.ifNext]
    split
    next ht => exact .ifCheck_of_eq ht (hp (t :: ts) hlength)
    next ht => exact .ifCheck_of_ne ht (hq (t :: ts) hlength)

theorem Follows.ifMatch (k : TokenKind) (hk : .eof ≠ k) (hp : Follows n 0 p p')
    (hq : Follows n 0 q q') :
    Follows n 0 (ifMatch k p q) (Parse.ifNext k (do Parse.expect k; p') q') := by
  intro ts hlength
  cases ts with
  | nil => exact .ifCheck_end hk (hq [] hlength)
  | cons t ts =>
    simp only [Parse.ifNext]
    split
    next ht =>
      rw [expect_bind ht]
      exact (Gives.ifMatch_of_eq ht (hp ts (Nat.lt_of_succ_lt hlength))).free
    next ht => exact .ifCheck_of_ne ht (hq (t :: ts) hlength)

theorem unexpected_gives (expected : Expected) (ts : List Token) :
    Gives (unexpected expected : Read α) ts 0 (Parse.unexpected expected ts) := by
  cases ts with
  | nil =>
    refine .peek_end fun e he => ?_
    rw [if_pos he]
    exact .fail _ []
  | cons t ts =>
    refine ⟨List.suffix_rfl, fun tokens hstands => ?_⟩
    rw [unexpected, bind_of_ok (peek_cons hstands), if_neg hstands.ne_eof]
    rfl

theorem consume_gives (ht : t.kind = k) (ts : List Token) : Gives (consume k) (t :: ts) 1 (.ok () ts) :=
  .ifMatch_of_eq ht (.pure () ts)

theorem consume_follows (k : TokenKind) (hk : .eof ≠ k) : Follows n 0 (consume k) (Parse.expect k) := by
  intro ts _
  cases ts with
  | nil => exact .ifCheck_end hk (unexpected_gives (.token k) [])
  | cons t ts =>
    simp only [Parse.expect]
    split
    next ht => exact (consume_gives ht ts).free
    next ht => exact .ifCheck_of_ne ht (unexpected_gives (.token k) (t :: ts))

/-- A token that is there is taken. -/
theorem Gives.opened {f : Unit → Read α} {g : Unit → Parse α} (ht : t.kind = k)
    (h : Gives (f ()) ts 0 (g () ts)) :
    Gives (consume k >>= f) (t :: ts) 1 ((Parse.expect k >>= g) (t :: ts)) := by
  rw [expect_bind ht]
  exact (consume_gives ht ts).bind_ok h

theorem identifier_follows : Follows n 0 identifier Parse.identifier := by
  intro ts _
  cases ts with
  | nil =>
    refine .peek_end fun e he => ?_
    rw [he]
    exact unexpected_gives .identifier []
  | cons t ts =>
    refine .peek ?_
    simp only [Parse.identifier]
    cases ht : t.kind with
    | identifier name => exact (Gives.advance (.pure name ts)).free
    | _ => exact unexpected_gives .identifier (t :: ts)

theorem typeName_gives {type : String} (ht : Grammar.TypeName t.kind type) (ts : List Token) :
    Gives typeName (t :: ts) 1 (.ok type ts) := by
  refine .peek ?_
  generalize t.kind = k at ht
  cases ht <;> exact .advance (.pure type ts)

theorem typeName_follows : Follows n 0 typeName Parse.typeName := by
  intro ts _
  cases ts with
  | nil =>
    refine .peek_end fun e he => ?_
    rw [he]
    exact unexpected_gives .typeName []
  | cons t ts =>
    refine .peek ?_
    simp only [Parse.typeName]
    cases ht : t.kind with
    | typeName name => exact (Gives.advance (.pure name ts)).free
    | identifier name => exact (Gives.advance (.pure name ts)).free
    | _ => exact unexpected_gives .typeName (t :: ts)

end Tokens

/-! ## Repetition -/

section Loops

variable {more : TokenKind → Bool} {step : Parse α} {round : Read (Option α)} {n taken limit : Nat}
  (hround : Follows n taken round (Parse.round more step)) (hshort : Parse.Shortens n step)

include hround hshort

/-- The rounds are counted on both sides, and neither count is used up: every round but the last takes
    a token. -/
theorem loop_gives (limit : Nat) {rounds : Nat} {ts : List Token} (hlength : ts.length < n)
    (hlimit : ts.length < limit) (hrounds : ts.length ≤ rounds) :
    Gives (loop round limit) ts taken (Parse.manyUpTo more step rounds ts) := by
  induction limit generalizing rounds ts with
  | zero => exact absurd hlimit (Nat.not_lt_zero _)
  | succ limit ih =>
    have hfirst := hround ts hlength
    cases ts with
    | nil =>
      simp only [Parse.manyUpTo]
      exact hfirst.bind_ok (.pure [] [])
    | cons t ts =>
      obtain ⟨rounds, rfl⟩ := Nat.exists_eq_add_of_le' (Nat.le_trans (Nat.le_add_left 1 _) hrounds)
      by_cases ht : more t.kind = true
      · simp only [Parse.round, if_pos ht] at hfirst
        rw [Parse.manyUpTo_cons more step rounds ht]
        cases hread : step (t :: ts) with
        | ok a rest =>
          have hrest := hshort hlength hread
          rw [List.length_cons] at hlength hlimit hrounds
          have hothers : Gives (loop round limit) rest 0 (Parse.manyUpTo more step rounds rest) :=
            (ih (by omega) (by omega) (by omega)).free
          rw [hread] at hfirst
          rw [Parse.bind_of_ok hread]
          exact hfirst.bind_ok (hothers.bind fun as rest _ => .pure (a :: as) rest)
        | fail e rest =>
          rw [hread] at hfirst
          rw [Parse.bind_of_fail hread]
          exact hfirst.bind_fail
      · simp only [Parse.round, if_neg ht] at hfirst
        simp only [Parse.manyUpTo, if_neg ht]
        exact hfirst.bind_ok (.pure [] (t :: ts))

theorem loop_follows (hlimit : n ≤ limit) : Follows n taken (loop round limit) (Parse.many more step) :=
  fun _ hlength => loop_gives hround hshort limit hlength (Nat.lt_of_lt_of_le hlength hlimit)
    (Nat.le_refl _)

end Loops

theorem unlessEnd_gives {item : Read α} {item' : Parse α} {t : Token} {ts : List Token} {taken : Nat}
    (h : Gives item (t :: ts) taken (item' (t :: ts))) :
    Gives (unlessEnd item) (t :: ts) taken ((item' (t :: ts)).map some) :=
  (Gives.atEnd_cons t ts).look (h.map some)

section Lists

variable {item : Read α} {item' : Parse α} {n taken limit : Nat} (hlimit : n ≤ limit)

include hlimit

theorem commaList_follows (h : Follows n taken item item') :
    Follows n taken (commaList limit item) (Parse.commaList item') := by
  have hround : Follows n 0 (ifMatch .comma (some <$> item) (pure none))
      (Parse.round (· = .comma) (do Parse.expect .comma; item')) := by
    intro ts hlength
    cases ts with
    | nil => exact .ifCheck_end nofun (.pure none [])
    | cons t ts =>
      by_cases ht : t.kind = .comma
      · simp only [Parse.round, ht, decide_true, if_true, expect_bind ht]
        exact (Gives.ifMatch_of_eq ht ((h.free ts (Nat.lt_of_succ_lt hlength)).map some)).free
      · simp only [Parse.round, ht, decide_false, Bool.false_eq_true, if_false]
        exact .ifCheck_of_ne ht (.pure none (t :: ts))
  refine h.bind fun a => (loop_follows hround ?_ hlimit).bind fun as => .pure (a :: as)
  intro t ts a rest hlength hread
  obtain ⟨u, mid, hcomma, hitem⟩ := Parse.bind_eq_ok.1 hread
  obtain ⟨t', hmid, -⟩ := Parse.expect_eq_ok.1 hcomma
  cases hmid
  exact h.length_le (Nat.lt_of_succ_lt hlength) hitem

theorem parenList_follows (h : Follows n 0 item item') :
    Follows n 0 (parenList limit item) (Parse.parenList item') :=
  ((Follows.pure []).ifCheck .rightParen nofun (commaList_follows hlimit h)).bind fun as =>
    (consume_follows .rightParen nofun).bind fun _ => .pure as

theorem braced_opened (h : Follows n 0 item item')
    (hshort : Parse.Shortens n item') {t : Token} (ht : t.kind = .leftBrace) {ts : List Token}
    (hlength : ts.length < n) :
    Gives (braced limit item) (t :: ts) 1 (Parse.braced item' (t :: ts)) := by
  have hround : Follows n 0 (ifCheck .rightBrace (pure none) (unlessEnd item))
      (Parse.round (· ≠ .rightBrace) item') := by
    intro ts hlength
    cases ts with
    | nil => exact .ifCheck_end nofun (Gives.atEnd_nil.look (.pure none []))
    | cons t ts =>
      by_cases ht : t.kind = .rightBrace
      · simp only [Parse.round, ht, ne_eq, not_true, decide_false, Bool.false_eq_true, if_false]
        exact .ifCheck_of_eq ht (.pure none (t :: ts))
      · simp only [Parse.round, ht, ne_eq, not_false_eq_true, decide_true, if_true]
        exact .ifCheck_of_ne ht (unlessEnd_gives (h (t :: ts) hlength))
  have hclosed := (loop_follows hround hshort hlimit).bind fun as =>
    (consume_follows .rightBrace nofun).bind fun _ => .pure as
  exact .opened ht (hclosed ts hlength)

/-- The opening brace is a token more than the items have. -/
theorem braced_follows (h : Follows n 0 item item')
    (hshort : Parse.Shortens n item') :
    Follows (n + 1) 0 (braced limit item) (Parse.braced item') := by
  intro ts hlength
  have hopen := consume_follows .leftBrace nofun ts hlength
  cases hread : Parse.expect .leftBrace ts with
  | ok u rest =>
    obtain ⟨t, rfl, ht⟩ := Parse.expect_eq_ok.1 hread
    exact (braced_opened hlimit h hshort ht (Nat.lt_of_succ_lt_succ hlength)).free
  | fail e rest =>
    rw [hread] at hopen
    unfold Parse.braced
    rw [Parse.bind_of_fail hread]
    exact hopen.bind_fail

end Lists

/-! ## Operators -/

section Operators

variable {ops : List (TokenKind × β)} (hops : ops.lookup .eof = none) {n taken limit : Nat}

include hops

theorem operator_follows {f : Option β → Read α} {behind : β → Parse α} {otherwise : Parse α}
    (hbehind : ∀ op, Follows n 0 (f (some op)) (behind op))
    (hotherwise : Follows n 0 (f none) otherwise) :
    Follows n 0 (operator? ops >>= f) (Parse.operator ops behind otherwise) := by
  intro ts hlength
  cases ts with
  | nil =>
    have hnone : Gives (operator? ops) [] 0 (.ok none []) :=
      .peek_end fun e he => by
        rw [he, hops]
        exact .pure none []
    exact hnone.look (hotherwise [] hlength)
  | cons t ts =>
    simp only [Parse.operator]
    cases hop : ops.lookup t.kind with
    | some op =>
      have hsome : Gives (operator? ops) (t :: ts) 1 (.ok (some op) ts) :=
        .peek (by rw [hop]; exact .advance (.pure (some op) ts))
      exact (hsome.bind_ok (hbehind op ts (Nat.lt_of_succ_lt hlength))).free
    | none =>
      have hnone : Gives (operator? ops) (t :: ts) 0 (.ok none (t :: ts)) :=
        .peek (by rw [hop]; exact .pure none (t :: ts))
      exact hnone.look (hotherwise (t :: ts) hlength)

theorem chain_follows (hlimit : n ≤ limit) (node : β → Expr → Expr → Expr) {operand : Read Expr}
    {operand' : Parse Expr} (h : Follows n taken operand operand') :
    Follows n taken (chain limit ops node operand) (Parse.chain ops node operand') := by
  have hoperation : Follows n 0 (operation ops operand)
      (Parse.operator ops (fun op => do return some (op, ← operand')) (pure none)) :=
    operator_follows hops (fun op => h.free.bind fun e => .pure (some (op, e))) (.pure none)
  have hround : Follows n 0 (operation ops operand)
      (Parse.round (fun kind => (ops.lookup kind).isSome)
        (Parse.operator ops (fun op => do return (op, ← operand')) (Parse.unexpected .expression))) := by
    intro ts hlength
    have hfirst := hoperation ts hlength
    cases ts with
    | nil => exact hfirst
    | cons t ts =>
      rcases Option.eq_none_or_eq_some (ops.lookup t.kind) with hop | ⟨op, hop⟩
      · simp only [Parse.round, Parse.operator, hop] at hfirst ⊢
        exact hfirst
      · simp only [Parse.round, Parse.operator, hop, Option.isSome_some, if_true] at hfirst ⊢
        cases hread : operand' ts with
        | ok e rest =>
          rw [Parse.bind_of_ok hread] at hfirst ⊢
          exact hfirst
        | fail e rest =>
          rw [Parse.bind_of_fail hread] at hfirst ⊢
          exact hfirst
  refine h.bind fun e => (loop_follows hround ?_ hlimit).bind fun others => .pure _
  intro t ts a rest hlength hread
  rcases Option.eq_none_or_eq_some (ops.lookup t.kind) with hop | ⟨op, hop⟩
  · simp only [Parse.operator, hop] at hread
    exact absurd hread Parse.unexpected_ne_ok
  · simp only [Parse.operator, hop] at hread
    obtain ⟨e, mid, hoperand, hmid⟩ := Parse.bind_eq_ok.1 hread
    obtain ⟨-, rfl⟩ := Parse.pure_eq_ok.1 hmid
    exact h.length_le (Nat.lt_of_succ_lt hlength) hoperand

end Operators

/-! ## Expressions -/

section Levels

variable {n limit : Nat} (hlimit : n < limit) {nested : Read Expr} {nested' : Parse Expr}
  (h : Follows n 0 nested nested')

include hlimit h

theorem nameOrCall_follows (x : String) :
    Follows n 0 (nameOrCall limit nested x) (Parse.nameOrCall nested' x) := by
  have hcall : Follows n 0 (do return Expr.call x (← parenList limit nested))
      (do return Expr.call x (← Parse.parenList nested')) :=
    (parenList_follows (Nat.le_of_lt hlimit) h).bind fun args => .pure (Expr.call x args)
  exact hcall.ifMatch .leftParen nofun (.pure (Expr.var x))

/-- A factor takes its first token whatever it is; what is in parentheses has a token less.  Every sign
    is a token, so there are no more signs than tokens. -/
theorem factor_gives (ts : List Token) {signs : Nat} (hsigns : ts.length < signs)
    (hlength : ts.length < n + 1) :
    Gives (factor limit nested signs) ts 1 (Parse.factor nested' ts) := by
  induction ts generalizing signs with
  | nil =>
    obtain ⟨signs, rfl⟩ := Nat.exists_eq_add_of_le' (Nat.zero_lt_of_lt hsigns)
    refine .advance_end fun e he => ?_
    rw [he]
    exact ⟨List.suffix_rfl, fun _ _ => rfl⟩
  | cons t ts ih =>
    obtain ⟨signs, rfl⟩ := Nat.exists_eq_add_of_le' (Nat.zero_lt_of_lt hsigns)
    have hshort : ts.length < n := Nat.lt_of_succ_lt_succ hlength
    have hsigned := (ih (Nat.lt_of_succ_lt_succ hsigns) (Nat.lt_of_succ_lt hlength)).free
    have hparen : Follows n 0 (do let e ← nested; consume .rightParen; return e)
        (do let e ← nested'; Parse.expect .rightParen; return e) :=
      h.bind fun e => (consume_follows .rightParen nofun).bind fun _ => .pure e
    simp only [Parse.factor]
    by_cases hend : t.kind = .eof
    · rw [hend]
      exact ⟨List.suffix_rfl, fun tokens hstands => absurd hend hstands.ne_eof⟩
    refine .advance ?_
    cases ht : t.kind with
    | plus => exact hsigned.map (Expr.unary .plus)
    | minus => exact hsigned.map (Expr.unary .neg)
    | identifier x => exact nameOrCall_follows hlimit h x ts hshort
    | leftParen => exact hparen ts hshort
    | trueWord | falseWord | integer | float | string => exact .pure _ ts
    | eof => exact absurd ht hend
    | _ => exact .fail _ ts

theorem factor_follows : Follows (n + 1) 1 (factor limit nested limit) (Parse.factor nested') :=
  fun ts hlength => factor_gives hlimit h ts (Nat.lt_of_lt_of_le hlength hlimit) hlength

theorem sum_follows : Follows (n + 1) 1 (sum limit nested) (Parse.sum nested') :=
  chain_follows rfl hlimit _ (chain_follows rfl hlimit _ (factor_follows hlimit h))

theorem comparison_follows :
    Follows (n + 1) 1 (comparison limit nested) (Parse.comparison nested') := by
  have hsum := sum_follows hlimit h
  exact hsum.bind fun left => operator_follows rfl
    (fun op => hsum.free.bind fun right => .pure (Expr.cond op left right)) (.pure left)

theorem disjunction_follows :
    Follows (n + 1) 1 (disjunction limit nested) (Parse.disjunction nested') :=
  chain_follows rfl hlimit _ (chain_follows rfl hlimit _ (comparison_follows hlimit h))

end Levels

/-! ## Depth -/

section Depth

variable {limit : Nat} {p : Nat → Read α} {q : Nat → Parse α} {level : Read α → Read α}
  {level' : Parse α → Parse α} (hp : ∀ depth, p (depth + 1) = level (p depth))
  (hq : ∀ depth, q (depth + 1) = level' (q depth))
  (hlevel : ∀ {n p q}, n < limit → Follows n 1 p q → Follows (n + 1) 1 (level p) (level' q))

include hp hq hlevel

/-- Depth beyond the number of tokens is never used, on either side. -/
theorem depth_follows (n : Nat) {depth depth' : Nat} (hlimit : n ≤ limit) (h : n ≤ depth)
    (h' : n ≤ depth') : Follows n 1 (p depth) (q depth') := by
  induction n generalizing depth depth' with
  | zero => exact fun ts hlength => absurd hlength (Nat.not_lt_zero _)
  | succ n ih =>
    obtain ⟨depth, rfl⟩ := Nat.exists_eq_add_of_le' (Nat.le_trans (Nat.le_add_left 1 n) h)
    obtain ⟨depth', rfl⟩ := Nat.exists_eq_add_of_le' (Nat.le_trans (Nat.le_add_left 1 n) h')
    rw [hp, hq]
    exact hlevel hlimit (ih (Nat.le_of_lt hlimit) (Nat.le_of_succ_le_succ h)
      (Nat.le_of_succ_le_succ h'))

/-- The parser chooses its depth from the number of tokens, the reader goes down to the limit. -/
theorem deepest_follows {n : Nat} (hlimit : n ≤ limit) :
    Follows n 1 (p limit) (fun ts => q (ts.length + 1) ts) := by
  intro ts hlength
  have hle : ts.length + 1 ≤ limit := Nat.le_trans hlength hlimit
  exact depth_follows hp hq hlevel (ts.length + 1) hle hle (Nat.le_refl _) ts (Nat.lt_succ_self _)

end Depth

theorem expression_follows {n limit : Nat} (hlimit : n ≤ limit) :
    Follows n 1 (expression limit) Parse.expression :=
  deepest_follows (p := expressionAt limit) (q := Parse.expressionAt) (fun _ => rfl) (fun _ => rfl)
    (fun hn h => disjunction_follows hn h.free) hlimit

/-! ## Statements -/

section Statements

variable {n limit : Nat} (hlimit : n ≤ limit)

include hlimit

theorem expressionStmt_follows : Follows n 1 (expressionStmt limit) Parse.expressionStmt :=
  (expression_follows hlimit).bind fun e =>
    (consume_follows .semicolon nofun).bind fun _ => .pure (Stmt.expr e)

theorem assigned_follows (x : String) : Follows n 0 (assigned limit x) (Parse.assigned x) :=
  (expression_follows hlimit).free.bind fun e => (consume_follows .semicolon nofun).bind fun _ =>
    .pure (Stmt.assign x e)

theorem returned_follows : Follows n 0 (returned limit) Parse.returned :=
  ((Follows.pure none).ifCheck .semicolon nofun
      ((expression_follows hlimit).free.map some)).bind fun value =>
    (consume_follows .semicolon nofun).bind fun _ => .pure (Stmt.ret value)

/-- A declaration takes its type. -/
theorem declaration_gives {t : Token} {type : String} (ht : Grammar.TypeName t.kind type)
    {ts : List Token} (hlength : ts.length < n) :
    Gives (declaration limit) (t :: ts) 1 (Parse.declaration (t :: ts)) := by
  have hnames : Follows n 0
      (do let names ← commaList limit identifier; consume .semicolon; return Stmt.declare type names)
      (do let names ← Parse.commaList Parse.identifier; Parse.expect .semicolon
          return Stmt.declare type names) :=
    (commaList_follows hlimit identifier_follows).bind fun names =>
      (consume_follows .semicolon nofun).bind fun _ => .pure (Stmt.declare type names)
  have hread : Parse.typeName (t :: ts) = .ok type ts := Parse.typeName_eq_ok.2 ⟨t, rfl, ht⟩
  unfold Parse.declaration
  rw [Parse.bind_of_ok hread]
  exact (typeName_gives ht ts).bind_ok (hnames ts hlength)

theorem named_gives {x : String} {t : Token} (ht : t.kind = .identifier x) {ts : List Token}
    (hlength : ts.length + 1 < n) : Gives (named limit x) (t :: ts) 1 (Parse.named x (t :: ts)) := by
  have hexpression := expressionStmt_follows hlimit (t :: ts) hlength
  cases ts with
  | nil =>
    refine .peekNext_end fun e he => ?_
    rw [he]
    exact hexpression
  | cons u ts =>
    have hassigned := assigned_follows hlimit x ts (Nat.lt_of_succ_lt (Nat.lt_of_succ_lt hlength))
    have htype : Grammar.TypeName t.kind x := ht ▸ .declared
    refine .peekNext ?_
    simp only [Parse.named]
    cases u.kind with
    | identifier y => exact declaration_gives hlimit htype (Nat.lt_of_succ_lt hlength)
    | assign => exact .advance (Gives.advance hassigned).free
    | _ => exact hexpression

end Statements

section Nested

variable {n limit : Nat} (hlimit : n < limit) {stmt : Read Stmt} {stmt' : Parse Stmt}
  (h : Follows n 1 stmt stmt')

include hlimit h

theorem block_follows : Follows (n + 1) 0 (braced limit stmt) (Parse.braced stmt') :=
  braced_follows (Nat.le_of_lt hlimit) h.free h.shortens

theorem guarded_follows (node : Expr → List Stmt → Stmt) :
    Follows (n + 1) 0 (guarded limit node stmt) (Parse.guarded node stmt') :=
  (expression_follows hlimit).free.bind fun e => (block_follows hlimit h).bind fun body =>
    .pure (node e body)

theorem definition_gives {t : Token} (ht : t.kind = .defWord) {ts : List Token}
    (hlength : ts.length < n) :
    Gives (definition limit stmt) (t :: ts) 1 (Parse.definition stmt' (t :: ts)) := by
  have hbehind : Follows (n + 1) 0
      (do let name ← identifier; consume .leftParen; let params ← parenList limit identifier
          let body ← braced limit stmt; return Stmt.define name params body)
      (do let name ← Parse.identifier; Parse.expect .leftParen
          let params ← Parse.parenList Parse.identifier
          let body ← Parse.braced stmt'; return Stmt.define name params body) :=
    identifier_follows.bind fun name => (consume_follows .leftParen nofun).bind fun _ =>
      (parenList_follows hlimit identifier_follows).bind fun params =>
      (block_follows hlimit h).bind fun body => .pure (Stmt.define name params body)
  exact .opened ht (hbehind ts (Nat.lt_succ_of_lt hlength))

/-- A statement takes its first token, and inner statements have a token less. -/
theorem statementWith_follows :
    Follows (n + 1) 1 (statementWith limit stmt) (Parse.statementWith stmt') := by
  intro ts hlength
  have hexpression := expressionStmt_follows hlimit ts hlength
  cases ts with
  | nil =>
    refine .peek_end fun e he => ?_
    rw [he]
    exact hexpression
  | cons t ts =>
    have hshort : ts.length < n := Nat.lt_of_succ_lt_succ hlength
    have hbehind : ts.length < n + 1 := Nat.lt_succ_of_lt hshort
    refine .peek ?_
    simp only [Parse.statementWith]
    cases ht : t.kind with
    | leftBrace =>
      have hblock := braced_opened (Nat.le_of_lt hlimit) h.free h.shortens ht hshort
      exact hblock.map Stmt.block
    | semicolon => exact .advance (.pure Stmt.skip ts)
    | defWord => exact definition_gives hlimit h ht hshort
    | ifWord => exact .advance (guarded_follows hlimit h .when ts hbehind)
    | whileWord => exact .advance (guarded_follows hlimit h .loop ts hbehind)
    | returnWord => exact .advance (returned_follows hlimit ts hbehind)
    | typeName type =>
      have htype : Grammar.TypeName t.kind type := ht ▸ .builtin
      exact declaration_gives hlimit htype hbehind
    | identifier x => exact named_gives hlimit ht hlength
    | _ => exact hexpression

end Nested

theorem statement_follows {n limit : Nat} (hlimit : n ≤ limit) :
    Follows n 1 (statement limit) Parse.statement :=
  deepest_follows (p := statementAt limit) (q := Parse.statementAt) (fun _ => rfl) (fun _ => rfl)
    (fun hn h => statementWith_follows hn h) hlimit

/-! ## Programs -/

theorem returnType_follows {n : Nat} : Follows n 0 returnType Parse.returnType := by
  have htype : Follows n 0 (some <$> typeName) (fun ts => (Parse.typeName ts).map some) :=
    fun ts hlength => (typeName_follows ts hlength).map some
  intro ts hlength
  rcases ts with _ | ⟨t, _ | ⟨u, ts⟩⟩
  · refine .peek_end fun e he => .peekNext_past fun u => ?_
    rw [he]
    exact .pure none []
  · refine .peek (.peekNext_end fun e he => ?_)
    have hread := htype [t] hlength
    obtain ⟨kind, lexeme, line, column⟩ := t
    rw [he]
    cases kind with
    | typeName type => exact hread
    | _ => exact .pure none [_]
  · refine .peek (.peekNext ?_)
    have hread := htype (t :: u :: ts) hlength
    obtain ⟨kind, lexeme, line, column⟩ := t
    obtain ⟨kind', lexeme', line', column'⟩ := u
    cases kind with
    | typeName type => exact hread
    | identifier x =>
      cases kind' with
      | identifier y => exact hread
      | _ => exact .pure none (_ :: _ :: ts)
    | _ => exact .pure none (_ :: _ :: ts)

section Programs

variable {n limit : Nat} (hlimit : n ≤ limit)

include hlimit

theorem signature_follows : Follows n 0 (signature limit) Parse.signature :=
  returnType_follows.bind fun returns => identifier_follows.bind fun name =>
    (consume_follows .leftParen nofun).bind fun _ =>
    (parenList_follows hlimit typeName_follows).bind fun types =>
    (consume_follows .semicolon nofun).bind fun _ => .pure (⟨name, types, returns⟩ : Signature)

theorem moduleUse_follows : Follows n 0 (moduleUse limit) Parse.moduleUse := by
  have hshort : Parse.Shortens n Parse.signature := fun t ts a rest _ hread =>
    Nat.le_of_lt_succ (Parse.signature_sound.shortens Parse.signature_ne_nil hread)
  have hfunctions := braced_follows hlimit (signature_follows hlimit) hshort
  exact identifier_follows.bind fun name => (hfunctions.mono (Nat.le_succ n)).bind fun functions =>
    .pure (⟨name, functions⟩ : ModuleUse)

theorem modules_follows :
    Follows n 0 (braced limit (moduleUse limit)) (Parse.braced Parse.moduleUse) := by
  have hshort : Parse.Shortens n Parse.moduleUse := fun t ts a rest _ hread =>
    Nat.le_of_lt_succ (Parse.module_sound.shortens Parse.module_ne_nil hread)
  exact (braced_follows hlimit (moduleUse_follows hlimit) hshort).mono (Nat.le_succ n)

theorem header_gives {t : Token} (ht : t.kind = .declarationsWord) {ts : List Token}
    (hlength : ts.length < n) : Gives (header limit) (t :: ts) 1 (Parse.header (t :: ts)) := by
  have htypes : Follows n 0 (headerTypes limit)
      (do Parse.expect .colon; let names ← Parse.commaList Parse.identifier; Parse.expect .semicolon
          return names) :=
    (consume_follows .colon nofun).bind fun _ =>
      (commaList_follows hlimit identifier_follows).bind fun names =>
      (consume_follows .semicolon nofun).bind fun _ => .pure names
  have hbehind := (consume_follows .leftBrace nofun).bind fun _ =>
    (htypes.ifMatch .typesWord nofun (.pure [])).bind fun types =>
    ((modules_follows hlimit).ifMatch .modulesWord nofun (.pure [])).bind fun modules =>
    (consume_follows .rightBrace nofun).bind fun _ =>
    .pure (⟨types, modules⟩ : Header)
  exact .opened ht (hbehind ts hlength)

/-- A program takes at least one token, if there is one. -/
theorem program_follows : Follows n 1 (program limit) Parse.program := by
  have hround : Follows n 1 (unlessEnd (statement limit))
      (Parse.round (fun _ => true) Parse.statement) := by
    intro ts hlength
    cases ts with
    | nil => exact Gives.atEnd_nil.look ⟨List.suffix_rfl, fun _ _ => rfl⟩
    | cons t ts => exact unlessEnd_gives (statement_follows hlimit (t :: ts) hlength)
  have hbody (head : Option Header) : Follows n 1
      (do let body ← loop (unlessEnd (statement limit)) limit; return (⟨head, body⟩ : Program))
      (do let body ← Parse.many (fun _ => true) Parse.statement; return ⟨head, body⟩) :=
    (loop_follows hround (statement_follows hlimit).shortens hlimit).bind fun body =>
      .pure (⟨head, body⟩ : Program)
  intro ts hlength
  cases ts with
  | nil => exact Gives.look (.ifCheck_end nofun (.pure none [])) (hbody none [] hlength)
  | cons t ts =>
    by_cases ht : t.kind = .declarationsWord
    · have hsome : Gives (some <$> header limit) (t :: ts) 1 ((some <$> Parse.header) (t :: ts)) :=
        (header_gives hlimit ht (Nat.lt_of_succ_lt hlength)).bind fun head rest _ =>
          .pure (some head) rest
      have hhead : Gives (ifCheck .declarationsWord (some <$> header limit) (pure none)) (t :: ts) 1
          (Parse.ifNext .declarationsWord (some <$> Parse.header) (pure none) (t :: ts)) := by
        rw [Parse.ifNext_of_next ht]
        exact .ifCheck_of_eq ht hsome
      exact hhead.bind fun head rest hle =>
        (hbody head rest (Nat.lt_of_le_of_lt hle hlength)).free
    · have hnone : Gives (ifCheck .declarationsWord (some <$> header limit) (pure none)) (t :: ts) 0
          (.ok none (t :: ts)) := .ifCheck_of_ne ht (.pure none (t :: ts))
      unfold Parse.program
      rw [Parse.bind_of_ok (if_neg ht)]
      exact hnone.look (hbody none (t :: ts) hlength)

end Programs

end Read

end Tremolo
