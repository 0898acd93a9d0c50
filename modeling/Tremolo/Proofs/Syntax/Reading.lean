import Tremolo.Proofs.Syntax.Grammar
import Tremolo.Syntax.Parser.Expr

/-! # Parsers that read what a grammar writes

A parser is *sound* for a relation between token kinds and results if whatever it reads is so related
to its result.  It is *complete* if it reads everything that is so related and stops right behind it,
unless a token follows that could belong to it.  Both are closed under the ways in which parsers are
put together. -/

namespace Tremolo

open Grammar

/-- The kinds of tokens. -/
def kinds (ts : List Token) : List TokenKind :=
  ts.map Token.kind

@[simp] theorem kinds_nil : kinds [] = [] :=
  rfl

@[simp] theorem kinds_cons (t : Token) (ts : List Token) : kinds (t :: ts) = t.kind :: kinds ts :=
  rfl

@[simp] theorem kinds_append (ts us : List Token) : kinds (ts ++ us) = kinds ts ++ kinds us :=
  List.map_append

theorem kinds_eq_cons {ts : List Token} {k : TokenKind} {ks : List TokenKind}
    (h : kinds ts = k :: ks) : ∃ t us, ts = t :: us ∧ t.kind = k ∧ kinds us = ks :=
  List.map_eq_cons_iff.1 h

theorem kinds_eq_append {ts : List Token} {ks ks' : List TokenKind} (h : kinds ts = ks ++ ks') :
    ∃ us vs, ts = us ++ vs ∧ kinds us = ks ∧ kinds vs = ks' :=
  List.map_eq_append_iff.1 h

theorem kinds_eq_nil {ts : List Token} (h : kinds ts = []) : ts = [] :=
  List.map_eq_nil_iff.1 h

theorem kinds_eq_concat {ts : List Token} {ks : List TokenKind} {k : TokenKind}
    (h : kinds ts = ks ++ [k]) : ∃ us t, ts = us ++ [t] ∧ kinds us = ks ∧ t.kind = k := by
  obtain ⟨us, last, rfl, hus, hlast⟩ := kinds_eq_append h
  obtain ⟨t, more, rfl, ht, hmore⟩ := kinds_eq_cons hlast
  obtain rfl := kinds_eq_nil hmore
  exact ⟨us, t, rfl, hus, ht⟩

namespace Parse

variable {α β : Type}

/-! ## Results of single steps -/

theorem bind_eq_ok {p : Parse α} {f : α → Parse β} {ts : List Token} {b : β} {rest : List Token} :
    (p >>= f) ts = .ok b rest ↔ ∃ a mid, p ts = .ok a mid ∧ f a mid = .ok b rest := by
  change Parse.bind p f ts = .ok b rest ↔ _
  unfold Parse.bind
  constructor
  · intro h
    split at h
    next a mid ha => exact ⟨a, mid, ha, h⟩
    next => cases h
  · rintro ⟨a, mid, ha, hb⟩
    rw [ha]
    exact hb

theorem pure_eq_ok {a b : α} {ts rest : List Token} :
    (pure a : Parse α) ts = .ok b rest ↔ a = b ∧ ts = rest := by
  change Parsed.ok a ts = .ok b rest ↔ _
  simp

theorem map_eq_ok {f : α → β} {r : Parsed α} {b : β} {rest : List Token} :
    r.map f = .ok b rest ↔ ∃ a, r = .ok a rest ∧ f a = b := by
  constructor
  · intro h
    cases r with
    | ok a mid =>
      cases h
      exact ⟨a, rfl, rfl⟩
    | fail e mid => cases h
  · rintro ⟨a, rfl, rfl⟩
    rfl

theorem fmap_eq_ok {f : α → β} {p : Parse α} {ts : List Token} {b : β} {rest : List Token} :
    (f <$> p) ts = .ok b rest ↔ ∃ a, p ts = .ok a rest ∧ f a = b := by
  change (p >>= fun a => pure (f a)) ts = .ok b rest ↔ _
  simp only [bind_eq_ok, pure_eq_ok]
  constructor
  · rintro ⟨a, mid, ha, hb, rfl⟩
    exact ⟨a, ha, hb⟩
  · rintro ⟨a, ha, hb⟩
    exact ⟨a, rest, ha, hb, rfl⟩

theorem unexpected_ne_ok {expected : Expected} {ts : List Token} {a : α} {rest : List Token} :
    (unexpected expected : Parse α) ts ≠ .ok a rest := by
  cases ts <;> simp [unexpected]

theorem expect_eq_ok {k : TokenKind} {ts rest : List Token} {u : Unit} :
    expect k ts = .ok u rest ↔ ∃ t, ts = t :: rest ∧ t.kind = k := by
  constructor
  · intro h
    cases ts with
    | nil => cases h
    | cons t ts =>
      simp only [expect] at h
      split at h
      next hk =>
        cases h
        exact ⟨t, rfl, hk⟩
      next => cases h
  · rintro ⟨t, rfl, rfl⟩
    simp [expect]

theorem identifier_eq_ok {ts rest : List Token} {x : String} :
    identifier ts = .ok x rest ↔ ∃ t, ts = t :: rest ∧ t.kind = .identifier x := by
  constructor
  · intro h
    cases ts with
    | nil => cases h
    | cons t ts =>
      simp only [identifier] at h
      split at h
      next name hname =>
        cases h
        exact ⟨t, rfl, hname⟩
      next => cases h
  · rintro ⟨t, rfl, ht⟩
    simp [identifier, ht]

theorem typeName_eq_ok {ts rest : List Token} {x : String} :
    typeName ts = .ok x rest ↔ ∃ t, ts = t :: rest ∧ TypeName t.kind x := by
  constructor
  · intro h
    cases ts with
    | nil => cases h
    | cons t ts =>
      simp only [typeName] at h
      split at h
      next name hname =>
        cases h
        exact ⟨t, rfl, hname ▸ .builtin⟩
      next name hname =>
        cases h
        exact ⟨t, rfl, hname ▸ .declared⟩
      next => cases h
  · rintro ⟨t, rfl, ht⟩
    generalize hk : t.kind = k at ht
    cases ht <;> simp [typeName, hk]

theorem ifNext_eq (k : TokenKind) (p q : Parse α) (ts : List Token) :
    ifNext k p q ts = if (kinds ts).head? = some k then p ts else q ts := by
  cases ts with
  | nil => rfl
  | cons t ts => simp [ifNext]

/-! ## Sound and complete parsers -/

/-- Whatever is read is written like that. -/
def Sound (p : Parse α) (R : List TokenKind → α → Prop) : Prop :=
  ∀ ⦃ts a rest⦄, p ts = .ok a rest → ∃ front, ts = front ++ rest ∧ R (kinds front) a

/-- The next token, if there is one, is none of these. -/
def Stops (stop : TokenKind → Prop) (rest : List Token) : Prop :=
  ∀ k ∈ (kinds rest).head?, ¬stop k

/-- Whatever is written like that with fewer than `n` tokens is read, unless one of the tokens `stop`
    follows. -/
def Complete (n : Nat) (p : Parse α) (R : List TokenKind → α → Prop) (stop : TokenKind → Prop) : Prop :=
  ∀ ⦃front a rest⦄, front.length < n → R (kinds front) a → Stops stop rest →
    p (front ++ rest) = .ok a rest

variable {n : Nat} {p : Parse α} {R : List TokenKind → α → Prop} {stop stop' : TokenKind → Prop}
  {rest : List Token}

theorem Sound.mono {S : List TokenKind → α → Prop} (h : Sound p R) (hR : ∀ ks a, R ks a → S ks a) :
    Sound p S := by
  intro ts a rest hread
  obtain ⟨front, hfront, ha⟩ := h hread
  exact ⟨front, hfront, hR _ _ ha⟩

theorem Stops.mono (h : Stops stop rest) (hstop : ∀ k, stop' k → stop k) : Stops stop' rest :=
  fun k hk hk' => h k hk (hstop k hk')

theorem Stops.cons {t : Token} (h : ¬stop t.kind) : Stops stop (t :: rest) := by
  rintro k ⟨⟩
  exact h

theorem Complete.mono {S : List TokenKind → α → Prop} (h : Complete n p R stop)
    (hR : ∀ ks a, S ks a → R ks a) (hstop : ∀ k, stop k → stop' k) : Complete n p S stop' :=
  fun _ _ _ hlength ha hrest => h hlength (hR _ _ ha) (hrest.mono hstop)

/-- In a longer list the first token decides, if there is one. -/
theorem Stops.append {front : List Token} (hrest : Stops stop rest)
    (hfront : ∀ k ks, kinds front = k :: ks → ¬stop k) : Stops stop (front ++ rest) := by
  cases front with
  | nil => exact hrest
  | cons t front => exact .cons (hfront t.kind (kinds front) rfl)

theorem Stops.none (rest : List Token) : Stops (fun _ => False) rest :=
  fun _ _ h => h

/-! ## Optional parts -/

theorem ifNext_of_next {k : TokenKind} {p q : Parse α} {t : Token} (ht : t.kind = k)
    (ts : List Token) : ifNext k p q (t :: ts) = p (t :: ts) :=
  if_pos ht

theorem ifNext_of_stops {k : TokenKind} {p q : Parse α} (h : Stops (· = k) rest) :
    ifNext k p q rest = q rest := by
  rw [ifNext_eq]
  exact if_neg fun hk => h k hk rfl

/-- A part that is there if its first token is. -/
theorem optional_sound {k : TokenKind} {none : α} (hp : Sound p R) (hnone : R [] none) :
    Sound (ifNext k p (pure none)) R := by
  intro ts a rest h
  rw [ifNext_eq] at h
  split at h
  · exact hp h
  · obtain ⟨rfl, rfl⟩ := pure_eq_ok.1 h
    exact ⟨[], rfl, hnone⟩

theorem optional_complete {k : TokenKind} {none : α}
    (hR : ∀ ks a, R ks a → ks = [] ∧ a = none ∨ ∃ ks', ks = k :: ks')
    (hp : ∀ {front a rest}, front ≠ [] → R (kinds front) a → p (front ++ rest) = .ok a rest) :
    Complete n (ifNext k p (pure none)) R (· = k) := by
  intro front a rest _ ha hrest
  rcases hR _ _ ha with ⟨hks, rfl⟩ | ⟨ks, hks⟩
  · obtain rfl := kinds_eq_nil hks
    exact ifNext_of_stops hrest
  · obtain ⟨t, front, rfl, ht, -⟩ := kinds_eq_cons hks
    rw [List.cons_append, ifNext_of_next ht]
    exact hp (List.cons_ne_nil t front) ha

/-! ## Repetition -/

section Repetition

variable {more : TokenKind → Bool} {step : Parse α}

theorem manyUpTo_sound (hstep : Sound step R) (hR : ∀ ks a, R ks a → ks ≠ []) (limit : Nat)
    {ts : List Token} {as : List α} (hlimit : ts.length ≤ limit)
    (h : manyUpTo more step limit ts = .ok as rest) :
    (∃ front, ts = front ++ rest ∧ Repeated R (kinds front) as) ∧ Stops (more ·) rest := by
  induction limit generalizing ts as with
  | zero =>
    obtain rfl : ts = [] := List.eq_nil_of_length_eq_zero (Nat.le_zero.1 hlimit)
    cases h
    exact ⟨⟨[], rfl, .nil⟩, by rintro k ⟨⟩⟩
  | succ limit ih =>
    cases ts with
    | nil =>
      cases h
      exact ⟨⟨[], rfl, .nil⟩, by rintro k ⟨⟩⟩
    | cons t ts =>
      simp only [manyUpTo] at h
      split at h
      next hmore =>
        split at h
        next a mid hread =>
          obtain ⟨as', hrest, rfl⟩ := map_eq_ok.1 h
          obtain ⟨front, hfront, ha⟩ := hstep hread
          -- The step has taken a token, so what is left fits the smaller limit.
          have hpos : 0 < front.length := by
            cases front with
            | nil => exact absurd rfl (hR _ _ ha)
            | cons _ _ => simp
          have hmid : mid.length ≤ limit := by
            have hlength := congrArg List.length hfront
            simp only [List.length_cons, List.length_append] at hlength hlimit
            omega
          obtain ⟨⟨front', rfl, hs⟩, hstops⟩ := ih hmid hrest
          refine ⟨⟨front ++ front', by rw [hfront, List.append_assoc], ?_⟩, hstops⟩
          rw [kinds_append]
          exact .cons ha hs
        next => cases h
      next hmore =>
        cases h
        exact ⟨⟨[], rfl, .nil⟩, .cons hmore⟩

theorem many_sound (hstep : Sound step R) (hR : ∀ ks a, R ks a → ks ≠ []) :
    Sound (many more step) (Repeated R) :=
  fun ts _ _ h => (manyUpTo_sound hstep hR ts.length (Nat.le_refl _) h).1

theorem manyUpTo_complete (hstep : Complete n step R stop)
    (hR : ∀ ks a, R ks a → ∃ k ks', ks = k :: ks' ∧ more k = true ∧ ¬stop k)
    {ks : List TokenKind} {as : List α} (h : Repeated R ks as) (limit : Nat) {front : List Token}
    (hks : kinds front = ks) (hlength : front.length < n) (hlimit : front.length ≤ limit)
    (hrest : Stops (fun k => stop k ∨ more k = true) rest) :
    manyUpTo more step limit (front ++ rest) = .ok as rest := by
  -- The induction is on the items written; each of them uses up one of the steps allowed.
  induction h generalizing limit front with
  | nil =>
    obtain rfl := kinds_eq_nil hks
    cases rest with
    | nil => simp [manyUpTo]
    | cons t rest =>
      have hmore : ¬more t.kind = true := fun ht => hrest t.kind rfl (.inr ht)
      cases limit with
      | zero => simp [manyUpTo]
      | succ limit => simp [manyUpTo, hmore]
  | @cons ks a ks' as ha hs ih =>
    obtain ⟨first, others, rfl, rfl, rfl⟩ := kinds_eq_append hks
    obtain ⟨k, more', hfirst, hk, -⟩ := hR _ _ ha
    obtain ⟨t, first, rfl, rfl, -⟩ := kinds_eq_cons hfirst
    simp only [List.cons_append, List.append_assoc, List.length_cons, List.length_append] at *
    cases limit with
    | zero => omega
    | succ limit =>
      have hnext : Stops stop (others ++ rest) := by
        refine .append (hrest.mono fun _ => .inl) fun k ks hk => ?_
        exact (hs.head hR hk).2
      have hread : step (t :: (first ++ (others ++ rest))) = .ok a (others ++ rest) :=
        hstep (show (t :: first).length < n by rw [List.length_cons]; omega) ha hnext
      simp only [manyUpTo, hk, if_true, hread]
      rw [ih limit rfl (by omega) (by omega)]
      rfl

theorem many_complete (hstep : Complete n step R stop)
    (hR : ∀ ks a, R ks a → ∃ k ks', ks = k :: ks' ∧ more k = true ∧ ¬stop k) :
    Complete n (many more step) (Repeated R) (fun k => stop k ∨ more k = true) := by
  intro front as rest hlength h hrest
  exact manyUpTo_complete hstep hR h _ rfl hlength (by simp) hrest

end Repetition

/-! ## Lists of items -/

section Lists

variable {item : Parse α}

theorem behind_sound (k : TokenKind) (hitem : Sound item R) :
    Sound (do expect k; item) (Behind k R) := by
  intro ts a rest h
  simp only [bind_eq_ok, expect_eq_ok] at h
  obtain ⟨-, mid, ⟨t, rfl, rfl⟩, hread⟩ := h
  obtain ⟨front, rfl, ha⟩ := hitem hread
  exact ⟨t :: front, rfl, .mk ha⟩

theorem behind_complete (k : TokenKind) (hitem : Complete n item R stop) :
    Complete n (do expect k; item) (Behind k R) stop := by
  intro front a rest hlength h hrest
  generalize hks : kinds front = ks at h
  obtain ⟨ha⟩ := h
  obtain ⟨t, front, rfl, ht, rfl⟩ := kinds_eq_cons hks
  have hread := hitem (Nat.lt_of_succ_lt hlength) ha hrest
  exact bind_eq_ok.2 ⟨(), front ++ rest, expect_eq_ok.2 ⟨t, rfl, ht⟩, hread⟩

theorem commaList_sound (hitem : Sound item R) : Sound (commaList item) (Listed R) := by
  intro ts as rest h
  simp only [commaList, bind_eq_ok, pure_eq_ok] at h
  obtain ⟨a, mid, hfirst, others, _, hmany, rfl, rfl⟩ := h
  obtain ⟨front, rfl, ha⟩ := hitem hfirst
  obtain ⟨front', rfl, hothers⟩ :=
    many_sound (behind_sound .comma hitem) Behind.ne_nil hmany
  refine ⟨front ++ front', by simp, ?_⟩
  rw [kinds_append]
  exact .mk ha hothers

theorem commaList_complete (hitem : Complete n item R stop) (hcomma : ¬stop .comma) :
    Complete n (commaList item) (Listed R) (fun k => stop k ∨ k = .comma) := by
  intro front as rest hlength h hrest
  generalize hks : kinds front = ks at h
  obtain @⟨_, a, _, others, ha, hothers⟩ := h
  obtain ⟨front, front', rfl, rfl, rfl⟩ := kinds_eq_append hks
  rw [List.length_append] at hlength
  -- The first item is followed by a comma or by what follows the list.
  have hnext : Stops stop (front' ++ rest) := by
    refine .append (hrest.mono fun _ => .inl) fun k ks hk => ?_
    exact hothers.head (P := fun k => ¬stop k) (by rintro _ _ ⟨⟩; exact ⟨_, _, rfl, hcomma⟩) hk
  have hfirst : item (front ++ (front' ++ rest)) = .ok a (front' ++ rest) :=
    hitem (by omega) ha hnext
  have hmany : many (fun k => k = .comma) (do expect .comma; item) (front' ++ rest) =
      .ok others rest := by
    refine many_complete (behind_complete .comma hitem) ?_ (by omega) hothers ?_
    · rintro _ _ ⟨⟩
      exact ⟨_, _, rfl, by simp, hcomma⟩
    · exact hrest.mono fun k => .imp_right of_decide_eq_true
  rw [List.append_assoc]
  exact bind_eq_ok.2 ⟨a, _, hfirst, bind_eq_ok.2 ⟨others, rest, hmany, rfl⟩⟩

/-- Items up to the closing parenthesis. -/
inductive Enclosed (R : List TokenKind → α → Prop) : List TokenKind → List α → Prop
  | empty : Enclosed R [.rightParen] []
  | items {ks as} : Listed R ks as → Enclosed R (ks ++ [.rightParen]) as

theorem parenList_sound (hitem : Sound item R) : Sound (parenList item) (Enclosed R) := by
  intro ts as rest h
  simp only [parenList, bind_eq_ok, expect_eq_ok, pure_eq_ok, ifNext_eq] at h
  obtain ⟨items, _, hread, -, _, ⟨t, rfl, ht⟩, rfl, rfl⟩ := h
  split at hread
  · obtain ⟨rfl, rfl⟩ := pure_eq_ok.1 hread
    exact ⟨[t], rfl, by simpa [ht] using Enclosed.empty⟩
  · obtain ⟨front, rfl, hitems⟩ := commaList_sound hitem hread
    exact ⟨front ++ [t], by simp, by simpa [ht] using Enclosed.items hitems⟩

theorem parenList_complete (hitem : Complete n item R stop) (hcomma : ¬stop .comma)
    (hparen : ¬stop .rightParen) (hR : ∀ ks a, R ks a → ∃ k ks', ks = k :: ks' ∧ k ≠ .rightParen) :
    Complete n (parenList item) (Enclosed R) (fun _ => False) := by
  intro front as rest hlength h _
  generalize hks : kinds front = ks at h
  cases h with
  | empty =>
    obtain ⟨t, front, rfl, ht, hfront⟩ := kinds_eq_cons hks
    obtain rfl := kinds_eq_nil hfront
    refine bind_eq_ok.2 ⟨[], t :: rest, ?_, bind_eq_ok.2 ⟨(), rest, ?_, rfl⟩⟩
    · exact ifNext_of_next ht rest
    · exact expect_eq_ok.2 ⟨t, rfl, ht⟩
  | items hitems =>
    obtain ⟨front, t, rfl, rfl, ht⟩ := kinds_eq_concat hks
    rw [List.length_append] at hlength
    -- An item does not start with the closing parenthesis, so the list is not taken for empty.
    have hopen : Stops (· = .rightParen) (front ++ t :: rest) := by
      generalize hfront : kinds front = ks at hitems
      obtain ⟨ha, -⟩ := hitems
      obtain ⟨k, _, rfl, hne⟩ := hR _ _ ha
      obtain ⟨u, front, rfl, rfl, -⟩ := kinds_eq_cons hfront
      exact .cons hne
    have hread : commaList item (front ++ t :: rest) = .ok as (t :: rest) := by
      refine commaList_complete hitem hcomma (by omega) hitems (.cons ?_)
      rw [ht]
      rintro (hstop | ⟨⟨⟩⟩)
      exact hparen hstop
    rw [List.append_assoc]
    refine bind_eq_ok.2 ⟨as, t :: rest, ?_, bind_eq_ok.2 ⟨(), rest, ?_, rfl⟩⟩
    · exact (ifNext_of_stops hopen).trans hread
    · exact expect_eq_ok.2 ⟨t, rfl, ht⟩

/-- Items between braces. -/
inductive Braced (R : List TokenKind → α → Prop) : List TokenKind → List α → Prop
  | mk {ks as} : Repeated R ks as → Braced R (.leftBrace :: ks ++ [.rightBrace]) as

theorem braced_sound (hitem : Sound item R) (hR : ∀ ks a, R ks a → ks ≠ []) :
    Sound (braced item) (Braced R) := by
  intro ts as rest h
  simp only [braced, bind_eq_ok, expect_eq_ok, pure_eq_ok] at h
  obtain ⟨-, _, ⟨t, rfl, ht⟩, items, _, hread, -, _, ⟨u, rfl, hu⟩, rfl, rfl⟩ := h
  obtain ⟨front, rfl, hitems⟩ := many_sound hitem hR hread
  exact ⟨t :: front ++ [u], by simp, by simpa [ht, hu] using Braced.mk hitems⟩

theorem braced_complete (hitem : Complete n item R fun _ => False)
    (hR : ∀ ks a, R ks a → ∃ k ks', ks = k :: ks' ∧ k ≠ .rightBrace) :
    Complete (n + 1) (braced item) (Braced R) (fun _ => False) := by
  intro front as rest hlength h _
  generalize hks : kinds front = ks at h
  obtain ⟨hitems⟩ := h
  obtain ⟨t, front, rfl, ht, hks⟩ := kinds_eq_cons hks
  obtain ⟨front, u, rfl, rfl, hu⟩ := kinds_eq_concat hks
  simp only [List.length_cons, List.length_append] at hlength
  have hread : many (fun k => k ≠ .rightBrace) item (front ++ u :: rest) = .ok as (u :: rest) := by
    refine many_complete hitem ?_ (by omega) hitems (.cons (by simp [hu]))
    intro ks a ha
    obtain ⟨k, ks', rfl, hk⟩ := hR ks a ha
    exact ⟨k, ks', rfl, by simp [hk], id⟩
  rw [List.cons_append, List.append_assoc]
  refine bind_eq_ok.2 ⟨(), front ++ u :: rest, expect_eq_ok.2 ⟨t, rfl, ht⟩, ?_⟩
  exact bind_eq_ok.2 ⟨as, u :: rest, hread, bind_eq_ok.2 ⟨(), rest, expect_eq_ok.2 ⟨u, rfl, hu⟩, rfl⟩⟩

end Lists

/-! ## Chains of operators -/

section Chains

variable {ops : List (TokenKind × β)} {Op : TokenKind → β → Prop} {R : List TokenKind → Expr → Prop}
  {operand : Parse Expr} (hops : ∀ k op, ops.lookup k = some op ↔ Op k op)

theorem operator_eq_ok {behind : β → Parse α} {otherwise : Parse α} {ts : List Token} {a : α} :
    operator ops behind otherwise ts = .ok a rest ↔
      (∃ t us op, ts = t :: us ∧ ops.lookup t.kind = some op ∧ behind op us = .ok a rest) ∨
      (∀ k ∈ (kinds ts).head?, ops.lookup k = none) ∧ otherwise ts = .ok a rest := by
  constructor
  · intro h
    cases ts with
    | nil => exact .inr ⟨by rintro _ ⟨⟩, h⟩
    | cons t us =>
      simp only [operator] at h
      split at h
      next op hop => exact .inl ⟨t, us, op, rfl, hop, h⟩
      next hop => exact .inr ⟨by rintro _ ⟨⟩; exact hop, h⟩
  · rintro (⟨t, us, op, rfl, hop, h⟩ | ⟨hnone, h⟩)
    · simp only [operator, hop]
      exact h
    · cases ts with
      | nil => exact h
      | cons t us =>
        simp only [operator, hnone t.kind rfl]
        exact h

include hops

theorem operation_sound (hoperand : Sound operand R) :
    Sound (operator ops (fun op => do return (op, ← operand)) (unexpected .expression))
      (Operation Op R) := by
  intro ts a rest h
  simp only [operator_eq_ok, bind_eq_ok, pure_eq_ok] at h
  rcases h with ⟨t, us, op, rfl, hop, e, mid, hread, rfl, rfl⟩ | ⟨-, h⟩
  · obtain ⟨front, rfl, he⟩ := hoperand hread
    exact ⟨t :: front, rfl, .mk ((hops _ _).1 hop) he⟩
  · exact absurd h unexpected_ne_ok

theorem operation_complete (hoperand : Complete n operand R stop) :
    Complete n (operator ops (fun op => do return (op, ← operand)) (unexpected .expression))
      (Operation Op R) stop := by
  intro front a rest hlength h hrest
  generalize hks : kinds front = ks at h
  obtain @⟨_, op, _, e, hop, he⟩ := h
  obtain ⟨t, front, rfl, rfl, rfl⟩ := kinds_eq_cons hks
  have hread := hoperand (Nat.lt_of_succ_lt hlength) he hrest
  refine operator_eq_ok.2 (.inl ⟨t, front ++ rest, op, rfl, (hops _ _).2 hop, ?_⟩)
  exact bind_eq_ok.2 ⟨e, rest, hread, rfl⟩

variable {node : β → Expr → Expr → Expr}

theorem chain_sound (hoperand : Sound operand R) :
    Sound (chain ops node operand) (Chained Op node R) := by
  intro ts e rest h
  simp only [chain, bind_eq_ok, pure_eq_ok] at h
  obtain ⟨first, mid, hfirst, others, _, hmany, rfl, rfl⟩ := h
  obtain ⟨front, rfl, he⟩ := hoperand hfirst
  obtain ⟨front', rfl, hothers⟩ :=
    many_sound (operation_sound hops hoperand) Operation.ne_nil hmany
  refine ⟨front ++ front', by simp, ?_⟩
  rw [kinds_append]
  exact .mk he hothers

/-- Operators of a chain must not be taken for parts of its operands. -/
theorem chain_complete (hoperand : Complete n operand R stop) (hstop : ∀ k op, Op k op → ¬stop k) :
    Complete n (chain ops node operand) (Chained Op node R) (fun k => stop k ∨ ∃ op, Op k op) := by
  intro front e rest hlength h hrest
  generalize hks : kinds front = ks at h
  obtain @⟨_, first, _, others, he, hothers⟩ := h
  obtain ⟨front, front', rfl, rfl, rfl⟩ := kinds_eq_append hks
  rw [List.length_append] at hlength
  have hnext : Stops stop (front' ++ rest) := by
    refine .append (hrest.mono fun _ => .inl) fun k ks hk => ?_
    refine hothers.head (P := fun k => ¬stop k) ?_ hk
    rintro _ _ ⟨hop, -⟩
    exact ⟨_, _, rfl, hstop _ _ hop⟩
  have hfirst : operand (front ++ (front' ++ rest)) = .ok first (front' ++ rest) :=
    hoperand (by omega) he hnext
  have hmany : many (fun kind => (ops.lookup kind).isSome)
      (operator ops (fun op => do return (op, ← operand)) (unexpected .expression)) (front' ++ rest) =
      .ok others rest := by
    refine many_complete (operation_complete hops hoperand) ?_ (by omega) hothers (hrest.mono ?_)
    · rintro _ _ ⟨hop, -⟩
      exact ⟨_, _, rfl, by rw [(hops _ _).2 hop]; rfl, hstop _ _ hop⟩
    · rintro k (hk | hk)
      · exact .inl hk
      · obtain ⟨op, hop⟩ := Option.isSome_iff_exists.1 hk
        exact .inr ⟨op, (hops _ _).1 hop⟩
  rw [List.append_assoc]
  exact bind_eq_ok.2 ⟨first, _, hfirst, bind_eq_ok.2 ⟨others, rest, hmany, rfl⟩⟩

end Chains

end Parse

end Tremolo
