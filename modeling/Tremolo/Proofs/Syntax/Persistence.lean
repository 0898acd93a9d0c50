import Tremolo.Proofs.Syntax.Programs

/-! # What is decided stays decided

A parser goes along its tokens from left to right.  What it has read when it stops depends on the
tokens taken and on the next one only, and if it refuses a token, it does so whatever follows behind
that token (`Persists`).  Parsers that are nested to some depth are compared with all deeper ones at
the same time, so that the depth, which is chosen from the length of the input, plays no part in what
is decided (`steady_of_levels`). -/

namespace Tremolo.Parse

open Grammar

variable {α β : Type}

/-- What came out of `ts` is what every `q i` makes of all inputs that agree with `ts` up to where the
    decision falls.  Nothing is said of an input that breaks off. -/
def Persists (q : Nat → Parse α) (ts : List Token) : Parsed α → Prop
  | .ok a rest => ∃ taken, ts = taken ++ rest ∧
      ∀ i rest', rest'.head? = rest.head? → q i (taken ++ rest') = .ok a rest'
  | .fail e _ => e = .unexpectedEnd ∨ ∃ front t back expected, ts = front ++ t :: back ∧
      e = .unexpectedToken t.line expected t.kind ∧
      ∀ i back', ∃ rest, q i (front ++ t :: back') = .fail e rest

/-- On fewer than `n` tokens, what `p` decides persists with every `q i`. -/
def Steady (n : Nat) (p : Parse α) (q : Nat → Parse α) : Prop :=
  ∀ ts, ts.length < n → Persists q ts (p ts)

/-! ## Rules -/

section Rules

variable {n : Nat} {ts : List Token} {t : Token} {r : Parsed α} {p : Parse α}
  {q q' : Nat → Parse α}

theorem head?_append_congr {taken rest rest' : List Token} (h : rest'.head? = rest.head?) :
    (taken ++ rest').head? = (taken ++ rest).head? := by
  cases taken with
  | nil => exact h
  | cons t taken => rfl

theorem head?_append_cons (front : List Token) (t : Token) (back back' : List Token) :
    (front ++ t :: back').head? = (front ++ t :: back).head? := by
  cases front <;> rfl

/-- It is enough to compare inputs that start with the same token. -/
theorem Persists.congr (h : Persists q ts r)
    (hq : ∀ i us, us.head? = ts.head? → q' i us = q i us) : Persists q' ts r := by
  cases r with
  | ok a rest =>
    obtain ⟨taken, rfl, hread⟩ := h
    refine ⟨taken, rfl, fun i rest' hrest => ?_⟩
    rw [hq i _ (head?_append_congr hrest)]
    exact hread i rest' hrest
  | fail e rest =>
    refine h.imp_right fun ⟨front, t, back, expected, hts, he, hfail⟩ => ?_
    refine ⟨front, t, back, expected, hts, he, fun i back' => ?_⟩
    rw [hq i _ (hts ▸ head?_append_cons front t back back')]
    exact hfail i back'

theorem Persists.behind (h : Persists q ts r) (hq : ∀ i us, q' i (t :: us) = q i us) :
    Persists q' (t :: ts) r := by
  cases r with
  | ok a rest =>
    obtain ⟨taken, rfl, hread⟩ := h
    refine ⟨t :: taken, rfl, fun i rest' hrest => ?_⟩
    rw [List.cons_append, hq]
    exact hread i rest' hrest
  | fail e rest =>
    refine h.imp_right fun ⟨front, u, back, expected, hts, he, hfail⟩ => ?_
    refine ⟨t :: front, u, back, expected, by rw [hts, List.cons_append], he, fun i back' => ?_⟩
    rw [List.cons_append, hq]
    exact hfail i back'

/-- Two tokens may be looked at if one alone is not enough to decide. -/
theorem Persists.second {u : Token} (h : Persists q (t :: u :: ts) r)
    (hend : ∃ rest, q 0 [t] = .fail .unexpectedEnd rest)
    (hq : ∀ i us, q' i (t :: u :: us) = q i (t :: u :: us)) : Persists q' (t :: u :: ts) r := by
  obtain ⟨broken, hend⟩ := hend
  cases r with
  | ok a rest =>
    obtain ⟨taken, hts, hread⟩ := h
    refine ⟨taken, hts, fun i rest' hrest => ?_⟩
    match taken with
    | [] =>
      -- Had nothing been taken, the first token alone would have been enough.
      have hone := hread 0 [t] (by rw [List.nil_append] at hts; rw [← hts]; rfl)
      rw [List.nil_append, hend] at hone
      cases hone
    | [x] =>
      obtain ⟨rfl, rfl⟩ := List.cons.inj hts
      obtain ⟨us, rfl⟩ : ∃ us, rest' = u :: us := List.head?_eq_some_iff.1 hrest
      exact (hq i us).trans (hread i (u :: us) hrest)
    | x :: y :: taken =>
      simp only [List.cons_append, List.cons.injEq] at hts
      obtain ⟨rfl, rfl, -⟩ := hts
      exact (hq i (taken ++ rest')).trans (hread i rest' hrest)
  | fail e rest =>
    refine h.imp_right fun ⟨front, v, back, expected, hts, he, hfail⟩ => ?_
    refine ⟨front, v, back, expected, hts, he, fun i back' => ?_⟩
    match front with
    | [] =>
      obtain ⟨rfl, -⟩ := List.cons.inj hts
      obtain ⟨rest, hone⟩ := hfail 0 []
      rw [List.nil_append, hend] at hone
      cases hone
      cases he
    | [x] =>
      simp only [List.cons_append, List.nil_append, List.cons.injEq] at hts
      obtain ⟨rfl, rfl, -⟩ := hts
      obtain ⟨rest, hrest⟩ := hfail i back'
      exact ⟨rest, (hq i back').trans hrest⟩
    | x :: y :: front =>
      simp only [List.cons_append, List.cons.injEq] at hts
      obtain ⟨rfl, rfl, -⟩ := hts
      obtain ⟨rest, hrest⟩ := hfail i back'
      exact ⟨rest, (hq i _).trans hrest⟩

theorem bind_of_ok {f : α → Parse β} {a : α} {rest : List Token} (h : p ts = .ok a rest) :
    (p >>= f) ts = f a rest := by
  change Parse.bind p f ts = _
  simp only [Parse.bind, h]

theorem bind_of_fail {f : α → Parse β} {e : Error} {rest : List Token} (h : p ts = .fail e rest) :
    (p >>= f) ts = .fail e rest := by
  change Parse.bind p f ts = _
  simp only [Parse.bind, h]

theorem Persists.bind {f : α → Parse β} {g : Nat → α → Parse β} (hp : Persists q ts (p ts))
    (hf : ∀ a rest, p ts = .ok a rest → Persists (fun i => g i a) rest (f a rest)) :
    Persists (fun i => q i >>= g i) ts ((p >>= f) ts) := by
  cases hread : p ts with
  | fail e rest =>
    rw [bind_of_fail hread]
    rw [hread] at hp
    refine hp.imp_right fun ⟨front, t, back, expected, hts, he, hfail⟩ => ?_
    refine ⟨front, t, back, expected, hts, he, fun i back' => ?_⟩
    obtain ⟨rest', hrest⟩ := hfail i back'
    exact ⟨rest', bind_of_fail hrest⟩
  | ok a mid =>
    rw [bind_of_ok hread]
    have hafter := hf a mid hread
    rw [hread] at hp
    obtain ⟨taken, rfl, hfirst⟩ := hp
    -- The second parser starts with the same token in all the inputs to be compared.
    cases hrest : f a mid with
    | ok b rest =>
      rw [hrest] at hafter
      obtain ⟨taken', rfl, hsecond⟩ := hafter
      refine ⟨taken ++ taken', by rw [List.append_assoc], fun i rest' hhead => ?_⟩
      rw [List.append_assoc]
      exact (bind_of_ok (hfirst i _ (head?_append_congr hhead))).trans (hsecond i rest' hhead)
    | fail e rest =>
      rw [hrest] at hafter
      refine hafter.imp_right fun ⟨front, t, back, expected, hmid, he, hfail⟩ => ?_
      refine ⟨taken ++ front, t, back, expected, by rw [hmid, List.append_assoc], he, ?_⟩
      intro i back'
      obtain ⟨rest', hrest'⟩ := hfail i back'
      rw [List.append_assoc]
      have hhead : (front ++ t :: back').head? = mid.head? := by
        rw [hmid]
        exact head?_append_cons front t back back'
      exact ⟨rest', (bind_of_ok (hfirst i _ hhead)).trans hrest'⟩

theorem Steady.bind {f : α → Parse β} {g : Nat → α → Parse β} (hp : Steady n p q)
    (hf : ∀ a, Steady n (f a) (fun i => g i a)) :
    Steady n (p >>= f) (fun i => q i >>= g i) := by
  intro ts hlength
  have hfirst := hp ts hlength
  refine hfirst.bind fun a rest hread => hf a rest ?_
  rw [hread] at hfirst
  obtain ⟨taken, rfl, -⟩ := hfirst
  rw [List.length_append] at hlength
  omega

theorem Steady.mono {m : Nat} (h : Steady m p q) (hle : n ≤ m) : Steady n p q :=
  fun ts hlength => h ts (Nat.lt_of_lt_of_le hlength hle)

theorem Persists.map (f : α → β) (h : Persists q ts r) :
    Persists (fun i us => (q i us).map f) ts (r.map f) := by
  cases r with
  | ok a rest =>
    obtain ⟨taken, hts, hread⟩ := h
    exact ⟨taken, hts, fun i rest' hrest => map_eq_ok.2 ⟨a, hread i rest' hrest, rfl⟩⟩
  | fail e rest =>
    refine h.imp_right fun ⟨front, t, back, expected, hts, he, hfail⟩ => ?_
    refine ⟨front, t, back, expected, hts, he, fun i back' => ?_⟩
    obtain ⟨rest', hrest⟩ := hfail i back'
    exact ⟨rest', congrArg (Parsed.map f) hrest⟩

theorem pure_persists (a : α) (ts : List Token) :
    Persists (fun _ => pure a) ts ((pure a : Parse α) ts) :=
  ⟨[], rfl, fun _ _ _ => rfl⟩

theorem pure_steady (a : α) : Steady n (pure a) (fun _ => pure a) :=
  fun ts _ => pure_persists a ts

/-- A token that is refused at once is refused whatever follows. -/
theorem persists_refused {e : Error} {expected : Expected} {rest : List Token}
    (he : e = .unexpectedToken t.line expected t.kind)
    (hq : ∀ i us, ∃ rest, q i (t :: us) = .fail e rest) : Persists q (t :: ts) (.fail e rest) :=
  .inr ⟨[], t, ts, expected, rfl, he, hq⟩

theorem unexpected_steady (expected : Expected) :
    Steady n (unexpected expected : Parse α) (fun _ => unexpected expected) := by
  intro ts _
  cases ts with
  | nil => exact .inl rfl
  | cons t ts => exact persists_refused rfl fun _ us => ⟨t :: us, rfl⟩

theorem expect_steady (k : TokenKind) : Steady n (expect k) (fun _ => expect k) := by
  intro ts _
  cases ts with
  | nil => exact .inl rfl
  | cons t ts =>
    simp only [expect]
    split
    next hk => exact (pure_persists () ts).behind fun _ us => by simp only [expect, hk, if_true]; rfl
    next hk =>
      exact persists_refused rfl fun _ us => ⟨t :: us, by simp only [expect, hk, if_false]; rfl⟩

theorem identifier_steady : Steady n identifier (fun _ => identifier) := by
  intro ts _
  cases ts with
  | nil => exact .inl rfl
  | cons t ts =>
    simp only [identifier]
    split
    next x hk =>
      exact (pure_persists x ts).behind fun _ us => by simp only [identifier, hk]; rfl
    next hk =>
      refine persists_refused rfl fun _ us => ⟨t :: us, ?_⟩
      simp only [identifier]
      rfl

theorem typeName_steady : Steady n typeName (fun _ => typeName) := by
  intro ts _
  cases ts with
  | nil => exact .inl rfl
  | cons t ts =>
    simp only [typeName]
    split
    next x hk => exact (pure_persists x ts).behind fun _ us => by simp only [typeName, hk]; rfl
    next x hk => exact (pure_persists x ts).behind fun _ us => by simp only [typeName, hk]; rfl
    next hname hident =>
      refine persists_refused rfl fun _ us => ⟨t :: us, ?_⟩
      simp only [typeName]
      rfl

theorem Steady.ifNext {k : TokenKind} {p₁ p₂ : Parse α} {q₁ q₂ : Nat → Parse α}
    (h₁ : Steady n p₁ q₁) (h₂ : Steady n p₂ q₂) :
    Steady n (ifNext k p₁ p₂) (fun i => ifNext k (q₁ i) (q₂ i)) := by
  intro ts hlength
  rw [ifNext_eq]
  have hsame : ∀ us : List Token, us.head? = ts.head? → (kinds us).head? = (kinds ts).head? := by
    intro us hus
    simp only [kinds, List.head?_map, hus]
  split
  next hk =>
    refine (h₁ ts hlength).congr fun i us hus => ?_
    rw [ifNext_eq, hsame us hus, if_pos hk]
  next hk =>
    refine (h₂ ts hlength).congr fun i us hus => ?_
    rw [ifNext_eq, hsame us hus, if_neg hk]

end Rules

/-! ## Repetition -/

/-- A limit that is no less than the number of tokens is never felt. -/
theorem manyUpTo_eq {more : TokenKind → Bool} {step : Parse α}
    (hstep : ∀ ⦃ts a rest⦄, step ts = .ok a rest → rest.length < ts.length) (limit limit' : Nat)
    (ts : List Token) (h : ts.length ≤ limit) (h' : ts.length ≤ limit') :
    manyUpTo more step limit ts = manyUpTo more step limit' ts := by
  induction limit generalizing limit' ts with
  | zero =>
    obtain rfl : ts = [] := List.eq_nil_of_length_eq_zero (Nat.le_zero.1 h)
    rw [manyUpTo, manyUpTo]
  | succ limit ih =>
    cases ts with
    | nil => rw [manyUpTo, manyUpTo]
    | cons t ts =>
      cases limit' with
      | zero => simp at h'
      | succ limit' =>
        simp only [manyUpTo]
        split
        next =>
          split
          next a rest hread =>
            have hshort := hstep hread
            simp only [List.length_cons] at h h' hshort
            rw [ih limit' rest (by omega) (by omega)]
          next => rfl
        next => rfl

theorem manyUpTo_cons (more : TokenKind → Bool) (step : Parse α) (limit : Nat) {t : Token}
    (ht : more t.kind = true) (ts : List Token) :
    manyUpTo more step (limit + 1) (t :: ts) =
      (do let a ← step; let as ← manyUpTo more step limit; return a :: as : Parse (List α))
        (t :: ts) := by
  simp only [manyUpTo, ht, if_true]
  split
  next a rest hread =>
    rw [bind_of_ok hread]
    cases hrest : manyUpTo more step limit rest with
    | ok as rest' =>
      rw [bind_of_ok hrest]
      rfl
    | fail e rest' =>
      rw [bind_of_fail hrest]
      rfl
  next e rest hread => exact (bind_of_fail hread).symm

/-- One round of a loop: a step and the loop again. -/
theorem many_cons {more : TokenKind → Bool} {step : Parse α}
    (hstep : ∀ ⦃ts a rest⦄, step ts = .ok a rest → rest.length < ts.length) {t : Token}
    (ht : more t.kind = true) (ts : List Token) :
    many more step (t :: ts) =
      (do let a ← step; let as ← many more step; return a :: as : Parse (List α)) (t :: ts) := by
  have hround : many more step (t :: ts) = _ := manyUpTo_cons more step ts.length ht ts
  rw [hround]
  cases hread : step (t :: ts) with
  | fail e rest => rw [bind_of_fail hread, bind_of_fail hread]
  | ok a rest =>
    have hshort := hstep hread
    rw [List.length_cons] at hshort
    have hlimit : manyUpTo more step ts.length rest = many more step rest :=
      manyUpTo_eq hstep ts.length rest.length rest (by omega) (Nat.le_refl _)
    rw [bind_of_ok hread, bind_of_ok hread]
    change Parse.bind _ _ rest = Parse.bind _ _ rest
    simp only [Parse.bind, hlimit]

theorem Sound.shortens {p : Parse α} {R : List TokenKind → α → Prop} (h : Sound p R)
    (hR : ∀ ks a, R ks a → ks ≠ []) ⦃ts : List Token⦄ ⦃a : α⦄ ⦃rest : List Token⦄
    (hread : p ts = .ok a rest) : rest.length < ts.length := by
  obtain ⟨front, rfl, ha⟩ := h hread
  cases front with
  | nil => exact absurd rfl (hR _ _ ha)
  | cons t front =>
    simp only [List.cons_append, List.length_cons, List.length_append]
    omega

section Lists

variable {n : Nat} {item : Parse α} {item' : Nat → Parse α} {R : List TokenKind → α → Prop}
  (hitem : Steady n item item') (hsound : Sound item R) (hsound' : ∀ i, Sound (item' i) R)

include hitem hsound hsound'

theorem many_steady (more : TokenKind → Bool) (hR : ∀ ks a, R ks a → ks ≠ []) :
    Steady n (many more item) (fun i => many more (item' i)) := by
  intro ts hlength
  -- Each round leaves fewer tokens.
  induction hts : ts.length using Nat.strongRecOn generalizing ts with
  | ind length ih =>
    cases ts with
    | nil =>
      refine ⟨[], rfl, fun i rest' hrest => ?_⟩
      obtain rfl : rest' = [] := List.head?_eq_none_iff.1 hrest
      rfl
    | cons t ts =>
      by_cases ht : more t.kind = true
      · rw [many_cons (hsound.shortens hR) ht]
        have hround := (hitem (t :: ts) hlength).bind
          (f := fun a => do let as ← many more item; return a :: as)
          (g := fun i a => do let as ← many more (item' i); return a :: as) fun a rest hread => by
            have hshort := hsound.shortens hR hread
            exact (ih rest.length (hts ▸ hshort) rest (Nat.lt_trans hshort hlength) rfl).bind
              fun as rest' _ => pure_persists (a :: as) rest'
        refine hround.congr fun i us hus => ?_
        obtain ⟨us, rfl⟩ := List.head?_eq_some_iff.1 hus
        exact many_cons ((hsound' i).shortens hR) ht us
      · have hstop (step : Parse α) (us : List Token) :
            many more step (t :: us) = (pure [] : Parse (List α)) (t :: us) := by
          simp only [many, List.length_cons, manyUpTo, ht]
          rfl
        rw [hstop]
        refine (pure_persists [] (t :: ts)).congr fun i us hus => ?_
        obtain ⟨us, rfl⟩ := List.head?_eq_some_iff.1 hus
        exact hstop (item' i) us

theorem commaList_steady : Steady n (commaList item) (fun i => commaList (item' i)) := by
  have hbehind : Steady n (do expect .comma; item) (fun i => do expect .comma; item' i) :=
    (expect_steady .comma).bind fun _ => hitem
  have hothers := many_steady hbehind (behind_sound .comma hsound)
    (fun i => behind_sound .comma (hsound' i)) (· = .comma) Behind.ne_nil
  exact hitem.bind fun a => hothers.bind fun as => pure_steady (a :: as)

theorem parenList_steady : Steady n (parenList item) (fun i => parenList (item' i)) :=
  ((pure_steady []).ifNext (commaList_steady hitem hsound hsound')).bind fun as =>
    (expect_steady .rightParen).bind fun _ => pure_steady as

/-- The opening brace is a token more than the items have. -/
theorem braced_steady (hR : ∀ ks a, R ks a → ks ≠ []) :
    Steady (n + 1) (braced item) (fun i => braced (item' i)) := by
  intro ts hlength
  have hitems := many_steady hitem hsound hsound' (· ≠ .rightBrace) hR
  refine (expect_steady .leftBrace ts hlength).bind fun _ rest hread => ?_
  obtain ⟨t, rfl, -⟩ := expect_eq_ok.1 hread
  refine (hitems.bind fun as => (expect_steady .rightBrace).bind fun _ => pure_steady as) rest ?_
  exact Nat.lt_of_succ_lt_succ hlength

end Lists

/-! ## Operators -/

section Operators

variable {n : Nat} {ops : List (TokenKind × β)}

theorem operator_steady {behind : β → Parse α} {behind' : Nat → β → Parse α} {otherwise : Parse α}
    {otherwise' : Nat → Parse α} (hbehind : ∀ op, Steady n (behind op) (fun i => behind' i op))
    (hotherwise : Steady n otherwise otherwise') :
    Steady n (operator ops behind otherwise) (fun i => operator ops (behind' i) (otherwise' i)) := by
  intro ts hlength
  cases ts with
  | nil =>
    refine (hotherwise [] hlength).congr fun i us hus => ?_
    obtain rfl : us = [] := List.head?_eq_none_iff.1 hus
    rfl
  | cons t ts =>
    simp only [operator]
    split
    next op hop =>
      refine (hbehind op ts (Nat.lt_of_succ_lt hlength)).behind fun i us => ?_
      simp only [operator, hop]
    next hop =>
      refine (hotherwise (t :: ts) hlength).congr fun i us hus => ?_
      obtain ⟨us, rfl⟩ := List.head?_eq_some_iff.1 hus
      simp only [operator, hop]

theorem chain_steady {Op : TokenKind → β → Prop} {node : β → Expr → Expr → Expr}
    {operand : Parse Expr} {operand' : Nat → Parse Expr} {R : List TokenKind → Expr → Prop}
    (hops : ∀ k op, ops.lookup k = some op ↔ Op k op) (hoperand : Steady n operand operand')
    (hsound : Sound operand R) (hsound' : ∀ i, Sound (operand' i) R) :
    Steady n (chain ops node operand) (fun i => chain ops node (operand' i)) := by
  have hoperation : Steady n
      (operator ops (fun op => do return (op, ← operand)) (unexpected .expression))
      (fun i => operator ops (fun op => do return (op, ← operand' i)) (unexpected .expression)) :=
    operator_steady (fun op => hoperand.bind fun e => pure_steady (op, e))
      (unexpected_steady .expression)
  have hothers := many_steady hoperation (operation_sound hops hsound)
    (fun i => operation_sound hops (hsound' i)) (fun kind => (ops.lookup kind).isSome)
    Operation.ne_nil
  exact hoperand.bind fun e => hothers.bind fun others => pure_steady _

end Operators

/-! ## Expressions -/

section Levels

variable {n : Nat} {nested : Parse Expr} {nested' : Nat → Parse Expr}
  (hnested : Steady n nested nested') (hsound : Sound nested Disjunction)
  (hsound' : ∀ i, Sound (nested' i) Disjunction)

include hnested hsound hsound'

theorem nameOrCall_steady (x : String) :
    Steady n (nameOrCall nested x) (fun i => nameOrCall (nested' i) x) := by
  have hcall := (expect_steady .leftParen).bind fun _ =>
    (parenList_steady hnested hsound hsound').bind fun args => pure_steady (Expr.call x args)
  exact hcall.ifNext (pure_steady (Expr.var x))

/-- Whatever is in parentheses has a token less than the factor. -/
theorem factor_steady : Steady (n + 1) (factor nested) (fun i => factor (nested' i)) := by
  intro ts
  induction ts with
  | nil => exact fun _ => .inl rfl
  | cons t ts ih =>
    intro hlength
    have hshort : ts.length < n := Nat.lt_of_succ_lt_succ hlength
    simp only [factor]
    split
    next hk =>
      exact ((ih (Nat.lt_of_succ_lt hlength)).map _).behind fun i us => by simp only [factor, hk]
    next hk =>
      exact ((ih (Nat.lt_of_succ_lt hlength)).map _).behind fun i us => by simp only [factor, hk]
    next hk => exact (pure_persists _ ts).behind fun i us => by simp only [factor, hk]; rfl
    next hk => exact (pure_persists _ ts).behind fun i us => by simp only [factor, hk]; rfl
    next hk =>
      have hparen := hnested.bind fun e => (expect_steady .rightParen).bind fun _ => pure_steady e
      exact (hparen ts hshort).behind fun i us => by simp only [factor, hk]
    next hk => exact (pure_persists _ ts).behind fun i us => by simp only [factor, hk]; rfl
    next hk => exact (pure_persists _ ts).behind fun i us => by simp only [factor, hk]; rfl
    next hk => exact (pure_persists _ ts).behind fun i us => by simp only [factor, hk]; rfl
    next x hk =>
      exact (nameOrCall_steady hnested hsound hsound' x ts hshort).behind fun i us => by
        simp only [factor, hk]
    next => exact persists_refused rfl fun i us => ⟨us, by simp only [factor]⟩

theorem term_steady : Steady (n + 1) (term nested) (fun i => term (nested' i)) :=
  chain_steady lookup_termOps (factor_steady hnested hsound hsound') (factor_sound hsound)
    fun i => factor_sound (hsound' i)

theorem sum_steady : Steady (n + 1) (sum nested) (fun i => sum (nested' i)) :=
  chain_steady lookup_sumOps (term_steady hnested hsound hsound') (term_sound hsound)
    fun i => term_sound (hsound' i)

theorem comparison_steady : Steady (n + 1) (comparison nested) (fun i => comparison (nested' i)) := by
  have hsum := sum_steady hnested hsound hsound'
  exact hsum.bind fun left => operator_steady
    (fun op => hsum.bind fun right => pure_steady (Expr.cond op left right)) (pure_steady left)

theorem conjunction_steady :
    Steady (n + 1) (conjunction nested) (fun i => conjunction (nested' i)) :=
  chain_steady (lookup_connective _ _) (comparison_steady hnested hsound hsound')
    (comparison_sound hsound) fun i => comparison_sound (hsound' i)

theorem disjunction_steady :
    Steady (n + 1) (disjunction nested) (fun i => disjunction (nested' i)) :=
  chain_steady (lookup_connective _ _) (conjunction_steady hnested hsound hsound')
    (conjunction_sound hsound) fun i => conjunction_sound (hsound' i)

end Levels

theorem expressionAt_steady (n : Nat) {depth : Nat} (h : n ≤ depth) :
    Steady n (expressionAt depth) (fun i => expressionAt (i + n)) := by
  induction n generalizing depth with
  | zero => exact fun ts hlength => absurd hlength (Nat.not_lt_zero _)
  | succ n ih =>
    cases depth with
    | zero => omega
    | succ depth =>
      exact disjunction_steady (ih (Nat.le_of_succ_le_succ h)) (expressionAt_sound depth)
        fun i => expressionAt_sound (i + n)

/-- Parsers whose depth is chosen from the length of the input are steady, if those of each depth are
    on inputs that are not too long for it. -/
theorem steady_of_levels {q : Nat → Parse α}
    (hq : ∀ n depth, n ≤ depth → Steady n (q depth) (fun i => q (i + n))) (n : Nat) :
    Steady n (fun ts => q (ts.length + 1) ts) (fun _ ts => q (ts.length + 1) ts) := by
  intro ts _
  have hts := hq (ts.length + 1) (ts.length + 1) (Nat.le_refl _) ts (Nat.lt_succ_self _)
  -- Another input is read at a depth that is enough for both, and then at its own.
  have hdeep (us : List Token) := hq (us.length + 1) (us.length + (ts.length + 1)) (by omega) us
    (Nat.lt_succ_self _)
  change Persists _ ts (q (ts.length + 1) ts)
  cases hread : q (ts.length + 1) ts with
  | ok a rest =>
    rw [hread] at hts
    obtain ⟨taken, rfl, hsame⟩ := hts
    refine ⟨taken, rfl, fun _ rest' hrest => ?_⟩
    have hus := hdeep (taken ++ rest')
    rw [show q _ (taken ++ rest') = .ok a rest' from hsame _ rest' hrest] at hus
    obtain ⟨taken', htaken, hown⟩ := hus
    have hresult : q (0 + ((taken ++ rest').length + 1)) (taken' ++ rest') = .ok a rest' :=
      hown 0 rest' rfl
    rwa [← htaken, Nat.zero_add] at hresult
  | fail e rest =>
    rw [hread] at hts
    refine hts.imp_right fun ⟨front, t, back, expected, hsplit, he, hsame⟩ => ?_
    refine ⟨front, t, back, expected, hsplit, he, fun _ back' => ?_⟩
    obtain ⟨rest', hrest⟩ := hsame (front ++ t :: back').length back'
    have hus := hdeep (front ++ t :: back')
    rw [show q _ (front ++ t :: back') = .fail e rest' from hrest] at hus
    obtain hend | ⟨front', t', back₀, _, hsplit', -, hown⟩ := hus
    · rw [he] at hend
      cases hend
    · obtain ⟨rest'', hrest''⟩ := hown 0 back₀
      have hresult : q (0 + ((front ++ t :: back').length + 1)) (front' ++ t' :: back₀) =
          .fail e rest'' := hrest''
      rw [← hsplit', Nat.zero_add] at hresult
      exact ⟨rest'', hresult⟩

theorem expression_steady (n : Nat) : Steady n expression (fun _ => expression) :=
  steady_of_levels (fun n _ h => expressionAt_steady n h) n

end Tremolo.Parse
