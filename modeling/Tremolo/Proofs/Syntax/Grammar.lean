import Tremolo.Syntax.Grammar

/-! # The shape of the grammar

Three patterns account for all repetition in the grammar: items one behind the other (`Repeated`), items
between commas (`Listed`) and operands between operators of one level (`Chained`).  Each recursive rule
is shown to be one of them.  `Opening` says how an expression can start, which is what a reader that
looks one or two tokens ahead relies on. -/

namespace Tremolo.Grammar

variable {α β : Type} {R : List TokenKind → α → Prop}

/-! ## Repetition -/

/-- Items one behind the other. -/
inductive Repeated (R : List TokenKind → α → Prop) : List TokenKind → List α → Prop
  | nil : Repeated R [] []
  | cons {ks a ks' as} : R ks a → Repeated R ks' as → Repeated R (ks ++ ks') (a :: as)

theorem Repeated.append {ks ks' : List TokenKind} {as bs : List α} (h : Repeated R ks as)
    (h' : Repeated R ks' bs) : Repeated R (ks ++ ks') (as ++ bs) := by
  induction h with
  | nil => exact h'
  | cons ha _ ih =>
    rw [List.append_assoc]
    exact .cons ha ih

/-- The first token of the first item. -/
theorem Repeated.head {P : TokenKind → Prop} (hR : ∀ ks a, R ks a → ∃ k ks', ks = k :: ks' ∧ P k)
    {ks : List TokenKind} {as : List α} (h : Repeated R ks as) {k : TokenKind}
    {ks' : List TokenKind} (hk : ks = k :: ks') : P k := by
  cases h with
  | nil => cases hk
  | cons ha _ =>
    obtain ⟨k₀, ks₀, rfl, hk₀⟩ := hR _ _ ha
    cases hk
    exact hk₀

/-- An item behind a token of a given kind. -/
inductive Behind (k : TokenKind) (R : List TokenKind → α → Prop) : List TokenKind → α → Prop
  | mk {ks a} : R ks a → Behind k R (k :: ks) a

theorem Behind.ne_nil {k : TokenKind} {R : List TokenKind → α → Prop} :
    ∀ ks a, Behind k R ks a → ks ≠ [] := by
  rintro _ _ ⟨⟩
  simp

/-- One item or more, with commas between them. -/
inductive Listed (R : List TokenKind → α → Prop) : List TokenKind → List α → Prop
  | mk {ks a ks' as} : R ks a → Repeated (Behind .comma R) ks' as → Listed R (ks ++ ks') (a :: as)

theorem Listed.one {ks : List TokenKind} {a : α} (h : R ks a) : Listed R ks [a] := by
  have hlist := Listed.mk h .nil
  rwa [List.append_nil] at hlist

theorem Listed.more {ks ks' : List TokenKind} {a : α} {as : List α} (h : R ks a)
    (h' : Listed R ks' as) : Listed R (ks ++ .comma :: ks') (a :: as) := by
  cases h' with
  | mk hb hrest => exact .mk h (.cons (.mk hb) hrest)

/-- What holds of one item and survives another one in front holds of all lists. -/
theorem Listed.recurse {L : List TokenKind → List α → Prop} {ks : List TokenKind} {as : List α}
    (h : Listed R ks as) (one : ∀ {ks a}, R ks a → L ks [a])
    (more : ∀ {ks a ks' as}, R ks a → L ks' as → L (ks ++ .comma :: ks') (a :: as)) : L ks as := by
  obtain ⟨ha, hrest⟩ := h
  -- The first item is put in front of a list that is known already, so the induction is on the rest.
  rename_i ks a ks' as
  induction hrest generalizing ks a with
  | nil =>
    rw [List.append_nil]
    exact one ha
  | cons hb _ ih =>
    obtain ⟨hb⟩ := hb
    exact more ha (ih hb)

/-! ## Chains of operators -/

/-- An operator and its right operand. -/
inductive Operation (Op : TokenKind → β → Prop) (R : List TokenKind → Expr → Prop) :
    List TokenKind → β × Expr → Prop
  | mk {k op ks e} : Op k op → R ks e → Operation Op R (k :: ks) (op, e)

theorem Operation.ne_nil {Op : TokenKind → β → Prop} {R : List TokenKind → Expr → Prop} :
    ∀ ks a, Operation Op R ks a → ks ≠ [] := by
  rintro _ _ ⟨⟩
  simp

/-- Operands with operators between them, grouped to the left. -/
inductive Chained (Op : TokenKind → β → Prop) (node : β → Expr → Expr → Expr)
    (R : List TokenKind → Expr → Prop) : List TokenKind → Expr → Prop
  | mk {ks e ks' others} : R ks e → Repeated (Operation Op R) ks' others →
      Chained Op node R (ks ++ ks') (others.foldl (fun l (op, r) => node op l r) e)

section Chained

variable {Op : TokenKind → β → Prop} {node : β → Expr → Expr → Expr}
  {R : List TokenKind → Expr → Prop} {ks ks' : List TokenKind} {l r e : Expr}

theorem Chained.one (h : R ks e) : Chained Op node R ks e := by
  have hchain : Chained Op node R (ks ++ []) e := .mk h .nil
  rwa [List.append_nil] at hchain

theorem Chained.more {k : TokenKind} {op : β} (h : Chained Op node R ks l) (hop : Op k op)
    (hr : R ks' r) : Chained Op node R (ks ++ k :: ks') (node op l r) := by
  obtain ⟨he, hothers⟩ := h
  have hlast : Repeated (Operation Op R) (k :: ks') [(op, r)] := by
    have hcons := Repeated.cons (Operation.mk hop hr) Repeated.nil
    rwa [List.append_nil] at hcons
  rw [List.append_assoc]
  have hchain : Chained Op node R _ _ := .mk he (hothers.append hlast)
  rwa [List.foldl_append] at hchain

/-- What holds of one operand and survives another one behind holds of all chains. -/
theorem Chained.recurse {T : List TokenKind → Expr → Prop} (h : Chained Op node R ks e)
    (one : ∀ {ks e}, R ks e → T ks e)
    (more : ∀ {ks l k op ks' r}, T ks l → Op k op → R ks' r → T (ks ++ k :: ks') (node op l r)) :
    T ks e := by
  have hfold : ∀ {ks' others}, Repeated (Operation Op R) ks' others → ∀ {ks l}, T ks l →
      T (ks ++ ks') (others.foldl (fun l (op, r) => node op l r) l) := by
    intro ks' others hothers
    induction hothers with
    | nil =>
      intro ks l hl
      rwa [List.append_nil]
    | cons hfirst _ ih =>
      intro ks l hl
      obtain ⟨hop, hr⟩ := hfirst
      rw [← List.append_assoc]
      exact ih (more hl hop hr)
  obtain ⟨he, hothers⟩ := h
  exact hfold hothers (one he)

end Chained

/-! ## The recursive rules -/

theorem names_iff {ks : List TokenKind} {xs : List String} :
    Names ks xs ↔ Listed (fun ks x => ks = [.identifier x]) ks xs := by
  constructor
  · intro h
    induction h with
    | one => exact .one rfl
    | @more x _ _ _ ih => exact @Listed.more _ _ [.identifier x] _ x _ rfl ih
  · intro h
    exact h.recurse (fun hx => hx ▸ .one) fun hx ih => by rw [hx]; exact .more ih

theorem typeNames_iff {ks : List TokenKind} {ts : List String} :
    TypeNames ks ts ↔ Listed (fun ks t => ∃ k, ks = [k] ∧ TypeName k t) ks ts := by
  constructor
  · intro h
    induction h with
    | one h => exact .one ⟨_, rfl, h⟩
    | @more k x _ _ h _ ih => exact @Listed.more _ _ [k] _ x _ ⟨k, rfl, h⟩ ih
  · intro h
    refine h.recurse ?_ ?_
    · rintro _ t ⟨k, rfl, h⟩
      exact .one h
    · rintro _ t ks' ts ⟨k, rfl, h⟩ ih
      exact .more h ih

theorem Arguments.listed {ks : List TokenKind} {es : List Expr} :
    Arguments ks es → Listed Disjunction ks es
  | .one h => .one h
  | .more h hs => .more h hs.listed

theorem Term.chained {ks : List TokenKind} {e : Expr} : Term ks e → Chained TermOp .binary Factor ks e
  | .factor h => .one h
  | .chain h hop hr => h.chained.more hop hr

theorem Sum.chained {ks : List TokenKind} {e : Expr} : Sum ks e → Chained SumOp .binary Term ks e
  | .term h => .one h
  | .chain h hop hr => h.chained.more hop hr

/-- A connective as an operator of its own level. -/
inductive Connective (word : TokenKind) (op : CondOp) : TokenKind → CondOp → Prop
  | mk : Connective word op word op

theorem Conjunction.chained {ks : List TokenKind} {e : Expr} :
    Conjunction ks e → Chained (Connective .andWord .and) .cond Comparison ks e
  | .comparison h => .one h
  | .chain h hr => h.chained.more .mk hr

theorem Disjunction.chained {ks : List TokenKind} {e : Expr} :
    Disjunction ks e → Chained (Connective .orWord .or) .cond Conjunction ks e
  | .conjunction h => .one h
  | .chain h hr => h.chained.more .mk hr

theorem Statements.repeated {ks : List TokenKind} {ss : List Stmt} :
    Statements ks ss → Repeated Statement ks ss
  | .nil => .nil
  | .cons h hs => .cons h hs.repeated

theorem Repeated.statements {ks : List TokenKind} {ss : List Stmt} (h : Repeated Statement ks ss) :
    Statements ks ss := by
  induction h with
  | nil => exact .nil
  | cons h _ ih => exact .cons h ih

theorem signatures_iff {ks : List TokenKind} {fs : List Tremolo.Signature} :
    Signatures ks fs ↔ Repeated Signature ks fs := by
  constructor
  · intro h
    induction h with
    | nil => exact .nil
    | cons h _ ih => exact .cons h ih
  · intro h
    induction h with
    | nil => exact .nil
    | cons h _ ih => exact .cons h ih

/-- One module of a header. -/
inductive Module : List TokenKind → ModuleUse → Prop
  | mk {m ks fs} : Repeated Signature ks fs →
      Module (.identifier m :: .leftBrace :: ks ++ [.rightBrace]) ⟨m, fs⟩

theorem modules_iff {ks : List TokenKind} {ms : List ModuleUse} :
    Modules ks ms ↔ Repeated Module ks ms := by
  constructor
  · intro h
    induction h with
    | nil => exact .nil
    | @cons m _ _ _ _ hfs _ ih =>
      have hcons := Repeated.cons (Module.mk (m := m) (signatures_iff.1 hfs)) ih
      simpa using hcons
  · intro h
    induction h with
    | nil => exact .nil
    | cons hm _ ih =>
      obtain @⟨m, _, _, hfs⟩ := hm
      have hcons := Modules.cons (m := m) (signatures_iff.2 hfs) ih
      simpa using hcons

/-! ## How expressions start -/

/-- The tokens that can start an expression. -/
def opens : TokenKind → Bool
  | .plus | .minus | .integer _ | .float _ | .string _ | .trueWord | .falseWord | .identifier _
  | .leftParen => true
  | _ => false

/-- The tokens start as an expression does, and behind a leading name comes a token that `follow`
    admits. -/
def Opening (follow : TokenKind → Prop) (ks : List TokenKind) : Prop :=
  ∃ k ks', ks = k :: ks' ∧ opens k ∧ ∀ x, k = .identifier x → ∀ k' ∈ ks'.head?, follow k'

theorem Factor.opening {ks : List TokenKind} {e : Expr} (h : Factor ks e) :
    Opening (· = .leftParen) ks := by
  cases h with
  | sign hsign _ => cases hsign <;> exact ⟨_, _, rfl, rfl, by simp⟩
  | int | float | string | true | false | paren => exact ⟨_, _, rfl, rfl, by simp⟩
  | var | call | callArgs => exact ⟨_, _, rfl, rfl, by simp⟩

theorem Opening.mono {follow follow' : TokenKind → Prop} {ks : List TokenKind}
    (h : Opening follow ks) (hmono : ∀ k, follow k → follow' k) : Opening follow' ks := by
  obtain ⟨k, ks', rfl, hk, hnext⟩ := h
  exact ⟨k, ks', rfl, hk, fun x hx k' hk' => hmono k' (hnext x hx k' hk')⟩

/-- The tokens of a first operand go on with an operator. -/
theorem Opening.append {follow follow' : TokenKind → Prop} {ks ks' : List TokenKind}
    (h : Opening follow ks) (h' : ∀ k ∈ ks'.head?, follow' k) :
    Opening (fun k => follow k ∨ follow' k) (ks ++ ks') := by
  obtain ⟨k, more, rfl, hk, hnext⟩ := h
  refine ⟨k, more ++ ks', rfl, hk, fun x hx k' hk' => ?_⟩
  cases more with
  | nil => exact .inr (h' k' hk')
  | cons _ _ => exact .inl (hnext x hx k' hk')

theorem Chained.opening {Op : TokenKind → β → Prop} {node : β → Expr → Expr → Expr}
    {R : List TokenKind → Expr → Prop} {follow : TokenKind → Prop}
    (hR : ∀ ks e, R ks e → Opening follow ks) {ks : List TokenKind} {e : Expr}
    (h : Chained Op node R ks e) : Opening (fun k => follow k ∨ ∃ op, Op k op) ks := by
  obtain ⟨he, hothers⟩ := h
  refine (hR _ _ he).append fun k hk => ?_
  cases hothers with
  | nil => cases hk
  | cons hfirst _ =>
    obtain ⟨hop, -⟩ := hfirst
    cases hk
    exact ⟨_, hop⟩

end Tremolo.Grammar
