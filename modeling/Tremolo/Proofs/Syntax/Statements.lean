import Tremolo.Proofs.Syntax.Expressions
import Tremolo.Syntax.Parser.Stmt

/-! # Statements are read as the grammar writes them

A statement ends with its own semicolon or brace, so a reader need not look behind it; but it has to
look at two tokens to tell declarations, assignments and expressions apart. -/

namespace Tremolo.Parse

open Grammar

/-! ## Names -/

theorem identifier_sound : Sound identifier (fun ks x => ks = [.identifier x]) := by
  intro ts x rest h
  obtain ⟨t, rfl, ht⟩ := identifier_eq_ok.1 h
  exact ⟨[t], rfl, by simp [ht]⟩

theorem identifier_complete (n : Nat) :
    Complete n identifier (fun ks x => ks = [.identifier x]) (fun _ => False) := by
  intro front x rest _ h _
  obtain ⟨t, front, rfl, ht, hfront⟩ := kinds_eq_cons h
  obtain rfl := kinds_eq_nil hfront
  exact identifier_eq_ok.2 ⟨t, rfl, ht⟩

theorem names_sound : Sound (commaList identifier) Names :=
  (commaList_sound identifier_sound).mono fun _ _ => names_iff.2

theorem names_complete (n : Nat) : Complete n (commaList identifier) Names (· = .comma) :=
  (commaList_complete (identifier_complete n) id).mono (fun _ _ => names_iff.1) fun _ hk =>
    hk.resolve_left id

/-! ## Simple statements -/

theorem semicolon_stops {t : Token} (ht : t.kind = .semicolon) (rest : List Token) :
    Stops (continues · = true) (t :: rest) :=
  .cons (by simp [ht, continues])

theorem expressionStmt_sound : Sound expressionStmt Statement := by
  intro ts s rest h
  simp only [expressionStmt, bind_eq_ok, expect_eq_ok, pure_eq_ok] at h
  obtain ⟨e, _, hread, -, _, ⟨t, rfl, ht⟩, rfl, rfl⟩ := h
  obtain ⟨front, rfl, he⟩ := expression_sound hread
  exact ⟨front ++ [t], by simp, by simpa [ht] using Statement.expr he⟩

theorem expressionStmt_complete {front : List Token} {t : Token} {e : Expr}
    (he : Disjunction (kinds front) e) (ht : t.kind = .semicolon) (rest : List Token) :
    expressionStmt (front ++ t :: rest) = .ok (.expr e) rest := by
  have hread := expression_complete he (semicolon_stops ht rest)
  exact bind_eq_ok.2 ⟨e, _, hread, bind_eq_ok.2 ⟨(), rest, expect_eq_ok.2 ⟨t, rfl, ht⟩, rfl⟩⟩

theorem declaration_sound : Sound declaration Statement := by
  intro ts s rest h
  simp only [declaration, bind_eq_ok, expect_eq_ok, typeName_eq_ok, pure_eq_ok] at h
  obtain ⟨type, _, ⟨t, rfl, ht⟩, names, _, hread, -, _, ⟨u, rfl, hu⟩, rfl, rfl⟩ := h
  obtain ⟨front, rfl, hnames⟩ := names_sound hread
  exact ⟨t :: front ++ [u], by simp, by simpa [hu] using Statement.declare ht hnames⟩

theorem declaration_complete {t u : Token} {front : List Token} {type : String}
    {names : List String} (ht : TypeName t.kind type) (hnames : Names (kinds front) names)
    (hu : u.kind = .semicolon) (rest : List Token) :
    declaration (t :: (front ++ u :: rest)) = .ok (.declare type names) rest := by
  have hread : commaList identifier (front ++ u :: rest) = .ok names (u :: rest) :=
    names_complete _ (Nat.lt_succ_self _) hnames (.cons (by simp [hu]))
  refine bind_eq_ok.2 ⟨type, _, typeName_eq_ok.2 ⟨t, rfl, ht⟩, bind_eq_ok.2 ⟨names, _, hread, ?_⟩⟩
  exact bind_eq_ok.2 ⟨(), rest, expect_eq_ok.2 ⟨u, rfl, hu⟩, rfl⟩

theorem assigned_sound (x : String) :
    Sound (assigned x) (fun ks s => Statement (.identifier x :: .assign :: ks) s) := by
  intro ts s rest h
  simp only [assigned, bind_eq_ok, expect_eq_ok, pure_eq_ok] at h
  obtain ⟨e, _, hread, -, _, ⟨t, rfl, ht⟩, rfl, rfl⟩ := h
  obtain ⟨front, rfl, he⟩ := expression_sound hread
  exact ⟨front ++ [t], by simp, by simpa [ht] using Statement.assign he⟩

theorem assigned_complete {x : String} {front : List Token} {t : Token} {e : Expr}
    (he : Disjunction (kinds front) e) (ht : t.kind = .semicolon) (rest : List Token) :
    assigned x (front ++ t :: rest) = .ok (.assign x e) rest := by
  have hread := expression_complete he (semicolon_stops ht rest)
  exact bind_eq_ok.2 ⟨e, _, hread, bind_eq_ok.2 ⟨(), rest, expect_eq_ok.2 ⟨t, rfl, ht⟩, rfl⟩⟩

theorem returned_sound : Sound returned (fun ks s => Statement (.returnWord :: ks) s) := by
  intro ts s rest h
  simp only [returned, bind_eq_ok, expect_eq_ok, pure_eq_ok, ifNext_eq] at h
  obtain ⟨value, _, hread, -, _, ⟨t, rfl, ht⟩, rfl, rfl⟩ := h
  split at hread
  · obtain ⟨rfl, rfl⟩ := pure_eq_ok.1 hread
    exact ⟨[t], rfl, by simpa [ht] using Statement.ret⟩
  · obtain ⟨e, hvalue, rfl⟩ := fmap_eq_ok.1 hread
    obtain ⟨front, rfl, he⟩ := expression_sound hvalue
    exact ⟨front ++ [t], by simp, by simpa [ht] using Statement.retValue he⟩

theorem returned_complete {front : List Token} {t : Token} {e : Expr}
    (he : Disjunction (kinds front) e) (ht : t.kind = .semicolon) (rest : List Token) :
    returned (front ++ t :: rest) = .ok (.ret (some e)) rest := by
  -- An expression does not start with a semicolon, so the value is not taken for missing.
  have hopen : Stops (· = .semicolon) (front ++ t :: rest) := by
    obtain ⟨k, ks, hk, hopens, -⟩ := disjunction_opening he
    obtain ⟨u, front, rfl, rfl, -⟩ := kinds_eq_cons hk
    refine .cons fun hu => ?_
    rw [hu] at hopens
    cases hopens
  have hread : (some <$> expression) (front ++ t :: rest) = .ok (some e) (t :: rest) :=
    fmap_eq_ok.2 ⟨e, expression_complete he (semicolon_stops ht rest), rfl⟩
  refine bind_eq_ok.2 ⟨some e, t :: rest, ?_, bind_eq_ok.2 ⟨(), rest, ?_, rfl⟩⟩
  · exact (ifNext_of_stops hopen).trans hread
  · exact expect_eq_ok.2 ⟨t, rfl, ht⟩

/-! ## Statements with inner statements -/

section Nested

variable {stmt : Parse Stmt} {n : Nat}

/-- A statement starts with a token that cannot end a block or start a header. -/
theorem statement_start {ks : List TokenKind} {s : Stmt} (h : Statement ks s) :
    ∃ k ks', ks = k :: ks' ∧ k ≠ .rightBrace ∧ k ≠ .declarationsWord := by
  cases h with
  | skip | define | defineParams | assign | when | loop | ret | retValue =>
    exact ⟨_, _, rfl, by simp, by simp⟩
  | block h =>
    obtain ⟨-⟩ := h
    exact ⟨_, _, rfl, by simp, by simp⟩
  | declare h _ => cases h <;> exact ⟨_, _, rfl, by simp, by simp⟩
  | expr h =>
    obtain ⟨k, ks, rfl, hk, -⟩ := disjunction_opening h
    refine ⟨k, _, rfl, ?_, ?_⟩ <;> rintro rfl <;> cases hk

theorem statement_ne_nil (ks : List TokenKind) (s : Stmt) (h : Statement ks s) : ks ≠ [] := by
  obtain ⟨k, ks', rfl, -⟩ := statement_start h
  simp

theorem block_sound (hstmt : Sound stmt Statement) : Sound (braced stmt) Block := by
  refine (braced_sound hstmt statement_ne_nil).mono ?_
  rintro _ _ ⟨h⟩
  exact .braces h.statements

theorem block_complete (hstmt : Complete n stmt Statement fun _ => False) :
    Complete (n + 1) (braced stmt) Block (fun _ => False) := by
  refine (braced_complete hstmt fun ks s h => ?_).mono ?_ fun _ => id
  · obtain ⟨k, ks', rfl, hk, -⟩ := statement_start h
    exact ⟨k, ks', rfl, hk⟩
  · rintro _ _ ⟨h⟩
    exact .mk h.repeated

theorem definition_sound (hstmt : Sound stmt Statement) : Sound (definition stmt) Statement := by
  intro ts s rest h
  simp only [definition, bind_eq_ok, expect_eq_ok, identifier_eq_ok, pure_eq_ok] at h
  obtain ⟨-, _, ⟨t, rfl, ht⟩, f, _, ⟨u, rfl, hu⟩, -, _, ⟨v, rfl, hv⟩, params, _, hparams, body, _,
    hbody, rfl, rfl⟩ := h
  obtain ⟨front, rfl, henclosed⟩ := parenList_sound identifier_sound hparams
  obtain ⟨front', rfl, hblock⟩ := block_sound hstmt hbody
  refine ⟨t :: u :: v :: (front ++ front'), by simp, ?_⟩
  simp only [kinds_cons, kinds_append, ht, hu, hv]
  generalize kinds front = ks at henclosed
  cases henclosed with
  | empty => exact .define hblock
  | items hnames => simpa using Statement.defineParams (names_iff.2 hnames) hblock

theorem definition_complete (hstmt : Complete n stmt Statement fun _ => False) {t u v : Token}
    {front front' : List Token} {f : String} {params : List String} {body : List Stmt}
    (ht : t.kind = .defWord) (hu : u.kind = .identifier f) (hv : v.kind = .leftParen)
    (hparams : Enclosed (fun ks x => ks = [.identifier x]) (kinds front) params)
    (hbody : Block (kinds front') body) (hlength : front'.length ≤ n) (rest : List Token) :
    definition stmt (t :: u :: v :: (front ++ (front' ++ rest))) = .ok (.define f params body) rest := by
  have hlist : parenList identifier (front ++ (front' ++ rest)) = .ok params (front' ++ rest) := by
    refine parenList_complete (identifier_complete _) id id ?_ (Nat.lt_succ_self _) hparams (.none _)
    rintro _ x rfl
    exact ⟨_, _, rfl, by simp⟩
  have hblock : braced stmt (front' ++ rest) = .ok body rest :=
    block_complete hstmt (Nat.lt_succ_of_le hlength) hbody (.none rest)
  refine bind_eq_ok.2 ⟨(), _, expect_eq_ok.2 ⟨t, rfl, ht⟩, ?_⟩
  refine bind_eq_ok.2 ⟨f, _, identifier_eq_ok.2 ⟨u, rfl, hu⟩, ?_⟩
  refine bind_eq_ok.2 ⟨(), _, expect_eq_ok.2 ⟨v, rfl, hv⟩, ?_⟩
  exact bind_eq_ok.2 ⟨params, _, hlist, bind_eq_ok.2 ⟨body, rest, hblock, rfl⟩⟩

theorem guarded_sound (hstmt : Sound stmt Statement) (node : Expr → List Stmt → Stmt) {ts : List Token}
    {s : Stmt} {rest : List Token} (h : guarded node stmt ts = .ok s rest) :
    ∃ front front' e body, ts = front ++ front' ++ rest ∧ Disjunction (kinds front) e ∧
      Block (kinds front') body ∧ s = node e body := by
  simp only [guarded, bind_eq_ok, pure_eq_ok] at h
  obtain ⟨e, _, hread, body, _, hbody, rfl, rfl⟩ := h
  obtain ⟨front, rfl, he⟩ := expression_sound hread
  obtain ⟨front', rfl, hblock⟩ := block_sound hstmt hbody
  exact ⟨front, front', e, body, by simp, he, hblock, rfl⟩

theorem guarded_complete (hstmt : Complete n stmt Statement fun _ => False)
    (node : Expr → List Stmt → Stmt) {front front' : List Token} {e : Expr} {body : List Stmt}
    (he : Disjunction (kinds front) e) (hbody : Block (kinds front') body)
    (hlength : front'.length ≤ n) (rest : List Token) :
    guarded node stmt (front ++ (front' ++ rest)) = .ok (node e body) rest := by
  -- The brace of the block ends the condition.
  have hstop : Stops (continues · = true) (front' ++ rest) := by
    generalize hks : kinds front' = ks at hbody
    obtain ⟨-⟩ := hbody
    obtain ⟨t, front', rfl, ht, -⟩ := kinds_eq_cons hks
    exact .cons (by simp [ht, continues])
  have hblock : braced stmt (front' ++ rest) = .ok body rest :=
    block_complete hstmt (Nat.lt_succ_of_le hlength) hbody (.none rest)
  exact bind_eq_ok.2 ⟨e, _, expression_complete he hstop, bind_eq_ok.2 ⟨body, rest, hblock, rfl⟩⟩

/-! ## One statement -/

theorem named_sound {x : String} {t : Token} {ts rest : List Token} {s : Stmt}
    (ht : t.kind = .identifier x) (h : named x (t :: ts) = .ok s rest) :
    ∃ front, t :: ts = front ++ rest ∧ Statement (kinds front) s := by
  cases ts with
  | nil => exact expressionStmt_sound h
  | cons u ts =>
    simp only [named] at h
    split at h
    next => exact declaration_sound h
    next hu =>
      obtain ⟨front, rfl, hs⟩ := assigned_sound x h
      exact ⟨t :: u :: front, rfl, by rwa [kinds_cons, kinds_cons, ht, hu]⟩
    next => exact expressionStmt_sound h

theorem statementWith_sound (hstmt : Sound stmt Statement) :
    Sound (statementWith stmt) Statement := by
  intro ts s rest h
  cases ts with
  | nil => exact expressionStmt_sound h
  | cons t ts =>
    simp only [statementWith] at h
    split at h
    next =>
      obtain ⟨body, hread, rfl⟩ := map_eq_ok.1 h
      obtain ⟨front, hfront, hblock⟩ := block_sound hstmt hread
      exact ⟨front, hfront, .block hblock⟩
    next ht =>
      cases h
      exact ⟨[t], rfl, by simpa [ht] using Statement.skip⟩
    next => exact definition_sound hstmt h
    next ht =>
      obtain ⟨front, front', e, body, rfl, he, hbody, rfl⟩ := guarded_sound hstmt _ h
      exact ⟨t :: front ++ front', by simp, by simpa [ht] using Statement.when he hbody⟩
    next ht =>
      obtain ⟨front, front', e, body, rfl, he, hbody, rfl⟩ := guarded_sound hstmt _ h
      exact ⟨t :: front ++ front', by simp, by simpa [ht] using Statement.loop he hbody⟩
    next ht =>
      obtain ⟨front, rfl, hs⟩ := returned_sound h
      exact ⟨t :: front, rfl, by rwa [kinds_cons, ht]⟩
    next => exact declaration_sound h
    next ht => exact named_sound ht h
    next => exact expressionStmt_sound h

/-- Behind a name, only another name or the sign of an assignment lead away from expressions. -/
theorem named_eq_expressionStmt {x : String} {t : Token} {ts : List Token}
    (h : ∀ k ∈ (kinds ts).head?, continues k = true ∨ k = .semicolon) :
    named x (t :: ts) = expressionStmt (t :: ts) := by
  cases ts with
  | nil => rfl
  | cons u ts =>
    have hu := h u.kind rfl
    simp only [named]
    split
    next y hy =>
      rw [hy] at hu
      rcases hu with ⟨⟨⟩⟩ | ⟨⟨⟩⟩
    next hy =>
      rw [hy] at hu
      rcases hu with ⟨⟨⟩⟩ | ⟨⟨⟩⟩
    next => rfl

/-- A token that starts an expression starts no other statement, unless it is a name. -/
theorem statementWith_eq_expressionStmt {t : Token} {ts : List Token} (ht : opens t.kind = true)
    (hts : ∀ x, t.kind = .identifier x →
      ∀ k ∈ (kinds ts).head?, continues k = true ∨ k = .semicolon) :
    statementWith stmt (t :: ts) = expressionStmt (t :: ts) := by
  generalize hk : t.kind = k at ht hts
  cases k with
  | identifier x =>
    simp only [statementWith, hk]
    exact named_eq_expressionStmt (hts x rfl)
  | plus | minus | integer | float | string | trueWord | falseWord | leftParen =>
    simp only [statementWith, hk]
  | _ => cases ht

theorem names_head {front : List Token} {names : List String} (h : Names (kinds front) names) :
    ∃ t more x, front = t :: more ∧ t.kind = .identifier x := by
  generalize hks : kinds front = ks at h
  cases h with
  | one | more =>
    obtain ⟨t, more, rfl, ht, -⟩ := kinds_eq_cons hks
    exact ⟨t, more, _, rfl, ht⟩

theorem statementWith_complete (hstmt : Complete n stmt Statement fun _ => False) :
    Complete (n + 1) (statementWith stmt) Statement (fun _ => False) := by
  intro front s rest hlength h _
  generalize hks : kinds front = ks at h
  cases h with
  | skip =>
    obtain ⟨t, front, rfl, ht, hfront⟩ := kinds_eq_cons hks
    obtain rfl := kinds_eq_nil hfront
    simp only [List.cons_append, List.nil_append, statementWith, ht]
  | @block _ body hblock =>
    subst hks
    have hread : braced stmt (front ++ rest) = .ok body rest :=
      block_complete hstmt hlength hblock (.none rest)
    generalize hks : kinds front = ks at hblock
    obtain ⟨-⟩ := hblock
    obtain ⟨t, front, rfl, ht, -⟩ := kinds_eq_cons hks
    simp only [List.cons_append, statementWith, ht]
    exact map_eq_ok.2 ⟨body, hread, rfl⟩
  | declare htype hnames =>
    obtain ⟨t, front, rfl, rfl, hfront⟩ := kinds_eq_cons hks
    obtain ⟨front, u, rfl, rfl, hu⟩ := kinds_eq_concat hfront
    have hread := declaration_complete htype hnames hu rest
    simp only [List.cons_append, List.append_assoc, List.nil_append]
    generalize hk : t.kind = k at htype
    cases htype with
    | builtin =>
      simp only [statementWith, hk]
      exact hread
    | declared =>
      -- The second token is a name, which no expression that starts with a name has there.
      obtain ⟨v, front, x, rfl, hv⟩ := names_head hnames
      simp only [List.cons_append, statementWith, hk, named, hv]
      exact hread
  | define hbody =>
    obtain ⟨t, front, rfl, ht, hfront⟩ := kinds_eq_cons hks
    obtain ⟨u, front, rfl, hu, hfront⟩ := kinds_eq_cons hfront
    obtain ⟨v, front, rfl, hv, hfront⟩ := kinds_eq_cons hfront
    obtain ⟨w, front, rfl, hw, rfl⟩ := kinds_eq_cons hfront
    simp only [List.length_cons] at hlength
    simp only [List.cons_append, statementWith, ht]
    have hparams : Enclosed (fun ks x => ks = [.identifier x]) (kinds [w]) [] := by
      simpa [hw] using Enclosed.empty
    exact definition_complete hstmt ht hu hv hparams hbody (by omega) rest
  | @defineParams _ _ params _ _ hnames hbody =>
    obtain ⟨t, front, rfl, ht, hfront⟩ := kinds_eq_cons hks
    obtain ⟨u, front, rfl, hu, hfront⟩ := kinds_eq_cons hfront
    obtain ⟨v, front, rfl, hv, hfront⟩ := kinds_eq_cons hfront
    obtain ⟨front, behind, rfl, rfl, hbehind⟩ := kinds_eq_append hfront
    obtain ⟨w, front', rfl, hw, rfl⟩ := kinds_eq_cons hbehind
    simp only [List.length_cons, List.length_append] at hlength
    simp only [List.cons_append, List.append_assoc, statementWith, ht]
    have hparams : Enclosed (fun ks x => ks = [.identifier x]) (kinds (front ++ [w])) params := by
      simpa [hw] using Enclosed.items (names_iff.1 hnames)
    have hread := definition_complete hstmt ht hu hv hparams hbody (by omega) rest
    simpa only [List.append_assoc, List.cons_append, List.nil_append] using hread
  | assign he =>
    obtain ⟨t, front, rfl, ht, hfront⟩ := kinds_eq_cons hks
    obtain ⟨u, front, rfl, hu, hfront⟩ := kinds_eq_cons hfront
    obtain ⟨front, v, rfl, rfl, hv⟩ := kinds_eq_concat hfront
    simp only [List.cons_append, List.append_assoc, statementWith, ht, named, hu]
    exact assigned_complete he hv rest
  | when he hbody =>
    obtain ⟨t, front, rfl, ht, hfront⟩ := kinds_eq_cons hks
    obtain ⟨front, front', rfl, rfl, rfl⟩ := kinds_eq_append hfront
    simp only [List.length_cons, List.length_append] at hlength
    simp only [List.cons_append, List.append_assoc, statementWith, ht]
    exact guarded_complete hstmt .when he hbody (by omega) rest
  | loop he hbody =>
    obtain ⟨t, front, rfl, ht, hfront⟩ := kinds_eq_cons hks
    obtain ⟨front, front', rfl, rfl, rfl⟩ := kinds_eq_append hfront
    simp only [List.length_cons, List.length_append] at hlength
    simp only [List.cons_append, List.append_assoc, statementWith, ht]
    exact guarded_complete hstmt .loop he hbody (by omega) rest
  | ret =>
    obtain ⟨t, front, rfl, ht, hfront⟩ := kinds_eq_cons hks
    obtain ⟨u, front, rfl, hu, hfront⟩ := kinds_eq_cons hfront
    obtain rfl := kinds_eq_nil hfront
    simp only [List.cons_append, List.nil_append, statementWith, ht]
    refine bind_eq_ok.2 ⟨none, u :: rest, ?_, bind_eq_ok.2 ⟨(), rest, ?_, rfl⟩⟩
    · exact ifNext_of_next hu rest
    · exact expect_eq_ok.2 ⟨u, rfl, hu⟩
  | retValue he =>
    obtain ⟨t, front, rfl, ht, hfront⟩ := kinds_eq_cons hks
    obtain ⟨front, u, rfl, rfl, hu⟩ := kinds_eq_concat hfront
    simp only [List.cons_append, List.append_assoc, statementWith, ht]
    exact returned_complete he hu rest
  | expr he =>
    obtain ⟨front, u, rfl, rfl, hu⟩ := kinds_eq_concat hks
    have hread := expressionStmt_complete he hu rest
    obtain ⟨k, ks, hfront, hopens, hnext⟩ := disjunction_opening he
    obtain ⟨t, front, rfl, rfl, rfl⟩ := kinds_eq_cons hfront
    simp only [List.cons_append, List.append_assoc, List.nil_append]
    -- If the expression starts with a name, what comes next in it is no name and no `=`.
    rw [statementWith_eq_expressionStmt hopens]
    · exact hread
    · intro x hx k hk
      cases front with
      | nil =>
        cases hk
        exact .inr hu
      | cons v front => exact .inl (hnext x hx k hk)

end Nested

theorem statementAt_sound (depth : Nat) : Sound (statementAt depth) Statement := by
  induction depth with
  | zero => exact fun _ _ _ h => absurd h unexpected_ne_ok
  | succ depth ih => exact statementWith_sound ih

theorem statementAt_complete (depth : Nat) :
    Complete depth (statementAt depth) Statement (fun _ => False) := by
  induction depth with
  | zero => exact fun _ _ _ hlength => absurd hlength (Nat.not_lt_zero _)
  | succ depth ih => exact statementWith_complete ih

theorem statement_sound : Sound statement Statement :=
  fun ts _ _ h => statementAt_sound (ts.length + 1) h

theorem statement_complete (n : Nat) : Complete n statement Statement (fun _ => False) := by
  intro front s rest _ h hrest
  exact statementAt_complete ((front ++ rest).length + 1) (by rw [List.length_append]; omega) h hrest

end Tremolo.Parse
