import Tremolo.Proofs.Syntax.Statements
import Tremolo.Syntax.Parser.Program

/-! # The parser accepts exactly the grammar

Headers and whole programs are read as the grammar writes them, so a list of tokens is accepted if and
only if its kinds can be derived, with the tree of the derivation; and there is never a second tree. -/

namespace Tremolo.Parse

open Grammar

/-! ## Signatures -/

theorem typeName_sound : Sound typeName (fun ks t => ∃ k, ks = [k] ∧ TypeName k t) := by
  intro ts x rest h
  obtain ⟨t, rfl, ht⟩ := typeName_eq_ok.1 h
  exact ⟨[t], rfl, t.kind, rfl, ht⟩

theorem typeName_complete (n : Nat) :
    Complete n typeName (fun ks t => ∃ k, ks = [k] ∧ TypeName k t) (fun _ => False) := by
  rintro front x rest _ ⟨k, hk, hx⟩ _
  obtain ⟨t, front, rfl, rfl, hfront⟩ := kinds_eq_cons hk
  obtain rfl := kinds_eq_nil hfront
  exact typeName_eq_ok.2 ⟨t, rfl, hx⟩

/-- The parameter types of a signature, up to the closing parenthesis. -/
theorem parameters_iff {ks : List TokenKind} {ts : List String} :
    Enclosed (fun ks t => ∃ k, ks = [k] ∧ TypeName k t) ks ts ↔
      ∃ ks', ks = ks' ++ [.rightParen] ∧ Parameters ks' ts := by
  constructor
  · intro h
    cases h with
    | empty => exact ⟨[], rfl, .none⟩
    | items h => exact ⟨_, rfl, .some (typeNames_iff.2 h)⟩
  · rintro ⟨ks', rfl, h⟩
    cases h with
    | none => exact .empty
    | some h => exact .items (typeNames_iff.1 h)

/-- What a signature has behind its return type. -/
inductive Untyped (returns : Option String) : List TokenKind → Tremolo.Signature → Prop
  | mk {f ks ts} : Parameters ks ts →
      Untyped returns (.identifier f :: .leftParen :: ks ++ [.rightParen, .semicolon]) ⟨f, ts, returns⟩

/-- Reads a signature behind its return type. -/
def untyped (returns : Option String) : Parse Tremolo.Signature := do
  let name ← identifier
  expect .leftParen
  let parameters ← parenList typeName
  expect .semicolon
  return ⟨name, parameters, returns⟩

theorem untyped_sound (returns : Option String) : Sound (untyped returns) (Untyped returns) := by
  intro ts s rest h
  simp only [untyped, bind_eq_ok, expect_eq_ok, identifier_eq_ok, pure_eq_ok] at h
  obtain ⟨f, _, ⟨t, rfl, ht⟩, -, _, ⟨u, rfl, hu⟩, types, _, hread, -, _, ⟨v, rfl, hv⟩, rfl, rfl⟩ := h
  obtain ⟨front, rfl, henclosed⟩ := parenList_sound typeName_sound hread
  obtain ⟨ks, hks, hparameters⟩ := parameters_iff.1 henclosed
  refine ⟨t :: u :: front ++ [v], by simp, ?_⟩
  simpa [ht, hu, hv, hks] using Untyped.mk hparameters

theorem untyped_complete (returns : Option String) (n : Nat) :
    Complete n (untyped returns) (Untyped returns) (fun _ => False) := by
  intro front s rest _ h _
  generalize hks : kinds front = ks at h
  obtain @⟨f, ks, types, hparameters⟩ := h
  obtain ⟨t, front, rfl, ht, hfront⟩ := kinds_eq_cons hks
  obtain ⟨u, front, rfl, hu, hfront⟩ := kinds_eq_cons hfront
  have hinner : kinds front = (ks ++ [.rightParen]) ++ [.semicolon] := by simpa using hfront
  obtain ⟨front, v, rfl, hinner, hv⟩ := kinds_eq_concat hinner
  have hread : parenList typeName (front ++ v :: rest) = .ok types (v :: rest) := by
    refine parenList_complete (typeName_complete _) id id ?_ (Nat.lt_succ_self _)
      (parameters_iff.2 ⟨ks, hinner, hparameters⟩) (.none _)
    rintro _ x ⟨k, rfl, hx⟩
    refine ⟨k, [], rfl, ?_⟩
    rintro rfl
    cases hx
  simp only [List.cons_append, List.append_assoc, List.nil_append]
  refine bind_eq_ok.2 ⟨f, _, identifier_eq_ok.2 ⟨t, rfl, ht⟩, ?_⟩
  refine bind_eq_ok.2 ⟨(), _, expect_eq_ok.2 ⟨u, rfl, hu⟩, bind_eq_ok.2 ⟨types, _, hread, ?_⟩⟩
  exact bind_eq_ok.2 ⟨(), rest, expect_eq_ok.2 ⟨v, rfl, hv⟩, rfl⟩

theorem signature_eq : signature = returnType >>= untyped :=
  rfl

theorem signature_sound : Sound signature Grammar.Signature := by
  intro ts s rest h
  rw [signature_eq, bind_eq_ok] at h
  obtain ⟨returns, mid, hreturns, hread⟩ := h
  obtain ⟨front, rfl, hs⟩ := untyped_sound returns hread
  unfold returnType at hreturns
  split at hreturns
  · obtain ⟨type, htype, rfl⟩ := map_eq_ok.1 hreturns
    obtain ⟨t, rfl, ht⟩ := typeName_eq_ok.1 htype
    refine ⟨t :: front, rfl, ?_⟩
    rw [kinds_cons]
    generalize kinds front = ks at hs
    obtain ⟨hparameters⟩ := hs
    exact .typed ht hparameters
  · cases hreturns
    refine ⟨front, rfl, ?_⟩
    generalize kinds front = ks at hs
    obtain ⟨hparameters⟩ := hs
    exact .plain hparameters

theorem signature_complete (n : Nat) : Complete n signature Grammar.Signature (fun _ => False) := by
  intro front s rest hlength h _
  generalize hks : kinds front = ks at h
  rw [signature_eq]
  cases h with
  | @plain f ks types hparameters =>
    have huntyped : Untyped none (kinds front) ⟨f, types, none⟩ := by
      rw [hks]
      exact .mk hparameters
    have hread := untyped_complete none n hlength huntyped (.none rest)
    refine bind_eq_ok.2 ⟨none, _, ?_, hread⟩
    -- A name in front of a parenthesis is no return type.
    obtain ⟨t, front, rfl, ht, hfront⟩ := kinds_eq_cons hks
    obtain ⟨u, front, rfl, hu, hfront⟩ := kinds_eq_cons hfront
    simp only [List.cons_append, returnType, startsWithType, ht, hu]
    rfl
  | @typed _ type f ks types ht hparameters =>
    obtain ⟨t, front, rfl, rfl, hfront⟩ := kinds_eq_cons hks
    have huntyped : Untyped (some type) (kinds front) ⟨f, types, some type⟩ := by
      rw [hfront]
      exact .mk hparameters
    have hread := untyped_complete (some type) n (Nat.lt_of_succ_lt hlength) huntyped (.none rest)
    obtain ⟨u, front, rfl, hu, -⟩ := kinds_eq_cons hfront
    have hstarts : startsWithType (t :: u :: (front ++ rest)) = true := by
      generalize hk : t.kind = k at ht
      cases ht <;> simp [startsWithType, hk, hu]
    refine bind_eq_ok.2 ⟨some type, u :: (front ++ rest), ?_, hread⟩
    simp only [List.cons_append, returnType, hstarts, if_true]
    exact map_eq_ok.2 ⟨type, typeName_eq_ok.2 ⟨t, rfl, ht⟩, rfl⟩

/-! ## Headers -/

theorem signature_start {ks : List TokenKind} {s : Tremolo.Signature} (h : Grammar.Signature ks s) :
    ∃ k ks', ks = k :: ks' ∧ k ≠ .rightBrace := by
  cases h with
  | plain => exact ⟨_, _, rfl, by simp⟩
  | typed h _ => cases h <;> exact ⟨_, _, rfl, by simp⟩

theorem signature_ne_nil (ks : List TokenKind) (s : Tremolo.Signature) (h : Grammar.Signature ks s) :
    ks ≠ [] := by
  obtain ⟨k, ks', rfl, -⟩ := signature_start h
  simp

theorem module_sound : Sound moduleUse Module := by
  intro ts m rest h
  simp only [moduleUse, bind_eq_ok, identifier_eq_ok, pure_eq_ok] at h
  obtain ⟨name, _, ⟨t, rfl, ht⟩, functions, _, hread, rfl, rfl⟩ := h
  obtain ⟨front, rfl, hfunctions⟩ := braced_sound signature_sound signature_ne_nil hread
  refine ⟨t :: front, rfl, ?_⟩
  rw [kinds_cons, ht]
  generalize kinds front = ks at hfunctions
  obtain ⟨hfunctions⟩ := hfunctions
  exact .mk hfunctions

theorem module_complete (n : Nat) : Complete n moduleUse Module (fun _ => False) := by
  intro front m rest _ h _
  generalize hks : kinds front = ks at h
  obtain @⟨name, ks, functions, hfunctions⟩ := h
  obtain ⟨t, front, rfl, ht, hfront⟩ := kinds_eq_cons hks
  have hread : braced signature (front ++ rest) = .ok functions rest := by
    refine braced_complete (signature_complete _) (fun _ _ => signature_start)
      (Nat.lt_succ_self _) ?_ (.none rest)
    rw [hfront]
    exact .mk hfunctions
  exact bind_eq_ok.2 ⟨name, _, identifier_eq_ok.2 ⟨t, rfl, ht⟩,
    bind_eq_ok.2 ⟨functions, rest, hread, rfl⟩⟩

theorem module_start {ks : List TokenKind} {m : ModuleUse} (h : Module ks m) :
    ∃ k ks', ks = k :: ks' ∧ k ≠ .rightBrace := by
  cases h
  exact ⟨_, _, rfl, by simp⟩

theorem module_ne_nil (ks : List TokenKind) (m : ModuleUse) (h : Module ks m) : ks ≠ [] := by
  obtain ⟨k, ks', rfl, -⟩ := module_start h
  simp

theorem headerTypes_sound : Sound headerTypes TypesPart := by
  intro ts names rest h
  simp only [headerTypes, bind_eq_ok, expect_eq_ok, pure_eq_ok] at h
  obtain ⟨-, _, ⟨t, rfl, ht⟩, -, _, ⟨u, rfl, hu⟩, names, _, hread, -, _, ⟨v, rfl, hv⟩, rfl, rfl⟩ := h
  obtain ⟨front, rfl, hnames⟩ := names_sound hread
  exact ⟨t :: u :: front ++ [v], by simp, by simpa [ht, hu, hv] using TypesPart.present hnames⟩

theorem headerModules_sound : Sound headerModules ModulesPart := by
  intro ts modules rest h
  simp only [headerModules, bind_eq_ok, expect_eq_ok] at h
  obtain ⟨-, _, ⟨t, rfl, ht⟩, hread⟩ := h
  obtain ⟨front, rfl, hmodules⟩ := braced_sound module_sound module_ne_nil hread
  refine ⟨t :: front, rfl, ?_⟩
  rw [kinds_cons, ht]
  generalize kinds front = ks at hmodules
  obtain ⟨hmodules⟩ := hmodules
  exact .present (modules_iff.2 hmodules)

theorem headerTypes_complete {front rest : List Token} {names : List String} (hfront : front ≠ [])
    (h : TypesPart (kinds front) names) : headerTypes (front ++ rest) = .ok names rest := by
  generalize hks : kinds front = ks at h
  cases h with
  | absent => exact absurd (kinds_eq_nil hks) hfront
  | present hnames =>
    obtain ⟨t, front, rfl, ht, hks⟩ := kinds_eq_cons hks
    obtain ⟨u, front, rfl, hu, hks⟩ := kinds_eq_cons hks
    obtain ⟨front, v, rfl, rfl, hv⟩ := kinds_eq_concat hks
    have hread : commaList identifier (front ++ v :: rest) = .ok names (v :: rest) :=
      names_complete _ (Nat.lt_succ_self _) hnames (.cons (by simp [hv]))
    simp only [List.cons_append, List.append_assoc, List.nil_append]
    refine bind_eq_ok.2 ⟨(), _, expect_eq_ok.2 ⟨t, rfl, ht⟩, ?_⟩
    refine bind_eq_ok.2 ⟨(), _, expect_eq_ok.2 ⟨u, rfl, hu⟩, bind_eq_ok.2 ⟨names, _, hread, ?_⟩⟩
    exact bind_eq_ok.2 ⟨(), rest, expect_eq_ok.2 ⟨v, rfl, hv⟩, rfl⟩

theorem headerModules_complete {front rest : List Token} {modules : List ModuleUse}
    (hfront : front ≠ []) (h : ModulesPart (kinds front) modules) :
    headerModules (front ++ rest) = .ok modules rest := by
  generalize hks : kinds front = ks at h
  cases h with
  | absent => exact absurd (kinds_eq_nil hks) hfront
  | present hmodules =>
    obtain ⟨t, front, rfl, ht, hks⟩ := kinds_eq_cons hks
    have hread : braced moduleUse (front ++ rest) = .ok modules rest := by
      refine braced_complete (module_complete _) (fun _ _ => module_start) (Nat.lt_succ_self _) ?_
        (.none rest)
      rw [hks]
      exact .mk (modules_iff.1 hmodules)
    exact bind_eq_ok.2 ⟨(), _, expect_eq_ok.2 ⟨t, rfl, ht⟩, hread⟩

theorem typesPart_complete (n : Nat) :
    Complete n (ifNext .typesWord headerTypes (pure [])) TypesPart (· = .typesWord) := by
  refine optional_complete (fun ks names h => ?_) headerTypes_complete
  cases h with
  | absent => exact .inl ⟨rfl, rfl⟩
  | present => exact .inr ⟨_, rfl⟩

theorem modulesPart_complete (n : Nat) :
    Complete n (ifNext .modulesWord headerModules (pure [])) ModulesPart (· = .modulesWord) := by
  refine optional_complete (fun ks modules h => ?_) headerModules_complete
  cases h with
  | absent => exact .inl ⟨rfl, rfl⟩
  | present => exact .inr ⟨_, rfl⟩

theorem header_sound : Sound header (fun ks h => HeaderPart ks (some h)) := by
  intro ts h rest hread
  simp only [header, bind_eq_ok, expect_eq_ok, pure_eq_ok] at hread
  obtain ⟨-, _, ⟨t, rfl, ht⟩, -, _, ⟨u, rfl, hu⟩, types, _, htypes, modules, _, hmodules, -, _,
    ⟨v, rfl, hv⟩, rfl, rfl⟩ := hread
  obtain ⟨front, rfl, hnames⟩ := optional_sound headerTypes_sound .absent htypes
  obtain ⟨front', rfl, huses⟩ := optional_sound headerModules_sound .absent hmodules
  refine ⟨t :: u :: (front ++ front') ++ [v], by simp, ?_⟩
  simpa [ht, hu, hv] using HeaderPart.present hnames huses

theorem header_complete {front rest : List Token} {h : Header}
    (hpart : HeaderPart (kinds front) (some h)) : header (front ++ rest) = .ok h rest := by
  generalize hks : kinds front = ks at hpart
  obtain - | @⟨_, types, _, modules, hnames, huses⟩ := hpart
  obtain ⟨t, front, rfl, ht, hfront⟩ := kinds_eq_cons hks
  obtain ⟨u, front, rfl, hu, hfront⟩ := kinds_eq_cons hfront
  obtain ⟨front, v, rfl, hinner, hv⟩ := kinds_eq_concat hfront
  obtain ⟨front, front', rfl, rfl, rfl⟩ := kinds_eq_append hinner
  have hend : Stops (· = .modulesWord) (v :: rest) := .cons (by simp [hv])
  have hmodules := modulesPart_complete _ (Nat.lt_succ_self _) huses hend
  -- Missing types are noticed, since modules start with another word.
  have hstop : Stops (· = .typesWord) (front' ++ v :: rest) := by
    refine .append (.cons (by simp [hv])) fun k ks hk => ?_
    rw [hk] at huses
    cases huses
    simp
  have htypes := typesPart_complete _ (Nat.lt_succ_self _) hnames hstop
  simp only [List.cons_append, List.append_assoc, List.nil_append]
  refine bind_eq_ok.2 ⟨(), _, expect_eq_ok.2 ⟨t, rfl, ht⟩, ?_⟩
  refine bind_eq_ok.2 ⟨(), _, expect_eq_ok.2 ⟨u, rfl, hu⟩, bind_eq_ok.2 ⟨types, _, htypes, ?_⟩⟩
  refine bind_eq_ok.2 ⟨modules, _, hmodules, ?_⟩
  exact bind_eq_ok.2 ⟨(), rest, expect_eq_ok.2 ⟨v, rfl, hv⟩, rfl⟩

/-! ## Programs -/

theorem headerPart_sound : Sound (some <$> header) HeaderPart := by
  intro ts h rest hread
  obtain ⟨h, hheader, rfl⟩ := fmap_eq_ok.1 hread
  exact header_sound hheader

theorem headerPart_complete (n : Nat) :
    Complete n (ifNext .declarationsWord (some <$> header) (pure none)) HeaderPart
      (· = .declarationsWord) := by
  refine optional_complete (fun ks h hpart => ?_) fun {front h rest} hfront hpart => ?_
  · cases hpart with
    | absent => exact .inl ⟨rfl, rfl⟩
    | present => exact .inr ⟨_, rfl⟩
  · cases h with
    | none =>
      generalize hks : kinds front = ks at hpart
      cases hpart
      exact absurd (kinds_eq_nil hks) hfront
    | some h => exact fmap_eq_ok.2 ⟨h, header_complete hpart, rfl⟩

/-- The statements of a program go on to the end of the input. -/
theorem program_sound {ts rest : List Token} {p : Tremolo.Program} (h : program ts = .ok p rest) :
    Grammar.Program (kinds ts) p ∧ rest = [] := by
  simp only [program, bind_eq_ok, pure_eq_ok] at h
  obtain ⟨head, mid, hhead, body, _, hbody, rfl, rfl⟩ := h
  obtain ⟨front, rfl, hheader⟩ := optional_sound headerPart_sound .absent hhead
  obtain ⟨⟨front', rfl, hstatements⟩, hstops⟩ :=
    manyUpTo_sound statement_sound statement_ne_nil _ (Nat.le_refl _) hbody
  rename_i rest
  -- Reading of statements stops at no token, so it has stopped at the end.
  have hrest : rest = [] := by
    cases rest with
    | nil => rfl
    | cons t rest => exact absurd rfl (hstops t.kind rfl)
  subst hrest
  refine ⟨?_, rfl⟩
  rw [List.append_nil, kinds_append]
  exact .mk hheader hstatements.statements

theorem program_complete {ts : List Token} {p : Tremolo.Program} (h : Grammar.Program (kinds ts) p) :
    program ts = .ok p [] := by
  generalize hks : kinds ts = ks at h
  obtain @⟨_, head, _, body, hheader, hstatements⟩ := h
  obtain ⟨front, front', rfl, rfl, rfl⟩ := kinds_eq_append hks
  have hnext : Stops (· = .declarationsWord) front' := by
    rw [← List.append_nil front']
    refine .append (by rintro k ⟨⟩) fun k ks hk => ?_
    refine hstatements.repeated.head (P := (· ≠ .declarationsWord)) (fun ks s h => ?_) hk
    obtain ⟨k, ks', rfl, -, hk⟩ := statement_start h
    exact ⟨k, ks', rfl, hk⟩
  have hbody : many (fun _ => true) statement (front' ++ []) = .ok body [] := by
    refine many_complete (statement_complete _) (fun ks s h => ?_) (Nat.lt_succ_self _)
      hstatements.repeated (by rintro k ⟨⟩)
    obtain ⟨k, ks', rfl, -⟩ := statement_start h
    exact ⟨k, ks', rfl, rfl, id⟩
  rw [List.append_nil] at hbody
  have hhead := headerPart_complete _ (Nat.lt_succ_self _) hheader hnext
  exact bind_eq_ok.2 ⟨head, front', hhead, bind_eq_ok.2 ⟨body, [], hbody, rfl⟩⟩

end Tremolo.Parse

namespace Tremolo

/-- The end mark in front of which a parser reads. -/
theorem parseTokens_eq {ts : List Token} {eof : Token} (hts : ∀ t ∈ ts, t.kind ≠ .eof)
    (heof : eof.kind = .eof) :
    parseTokens (ts ++ [eof]) = (Parser.parse ⟨ts⟩).1 := by
  have htake : (ts ++ [eof]).takeWhile (fun t => t.kind ≠ .eof) = ts := by
    rw [List.takeWhile_append_of_pos (by simpa using hts)]
    simp [heof]
  rw [parseTokens, Parser.ofTokens, htake]

theorem parse_eq_ok {ts : List Token} {p : Program} :
    (Parser.parse ⟨ts⟩).1 = .ok p ↔ Grammar.Program (kinds ts) p := by
  constructor
  · intro h
    simp only [Parser.parse] at h
    split at h
    next q rest hread =>
      cases h
      exact (Parse.program_sound hread).1
    next => cases h
  · intro h
    simp only [Parser.parse, Parse.program_complete h]

/-- The parser gives exactly the trees that the grammar derives, and the grammar derives at most one. -/
theorem parser_accepts_grammar (ts : List Token) (eof : Token) (hts : ∀ t ∈ ts, t.kind ≠ .eof)
    (heof : eof.kind = .eof) :
    (∀ p, parseTokens (ts ++ [eof]) = .ok p ↔ Grammar.Program (ts.map Token.kind) p) ∧
      ∀ p q, Grammar.Program (ts.map Token.kind) p → Grammar.Program (ts.map Token.kind) q → p = q := by
  refine ⟨fun p => ?_, fun p q hp hq => ?_⟩
  · rw [parseTokens_eq hts heof]
    exact parse_eq_ok
  · -- Both trees are the one that the parser gives.
    have hsame := (parse_eq_ok.2 hp).symm.trans (parse_eq_ok.2 hq)
    exact Except.ok.inj hsame

/-- The tokens of `x = 8 - 2 - (3 - 1) < y;`. -/
def Grouping.accepted : List Token :=
  [.identifier "x", .assign, .integer 8, .minus, .integer 2, .minus, .leftParen, .integer 3, .minus,
    .integer 1, .rightParen, .lt, .identifier "y", .semicolon].map (⟨·, "", 1, 1⟩)

def Grouping.tree : Program :=
  ⟨none, [.assign "x" (.cond .lt
    (.binary .sub (.binary .sub (.int 8) (.int 2)) (.binary .sub (.int 3) (.int 1))) (.var "y"))]⟩

/-- The tokens of `x < y < z;`. -/
def Grouping.refused : List Token :=
  [.identifier "x", .lt, .identifier "y", .lt, .identifier "z", .semicolon].map (⟨·, "", 1, 1⟩)

open Grouping in
theorem parser_accepts_grammar_grouping :
    (∀ t ∈ accepted, t.kind ≠ .eof) ∧ (∀ t ∈ refused, t.kind ≠ .eof) ∧
      (∀ p, Grammar.Program (accepted.map Token.kind) p ↔ p = tree) ∧
      ∀ p, ¬ Grammar.Program (refused.map Token.kind) p := by
  have haccepted : ∀ t ∈ accepted, t.kind ≠ .eof := by simp [accepted]
  have hrefused : ∀ t ∈ refused, t.kind ≠ .eof := by simp [refused]
  have hread : parseTokens (accepted ++ [⟨.eof, "", 1, 1⟩]) = .ok tree := rfl
  have hfails : (parseTokens (refused ++ [⟨.eof, "", 1, 1⟩])).toOption = none := rfl
  obtain ⟨hexact, honly⟩ := parser_accepts_grammar accepted ⟨.eof, "", 1, 1⟩ haccepted rfl
  refine ⟨haccepted, hrefused, fun p => ⟨fun hp => ?_, ?_⟩, fun p hp => ?_⟩
  · exact honly p tree hp ((hexact tree).1 hread)
  · rintro rfl
    exact (hexact tree).1 hread
  · have hok := ((parser_accepts_grammar refused ⟨.eof, "", 1, 1⟩ hrefused rfl).1 p).2 hp
    rw [hok] at hfails
    cases hfails

end Tremolo
