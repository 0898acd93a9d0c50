import Tremolo.Proofs.Syntax.Completion
import Tremolo.Proofs.Syntax.Persistence

/-! # Syntax errors are found at the first token that cannot go on

A program fails at the end of its tokens only if these can still be continued to a program, and it is
refused at a token only if no program starts with the tokens up to there.  For the first,
`program_completes` is enough.  For the second, the refusal persists (`program_persists`): if a program
did start like that, the parser would accept it. -/

namespace Tremolo.Parse

open Grammar

/-! ## Statements -/

section Statements

variable {n : Nat}

theorem names_steady : Steady n (commaList identifier) (fun _ => commaList identifier) :=
  commaList_steady identifier_steady identifier_sound fun _ => identifier_sound

theorem expressionStmt_steady : Steady n expressionStmt (fun _ => expressionStmt) :=
  (expression_steady n).bind fun e => (expect_steady .semicolon).bind fun _ => pure_steady (Stmt.expr e)

theorem declaration_steady : Steady n declaration (fun _ => declaration) :=
  typeName_steady.bind fun type => names_steady.bind fun names =>
    (expect_steady .semicolon).bind fun _ => pure_steady (Stmt.declare type names)

theorem assigned_steady (x : String) : Steady n (assigned x) (fun _ => assigned x) :=
  (expression_steady n).bind fun e => (expect_steady .semicolon).bind fun _ =>
    pure_steady (Stmt.assign x e)

theorem returned_steady : Steady n returned (fun _ => returned) := by
  have hvalue : Steady n (some <$> expression) (fun _ => some <$> expression) :=
    (expression_steady n).bind fun e => pure_steady (some e)
  exact ((pure_steady none).ifNext hvalue).bind fun value =>
    (expect_steady .semicolon).bind fun _ => pure_steady (Stmt.ret value)

/-- A name alone is the start of an expression statement. -/
theorem expressionStmt_name {x : String} {t : Token} (ht : t.kind = .identifier x) :
    expressionStmt [t] = .fail .unexpectedEnd [] := by
  have hvar : Disjunction (kinds [t]) (.var x) := by
    rw [kinds_cons, ht]
    exact .conjunction (.comparison (.sum (.term (.factor .var))))
  have hstops : Stops (continues · = true) [] := nofun
  have hread := expression_complete hvar hstops
  rw [List.append_nil] at hread
  exact bind_of_ok hread

theorem declaration_name {x : String} {t : Token} (ht : t.kind = .identifier x) :
    declaration [t] = .fail .unexpectedEnd [] := by
  have hread : typeName [t] = .ok x [] := typeName_eq_ok.2 ⟨t, rfl, ht ▸ .declared⟩
  exact bind_of_ok hread

theorem named_persists {x : String} {t : Token} (ht : t.kind = .identifier x) (ts : List Token) :
    Persists (fun _ => named x) (t :: ts) (named x (t :: ts)) := by
  cases ts with
  | nil =>
    simp only [named, expressionStmt_name ht]
    exact .inl rfl
  | cons u ts =>
    simp only [named]
    split
    next y hu =>
      refine (declaration_steady _ (Nat.lt_succ_self _)).second ⟨[], declaration_name ht⟩ ?_
      intro _ us
      simp only [named, hu]
    next hu =>
      have hsecond : Persists (fun _ us => named x (t :: us)) (u :: ts) (assigned x ts) :=
        (assigned_steady x ts (Nat.lt_succ_self _)).behind fun _ us => by simp only [named, hu]
      exact hsecond.behind fun _ _ => rfl
    next =>
      refine (expressionStmt_steady _ (Nat.lt_succ_self _)).second ⟨[], expressionStmt_name ht⟩ ?_
      intro _ us
      simp only [named]

variable {stmt : Parse Stmt} {stmt' : Nat → Parse Stmt} (hstmt : Steady n stmt stmt')
  (hsound : Sound stmt Statement) (hsound' : ∀ i, Sound (stmt' i) Statement)

include hstmt hsound hsound'

theorem block_steady : Steady (n + 1) (braced stmt) (fun i => braced (stmt' i)) :=
  braced_steady hstmt hsound hsound' statement_ne_nil

theorem definition_steady : Steady (n + 1) (definition stmt) (fun i => definition (stmt' i)) :=
  (expect_steady .defWord).bind fun _ => identifier_steady.bind fun name =>
    (expect_steady .leftParen).bind fun _ =>
    (parenList_steady identifier_steady identifier_sound fun _ => identifier_sound).bind fun params =>
    (block_steady hstmt hsound hsound').bind fun body => pure_steady (Stmt.define name params body)

theorem guarded_steady (node : Expr → List Stmt → Stmt) :
    Steady (n + 1) (guarded node stmt) (fun i => guarded node (stmt' i)) :=
  (expression_steady _).bind fun e => (block_steady hstmt hsound hsound').bind fun body =>
    pure_steady (node e body)

theorem statementWith_steady :
    Steady (n + 1) (statementWith stmt) (fun i => statementWith (stmt' i)) := by
  intro ts hlength
  cases ts with
  | nil => exact .inl rfl
  | cons t ts =>
    have hshort : ts.length < n + 1 := Nat.lt_of_succ_lt hlength
    -- All inputs to be compared start with `t`, so they all lead to the same kind of statement.
    have hfirst {q : Nat → Parse Stmt} {r : Parsed Stmt} (h : Persists q (t :: ts) r)
        (hq : ∀ i us, statementWith (stmt' i) (t :: us) = q i (t :: us)) :
        Persists (fun i => statementWith (stmt' i)) (t :: ts) r := by
      refine h.congr fun i us hus => ?_
      obtain ⟨us, rfl⟩ := List.head?_eq_some_iff.1 hus
      exact hq i us
    simp only [statementWith]
    split
    next ht =>
      exact hfirst ((block_steady hstmt hsound hsound' (t :: ts) hlength).map Stmt.block) fun i us => by
        simp only [statementWith, ht]
    next ht =>
      exact (pure_persists Stmt.skip ts).behind fun i us => by simp only [statementWith, ht]; rfl
    next ht =>
      exact hfirst (definition_steady hstmt hsound hsound' (t :: ts) hlength) fun i us => by
        simp only [statementWith, ht]
    next ht =>
      exact (guarded_steady hstmt hsound hsound' .when ts hshort).behind fun i us => by
        simp only [statementWith, ht]
    next ht =>
      exact (guarded_steady hstmt hsound hsound' .loop ts hshort).behind fun i us => by
        simp only [statementWith, ht]
    next ht =>
      exact (returned_steady ts hshort).behind fun i us => by simp only [statementWith, ht]
    next ht =>
      exact hfirst (declaration_steady (t :: ts) hlength) fun i us => by
        simp only [statementWith, ht]
    next ht => exact hfirst (named_persists ht ts) fun i us => by simp only [statementWith, ht]
    next =>
      exact hfirst (expressionStmt_steady (t :: ts) hlength) fun i us => by
        simp only [statementWith]

end Statements

theorem statementAt_steady (n : Nat) {depth : Nat} (h : n ≤ depth) :
    Steady n (statementAt depth) (fun i => statementAt (i + n)) := by
  induction n generalizing depth with
  | zero => exact fun ts hlength => absurd hlength (Nat.not_lt_zero _)
  | succ n ih =>
    cases depth with
    | zero => omega
    | succ depth =>
      exact statementWith_steady (ih (Nat.le_of_succ_le_succ h)) (statementAt_sound depth)
        fun i => statementAt_sound (i + n)

theorem statement_steady (n : Nat) : Steady n statement (fun _ => statement) :=
  steady_of_levels (fun n _ h => statementAt_steady n h) n

/-! ## Headers -/

section Headers

variable {n : Nat}

theorem untyped_steady (returns : Option String) :
    Steady n (untyped returns) (fun _ => untyped returns) :=
  identifier_steady.bind fun name => (expect_steady .leftParen).bind fun _ =>
    (parenList_steady typeName_steady typeName_sound fun _ => typeName_sound).bind fun types =>
    (expect_steady .semicolon).bind fun _ => pure_steady (⟨name, types, returns⟩ : Tremolo.Signature)

theorem untyped_name {x : String} {t : Token} (ht : t.kind = .identifier x) :
    untyped none [t] = .fail .unexpectedEnd [] := by
  have hread : identifier [t] = .ok x [] := identifier_eq_ok.2 ⟨t, rfl, ht⟩
  exact bind_of_ok hread

/-- Reads a signature that has a return type. -/
def typed : Parse Tremolo.Signature := do
  let type ← typeName
  untyped (some type)

theorem typed_steady : Steady n typed (fun _ => typed) :=
  typeName_steady.bind fun type => untyped_steady (some type)

theorem typed_name {x : String} {t : Token} (ht : t.kind = .identifier x) :
    typed [t] = .fail .unexpectedEnd [] := by
  have hread : typeName [t] = .ok x [] := typeName_eq_ok.2 ⟨t, rfl, ht ▸ .declared⟩
  exact bind_of_ok hread

theorem signature_eq_ite (ts : List Token) :
    signature ts = if startsWithType ts then typed ts else untyped none ts := by
  rw [signature_eq]
  split
  next h =>
    have hreturns : returnType ts = (typeName ts).map some := if_pos h
    unfold typed
    cases hread : typeName ts with
    | ok type rest =>
      rw [hread] at hreturns
      rw [bind_of_ok hreturns, bind_of_ok hread]
    | fail e rest =>
      rw [hread] at hreturns
      rw [bind_of_fail hreturns, bind_of_fail hread]
  next h =>
    have hreturns : returnType ts = .ok none ts := if_neg h
    rw [bind_of_ok hreturns]

/-- Unless it is a name, the first token tells whether there is a return type. -/
theorem startsWithType_cons {t : Token} (ht : ∀ x, t.kind ≠ .identifier x) (us : List Token) :
    startsWithType (t :: us) = startsWithType [t] := by
  cases us with
  | nil => rfl
  | cons u us =>
    cases hk : t.kind with
    | identifier x => exact absurd hk (ht x)
    | _ => simp [startsWithType, hk]

theorem signature_steady : Steady n signature (fun _ => signature) := by
  intro ts hlength
  match ts with
  | [] => exact .inl rfl
  | t :: ts =>
    by_cases hname : ∃ x, t.kind = .identifier x
    · obtain ⟨x, ht⟩ := hname
      cases ts with
      | nil =>
        have hfirst : ¬startsWithType [t] = true := by simp [startsWithType, ht]
        rw [signature_eq_ite, if_neg hfirst, untyped_name ht]
        exact .inl rfl
      | cons u ts =>
        -- Behind a name, the second token decides.
        rw [signature_eq_ite]
        split
        next h =>
          refine (typed_steady _ hlength).second ⟨[], typed_name ht⟩ fun _ us => ?_
          rw [signature_eq_ite, if_pos (show startsWithType (t :: u :: us) = true from h)]
        next h =>
          refine (untyped_steady none _ hlength).second ⟨[], untyped_name ht⟩ fun _ us => ?_
          rw [signature_eq_ite, if_neg (show ¬startsWithType (t :: u :: us) = true from h)]
    · have hfirst := startsWithType_cons fun x hx => hname ⟨x, hx⟩
      rw [signature_eq_ite]
      split
      next h =>
        refine (typed_steady _ hlength).congr fun _ us hus => ?_
        obtain ⟨us, rfl⟩ := List.head?_eq_some_iff.1 hus
        rw [signature_eq_ite, if_pos ((hfirst us).trans ((hfirst ts).symm.trans h))]
      next h =>
        refine (untyped_steady none _ hlength).congr fun _ us hus => ?_
        obtain ⟨us, rfl⟩ := List.head?_eq_some_iff.1 hus
        rw [signature_eq_ite, if_neg fun hus => h ((hfirst ts).trans ((hfirst us).symm.trans hus))]

theorem module_steady : Steady n moduleUse (fun _ => moduleUse) := by
  have hfunctions : Steady n (braced signature) (fun _ => braced signature) :=
    (braced_steady signature_steady signature_sound (fun _ => signature_sound) signature_ne_nil).mono
      (Nat.le_succ n)
  exact identifier_steady.bind fun name => hfunctions.bind fun functions =>
    pure_steady (⟨name, functions⟩ : ModuleUse)

theorem headerTypes_steady : Steady n headerTypes (fun _ => headerTypes) :=
  (expect_steady .typesWord).bind fun _ => (expect_steady .colon).bind fun _ =>
    names_steady.bind fun names => (expect_steady .semicolon).bind fun _ => pure_steady names

theorem headerModules_steady : Steady n headerModules (fun _ => headerModules) := by
  have hmodules : Steady n (braced moduleUse) (fun _ => braced moduleUse) :=
    (braced_steady module_steady module_sound (fun _ => module_sound) module_ne_nil).mono
      (Nat.le_succ n)
  exact (expect_steady .modulesWord).bind fun _ => hmodules

theorem header_steady : Steady n header (fun _ => header) :=
  (expect_steady .declarationsWord).bind fun _ => (expect_steady .leftBrace).bind fun _ =>
    (headerTypes_steady.ifNext (pure_steady [])).bind fun types =>
    (headerModules_steady.ifNext (pure_steady [])).bind fun modules =>
    (expect_steady .rightBrace).bind fun _ => pure_steady (⟨types, modules⟩ : Header)

end Headers

/-! ## Programs -/

theorem program_persists (ts : List Token) : Persists (fun _ => program) ts (program ts) := by
  have hhead : Steady (ts.length + 1) (ifNext .declarationsWord (some <$> header) (pure none))
      (fun _ => ifNext .declarationsWord (some <$> header) (pure none)) :=
    (header_steady.bind fun h => pure_steady (some h)).ifNext (pure_steady none)
  have hbody := many_steady (statement_steady (ts.length + 1)) statement_sound
    (fun _ => statement_sound) (fun _ => true) statement_ne_nil
  exact (hhead.bind fun head => hbody.bind fun body =>
    pure_steady (⟨head, body⟩ : Tremolo.Program)) ts (Nat.lt_succ_self _)

/-- What the parser has to say of tokens that are no program. -/
theorem program_fails {ts rest : List Token} {e : Error} (h : program ts = .fail e rest) :
    e = .unexpectedEnd ∨ ∃ front t back expected, ts = front ++ t :: back ∧
      e = .unexpectedToken t.line expected t.kind ∧
      ∀ back', ∃ rest, program (front ++ t :: back') = .fail e rest := by
  have hpersists := program_persists ts
  rw [h] at hpersists
  refine hpersists.imp_right fun ⟨front, t, back, expected, hts, he, hfail⟩ => ?_
  exact ⟨front, t, back, expected, hts, he, hfail 0⟩

/-- Nothing that starts with refused tokens is a program. -/
theorem not_viable_of_refused {front : List Token} {t : Token} {e : Error}
    (hfail : ∀ back, ∃ rest, program (front ++ t :: back) = .fail e rest) :
    ¬Viable (kinds (front ++ [t])) := by
  rintro ⟨more, p, hp⟩
  obtain ⟨back, rfl⟩ : ∃ back : List Token, kinds back = more :=
    ⟨more.map (⟨·, "", 1, 1⟩), by simp [kinds, Function.comp_def]⟩
  have hread : program (front ++ t :: back) = .ok p [] := by
    apply program_complete
    simpa using hp
  obtain ⟨rest, hrest⟩ := hfail back
  rw [hread] at hrest
  cases hrest

/-- The parser stops at the first token that no program has there. -/
theorem refused_first {ts front back : List Token} {t : Token} {e : Error} {expected : Expected}
    (hts : ts = front ++ t :: back) (he : e = .unexpectedToken t.line expected t.kind)
    (hfail : ∀ back', ∃ rest, program (front ++ t :: back') = .fail e rest) :
    ∃ front t back expected, ts = front ++ t :: back ∧
      e = .unexpectedToken t.line expected t.kind ∧
      Viable (kinds front) ∧ ¬Viable (kinds (front ++ [t])) := by
  -- Run on `front` alone, the parser accepts, misses more, or refuses a token further in front; that
  -- one it then also refuses in `ts`, with the same error.
  induction hn : front.length using Nat.strongRecOn generalizing front t back expected with
  | ind n ih =>
    have hdead := not_viable_of_refused hfail
    cases hread : program front with
    | ok p rest =>
      refine ⟨front, t, back, expected, hts, he, ⟨[], p, ?_⟩, hdead⟩
      rw [List.append_nil]
      exact (program_sound hread).1
    | fail e' rest =>
      rcases program_fails hread with rfl | ⟨front', t', back', expected', rfl, he', hfail'⟩
      · exact ⟨front, t, back, expected, hts, he, program_completes.ends hread, hdead⟩
      · obtain ⟨rest₁, h₁⟩ := hfail back
        obtain ⟨rest₂, h₂⟩ := hfail' (back' ++ t :: back)
        simp only [List.append_assoc, List.cons_append] at hts h₁
        obtain rfl : e' = e := by
          rw [h₁] at h₂
          cases h₂
          rfl
        refine ih front'.length ?_ hts he' hfail' rfl
        rw [← hn, List.length_append, List.length_cons]
        omega

end Tremolo.Parse

namespace Tremolo

open Grammar

theorem Grammar.Viable.of_append {ks ks' : List TokenKind} (h : Viable (ks ++ ks')) : Viable ks := by
  obtain ⟨more, p, hp⟩ := h
  exact ⟨ks' ++ more, p, by rwa [← List.append_assoc]⟩

theorem parse_eq_error {ts : List Token} {e : Error} :
    (Parser.parse ⟨ts⟩).1 = .error e ↔ ∃ rest, Parse.program ts = .fail e rest := by
  unfold Parser.parse
  cases Parse.program ts with
  | ok p rest => simp
  | fail e' rest => simp

theorem viable_of_unexpectedEnd {ts : List Token}
    (h : (Parser.parse ⟨ts⟩).1 = .error .unexpectedEnd) : Viable (kinds ts) := by
  obtain ⟨rest, hread⟩ := parse_eq_error.1 h
  exact Parse.program_completes.ends hread

theorem exists_refused_of_unexpectedToken {ts : List Token} {line : Nat} {expected : Expected}
    {got : TokenKind} (h : (Parser.parse ⟨ts⟩).1 = .error (.unexpectedToken line expected got)) :
    ∃ front t back, ts = front ++ t :: back ∧ line = t.line ∧ got = t.kind ∧
      Viable (kinds front) ∧ ¬Viable (kinds (front ++ [t])) := by
  obtain ⟨rest, hread⟩ := parse_eq_error.1 h
  rcases Parse.program_fails hread with ⟨⟨⟩⟩ | ⟨front, t, back, _, hts, he, hfail⟩
  obtain ⟨front, t, back, _, hts, he, hviable, hdead⟩ := Parse.refused_first hts he hfail
  rw [Error.unexpectedToken.injEq] at he
  exact ⟨front, t, back, hts, he.1, he.2.2, hviable, hdead⟩

theorem not_viable_of_unexpectedToken {ts : List Token} {line : Nat} {expected : Expected}
    {got : TokenKind} (h : (Parser.parse ⟨ts⟩).1 = .error (.unexpectedToken line expected got)) :
    ¬Viable (kinds ts) := by
  obtain ⟨front, t, back, rfl, -, -, -, hdead⟩ := exists_refused_of_unexpectedToken h
  intro hviable
  apply hdead
  rw [List.append_cons, kinds_append] at hviable
  exact hviable.of_append

/-- The parser gives a program, misses more or refuses a token. -/
theorem parse_cases (ts : List Token) :
    (∃ p, (Parser.parse ⟨ts⟩).1 = .ok p) ∨ (Parser.parse ⟨ts⟩).1 = .error .unexpectedEnd ∨
      ∃ line expected got, (Parser.parse ⟨ts⟩).1 = .error (.unexpectedToken line expected got) := by
  cases hread : (Parser.parse ⟨ts⟩).1 with
  | ok p => exact .inl ⟨p, rfl⟩
  | error e =>
    obtain ⟨rest, hprogram⟩ := parse_eq_error.1 hread
    rcases Parse.program_fails hprogram with rfl | ⟨front, t, back, expected, -, rfl, -⟩
    · exact .inr (.inl rfl)
    · exact .inr (.inr ⟨_, _, _, rfl⟩)

/-- Missing tokens are reported for exactly those starts of programs that are not programs themselves,
    and a wrong token for all that is no start of a program; it is the first that makes it so. -/
theorem syntax_errors_located (ts : List Token) (eof : Token) (hts : ∀ t ∈ ts, t.kind ≠ .eof)
    (heof : eof.kind = .eof) :
    (parseTokens (ts ++ [eof]) = .error .unexpectedEnd ↔
      Viable (kinds ts) ∧ ¬∃ p, Grammar.Program (kinds ts) p) ∧
    ((∃ line expected got,
        parseTokens (ts ++ [eof]) = .error (.unexpectedToken line expected got)) ↔
      ¬Viable (kinds ts)) ∧
    ∀ line expected got, parseTokens (ts ++ [eof]) = .error (.unexpectedToken line expected got) →
      ∃ i t, ts[i]? = some t ∧ line = t.line ∧ got = t.kind ∧
        (∀ j ≤ i, Viable (kinds (ts.take j))) ∧ ¬Viable (kinds (ts.take (i + 1))) := by
  rw [parseTokens_eq hts heof]
  refine ⟨⟨fun h => ⟨viable_of_unexpectedEnd h, ?_⟩, fun ⟨hviable, hnone⟩ => ?_⟩,
    ⟨fun ⟨line, expected, got, h⟩ => not_viable_of_unexpectedToken h, fun hdead => ?_⟩,
    fun line expected got h => ?_⟩
  · rintro ⟨p, hp⟩
    rw [parse_eq_ok.2 hp] at h
    cases h
  · rcases parse_cases ts with ⟨p, hp⟩ | hend | ⟨line, expected, got, h⟩
    · exact absurd ⟨p, parse_eq_ok.1 hp⟩ hnone
    · exact hend
    · exact absurd hviable (not_viable_of_unexpectedToken h)
  · rcases parse_cases ts with ⟨p, hp⟩ | hend | hrefused
    · exact absurd ⟨[], p, by rw [List.append_nil]; exact parse_eq_ok.1 hp⟩ hdead
    · exact absurd (viable_of_unexpectedEnd hend) hdead
    · exact hrefused
  · obtain ⟨front, t, back, rfl, hline, hgot, hviable, hdead⟩ := exists_refused_of_unexpectedToken h
    refine ⟨front.length, t, by simp, hline, hgot, fun j hj => ?_, ?_⟩
    · -- A start of a start of a program is one, too.
      rw [List.take_append_of_le_length hj]
      rw [← List.take_append_drop j front, kinds_append] at hviable
      exact hviable.of_append
    · have htake : (front ++ t :: back).take (front.length + 1) = front ++ [t] := by
        rw [List.append_cons]
        exact List.take_left' (by simp)
      rwa [htake]

/-- The tokens of `x < y < z;`, each on a line of its own. -/
def Misplaced.tokens : List Token :=
  [⟨.identifier "x", "x", 1, 1⟩, ⟨.lt, "<", 2, 1⟩, ⟨.identifier "y", "y", 3, 1⟩, ⟨.lt, "<", 4, 1⟩,
    ⟨.identifier "z", "z", 5, 1⟩, ⟨.semicolon, ";", 6, 1⟩]

open Misplaced in
theorem syntax_errors_located_misplaced :
    (∀ t ∈ tokens, t.kind ≠ .eof) ∧
      parseTokens (tokens ++ [⟨.eof, "", 6, 2⟩]) =
        .error (.unexpectedToken 4 (.token .semicolon) .lt) ∧
      Viable [.identifier "x", .lt, .identifier "y"] ∧
      ¬Viable [.identifier "x", .lt, .identifier "y", .lt] := by
  have hts : ∀ t ∈ tokens, t.kind ≠ .eof := by simp [tokens]
  have hread : parseTokens (tokens ++ [⟨.eof, "", 6, 2⟩]) =
      .error (.unexpectedToken 4 (.token .semicolon) .lt) := rfl
  obtain ⟨i, t, ht, hline, -, hbefore, hafter⟩ :=
    (syntax_errors_located tokens ⟨.eof, "", 6, 2⟩ hts rfl).2.2 _ _ _ hread
  -- Only the second comparison sign is on line 4.
  obtain rfl : i = 3 := by
    rcases i with _ | _ | _ | _ | _ | _ | i <;> simp [tokens] at ht <;> subst ht <;> cases hline
    rfl
  exact ⟨hts, hread, hbefore 3 (Nat.le_refl 3), hafter⟩

end Tremolo
