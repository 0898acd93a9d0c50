import Mathlib
import Tremolo.Proofs.Run.Frame
import Tremolo.Proofs.Run.Observation

/-! # The shape of an execution

What a run that succeeds reports has a shape that can be read off the program: a result for each
expression statement at top level, and a global variable for each name in a declaration at top level.

Blocks, loops and calls stay in their frame (`EvalM.eval_stays`), so a statement declares nothing but
its own names (`evalStmt_declares`); the rest is an induction on the statements that have been run. -/

namespace Tremolo

/-! ## Shape of a program -/

/-- The names of the variables that a statement declares in the scope it is executed in. -/
def Stmt.variableNames : Stmt → List String
  | .declare _ names => names
  | _ => []

def Stmt.isExpression : Stmt → Bool
  | .expr _ => true
  | _ => false

/-- The places of the expression statements among statements. -/
def expressionPlaces (body : List Stmt) : List Nat :=
  (List.range body.length).filter fun k => (body[k]?).any Stmt.isExpression

theorem expressionPlaces_concat (body : List Stmt) (s : Stmt) :
    expressionPlaces (body ++ [s]) =
      expressionPlaces body ++ if s.isExpression then [body.length] else [] := by
  have hfront : ∀ k ∈ List.range body.length,
      ((body ++ [s])[k]?).any Stmt.isExpression = (body[k]?).any Stmt.isExpression := by
    intro k hk
    rw [List.getElem?_append_left (List.mem_range.1 hk)]
  have hlast : (body ++ [s])[body.length]? = some s := by simp
  rw [expressionPlaces, List.length_append, List.length_singleton, List.range_succ, List.filter_append,
    List.filter_congr hfront, List.filter_singleton, hlast, Option.any_some, Bool.cond_eq_ite]
  rfl

/-! ## Variables of a scope -/

/-- The name of a symbol that is a variable. -/
def Symbol.variableName? : Symbol → Option String
  | .variable v => some v.name
  | _ => none

def Scope.variableNames (a : Scope) : List String :=
  a.symbols.values.filterMap Symbol.variableName?

theorem EntriesFramed.variableNames {old now : List (String × Symbol)}
    (h : EntriesFramed False old now) :
    (now.map (·.2)).filterMap Symbol.variableName? = (old.map (·.2)).filterMap Symbol.variableName? := by
  induction h with
  | @added new hnew =>
    cases new with
    | nil => rfl
    | cons => exact (hnew (by simp)).elim
  | kept hxy _ ih =>
    cases hxy with
    | same x => simp only [List.map_cons, List.filterMap_cons, ih]
    | stored hname _ _ =>
      simp only [List.map_cons, List.filterMap_cons, Symbol.variableName?, hname, ih]

theorem Scope.variableNames_insert {a : Scope} {x : Symbol} (hnew : a.get? x.name = none) :
    (a.insert x).variableNames = a.variableNames ++ x.variableName?.toList := by
  simp only [variableNames, Table.values, Scope.insert, Table.insert, Table.bind_new hnew, List.map_append,
    List.filterMap_append, List.map_singleton]
  cases h : x.variableName? <;> simp [h]

namespace Environment

/-- The names of the variables in the current scope. -/
def variableNames (env : Environment) : List String :=
  env.variablesHere.map (·.1)

variable {env : Environment}

theorem variableNames_eq {a : Scope} (ha : env.current.bind env.scope? = some a) :
    env.variableNames = a.variableNames := by
  simp only [variableNames, variablesHere, ha, Scope.variableNames, List.map_filterMap]
  refine congrArg (List.filterMap · a.symbols.values) (funext fun x => ?_)
  cases x <;> rfl

namespace Disciplined

variable (h : env.Disciplined)

include h

theorem here : ∃ a, env.scope? (env.depth - 1) = some a ∧ env.variableNames = a.variableNames ∧
    ∀ name, env.lookupHere name = a.get? name := by
  obtain ⟨a, ha⟩ := h.scope?_current
  refine ⟨a, ha, variableNames_eq ?_, fun name => ?_⟩
  · rw [h.top, Option.bind_some, ha]
  · rw [h.lookupHere_eq, ha, Option.bind_some]

theorem variableNames_insert {x : Symbol} (hnew : env.lookupHere x.name = none) :
    (env.insert x).variableNames = env.variableNames ++ x.variableName?.toList := by
  obtain ⟨a, ha, hnames, hhere⟩ := h.here
  have hafter : (env.insert x).current.bind (env.insert x).scope? = some (a.insert x) := by
    rw [h.insert_eq, current_modifyScope, h.top, Option.bind_some, scope?_modifyScope, if_pos rfl, ha]
    rfl
  rw [variableNames_eq hafter, hnames, Scope.variableNames_insert (hhere x.name ▸ hnew)]

/-- A variable is held under its name, so a name that is new is the name of no variable. -/
theorem not_mem_variableNames {name : String} (hnew : env.lookupHere name = none) :
    name ∉ env.variableNames := by
  obtain ⟨a, ha, hnames, hhere⟩ := h.here
  rw [hhere] at hnew
  rw [hnames]
  intro hmem
  obtain ⟨x, hx, hname⟩ := List.mem_filterMap.1 hmem
  obtain ⟨⟨key, y⟩, hentry, rfl⟩ := List.mem_map.1 hx
  have hkey : y.name = key := ((h.fits _ a ha).held key y hentry).1
  have hyname : y.name = name := by
    rcases y with v | _ | _ | _
    · exact Option.some.inj hname
    all_goals cases hname
  have hne := List.lookup_eq_none_iff.1 hnew (key, y) hentry
  simp [← hkey, hyname] at hne

theorem variableNames_of_framed {after : Environment} (hframed : env.Framed False after) :
    after.variableNames = env.variableNames := by
  obtain ⟨a, ha, hnames, -⟩ := h.here
  obtain ⟨b, hb, hab⟩ := hframed.scope _ a ha
  have hafter : after.current.bind after.scope? = some b := by
    rw [hframed.current, h.top, Option.bind_some, hb]
  rw [variableNames_eq hafter, hnames]
  exact (hab.symbols.mono fun hgrows => hgrows.1).variableNames

end Disciplined

/-! ## Declarations -/

/-- `after` has the variables of `before`, and behind them new ones with the given names. -/
structure Declared (new : List String) (before after : Environment) : Prop where
  disciplined : after.Disciplined
  names : after.variableNames = before.variableNames ++ new
  distinct : before.variableNames.Nodup → after.variableNames.Nodup

variable {before now after : Environment}

theorem Declared.refl (h : env.Disciplined) : env.Declared [] env :=
  ⟨h, by simp, id⟩

theorem Declared.trans {new other : List String} (h₁ : before.Declared new now)
    (h₂ : now.Declared other after) : before.Declared (new ++ other) after :=
  ⟨h₂.disciplined, by rw [h₂.names, h₁.names, List.append_assoc], fun h => h₂.distinct (h₁.distinct h)⟩

theorem Disciplined.declared_variable (h : env.Disciplined) {v : Variable}
    (hnew : env.lookupHere v.name = none) : env.Declared [v.name] (env.insert (.variable v)) := by
  have hnames := h.variableNames_insert (x := .variable v) hnew
  refine ⟨h.insert hnew (by simp), hnames, fun hdistinct => ?_⟩
  rw [hnames]
  exact List.nodup_append_comm.1 (List.nodup_cons.2 ⟨h.not_mem_variableNames hnew, hdistinct⟩)

/-- What is no variable adds none. -/
theorem Disciplined.declared_other (h : env.Disciplined) {x : Symbol}
    (hnew : env.lookupHere x.name = none) (hx : x.variableName? = none)
    (hscope : ∀ f, x = .function f → env.current = some f.scope) :
    env.Declared [] (env.insert x) := by
  have hnames : (env.insert x).variableNames = env.variableNames := by
    rw [h.variableNames_insert hnew, hx]
    simp
  exact ⟨h.insert hnew hscope, by simp [hnames], fun hdistinct => hnames ▸ hdistinct⟩

theorem Disciplined.declared_of_framed (h : env.Disciplined) (hafter : after.Disciplined)
    (hframed : env.Framed False after) : env.Declared [] after := by
  have hnames := h.variableNames_of_framed hframed
  exact ⟨hafter, by simp [hnames], fun hdistinct => hnames ▸ hdistinct⟩

end Environment

/-! ## Statements -/

section Statements

variable {host : Host} {n : Machine Environment} (hn : n.scopes.Disciplined)

include hn

theorem evalStmt_disciplined (fuel : Nat) (s : Stmt) :
    (evalStmt fuel s host n).2.scopes.Disciplined := by
  have hkept : n.scopes.Kept (fun _ => True) n.scopes := .refl hn fun _ _ _ _ _ _ _ _ => trivial
  have hagree := (Simulation.disciplined fun _ => True).evalStmt_simulates
    (Tally.showing n.shown host host) fuel n.scopes s n n ⟨⟨rfl, hkept⟩, rfl, rfl, trivial, rfl⟩
  exact hagree.machine.1.2.disciplined

theorem declareVariables_declares (type : ValueType) (names : List String)
    (hdone : (EvalM.declareVariables type names host n).1 = .done ()) :
    n.scopes.Declared names (EvalM.declareVariables type names host n).2.scopes := by
  unfold EvalM.declareVariables at hdone ⊢
  induction names generalizing n with
  | nil => exact .refl hn
  | cons name rest ih =>
    rw [EvalM.each] at hdone ⊢
    have hdeclare := EvalM.declare_eq (.variable (.unset name type)) host n
    cases hnew : ScopeStore.lookupHere n.scopes (Symbol.variable (.unset name type)).name with
    | some _ =>
      simp only [hnew, Option.isSome_some, if_true] at hdeclare
      rw [EvalM.bind_failed hdeclare] at hdone
      cases hdone
    | none =>
      simp only [hnew, Option.isSome_none, Bool.false_eq_true, if_false] at hdeclare
      rw [EvalM.bind_done hdeclare] at hdone ⊢
      have hfirst := hn.declared_variable (v := .unset name type) hnew
      exact hfirst.trans (ih (n := { n with scopes := _ }) hfirst.disciplined hdone)

theorem declare_declares {eval : Expr → EvalM Environment TypedValue}
    {exec : Stmt → EvalM Environment Flow} {rounds : Nat} {type : String} {names : List String}
    {flow : Flow} (hdone : (evalStmtWith eval exec rounds (.declare type names) host n).1 = .done flow) :
    n.scopes.Declared names
      (evalStmtWith eval exec rounds (.declare type names) host n).2.scopes := by
  obtain ⟨t, n', hresolve⟩ := EvalM.done_of_bind hdone
  have hstill : n' = n := by
    rw [← EvalM.resolveType_still type host n, hresolve]
  subst hstill
  rw [evalStmtWith, EvalM.bind_done hresolve] at hdone ⊢
  obtain ⟨_, after, hnames⟩ := EvalM.done_of_bind hdone
  rw [EvalM.bind_done hnames]
  have hdeclared := declareVariables_declares hn t names (by rw [hnames])
  rwa [hnames] at hdeclared

theorem define_declares {eval : Expr → EvalM Environment TypedValue}
    {exec : Stmt → EvalM Environment Flow} {rounds : Nat} {name : String} {params : List String}
    {body : List Stmt} {flow : Flow}
    (hdone : (evalStmtWith eval exec rounds (.define name params body) host n).1 = .done flow) :
    n.scopes.Declared []
      (evalStmtWith eval exec rounds (.define name params body) host n).2.scopes := by
  rw [evalStmtWith, EvalM.ensureUndeclared_bind] at hdone ⊢
  cases hnew : ScopeStore.lookupHere n.scopes name with
  | some _ =>
    rw [hnew, Option.isSome_some, if_pos rfl] at hdone
    cases hdone
  | none =>
    rw [Option.isSome_none, if_neg (by simp), EvalM.bind_done (Machine.currentScope_eq hn)]
    exact hn.declared_other (x := .function ⟨name, params, body, n.scopes.depth - 1⟩) hnew rfl
      (by rintro f ⟨⟩; exact hn.top)

/-- A statement that completes declares its own variables and no others. -/
theorem evalStmt_declares {fuel : Nat} {s : Stmt} {flow : Flow}
    (hdone : (evalStmt fuel s host n).1 = .done flow) :
    n.scopes.Declared s.variableNames (evalStmt fuel s host n).2.scopes := by
  by_cases hs : s.Declares
  · cases fuel with
    | zero => cases hdone
    | succ fuel =>
      cases s with
      | declare type names => exact declare_declares hn hdone
      | define name params body => exact define_declares hn hdone
      | _ => exact hs.elim
  · have hnone : s.variableNames = [] := by
      cases s with
      | declare => exact absurd trivial hs
      | _ => rfl
    rw [hnone]
    have hframed := (EvalM.eval_stays host fuel).2 n.scopes False s hn.isOccupied hs n (.refl _ _)
    exact hn.declared_of_framed (evalStmt_disciplined hn fuel s) hframed.kept

end Statements

/-! ## Programs -/

/-- What is reported of the variables is how they stand at the end. -/
theorem evalProgram_globals {fuel : Nat} {p : Program} {host : Host} {n : Machine Environment}
    {x : Execution} (hdone : (evalProgram fuel p host n).1 = .done x) :
    x.globals = (evalProgram fuel p host n).2.scopes.variablesHere := by
  let rest : EvalM Environment Execution := do
    let results ← evalBody fuel p.body
    return ⟨results, ← EvalM.ask ScopeStore.variablesHere⟩
  have hrest : ∀ n, (rest host n).1 = .done x → x.globals = (rest host n).2.scopes.variablesHere := by
    intro n hdone
    obtain ⟨results, n', hbody⟩ := EvalM.done_of_bind hdone
    have hend : rest host n = (.done ⟨results, n'.scopes.variablesHere⟩, n') := EvalM.bind_done hbody
    rw [hend] at hdone ⊢
    cases hdone
    rfl
  obtain ⟨header, body⟩ := p
  cases header with
  | none => exact hrest n hdone
  | some header =>
    obtain ⟨_, n', hheader⟩ := EvalM.done_of_bind hdone
    have hend : evalProgram fuel ⟨some header, body⟩ host n = rest host n' := EvalM.bind_done hheader
    rw [hend] at hdone ⊢
    exact hrest n' hdone

/-- A statement at the end of a program that completes adds its value to the results. -/
theorem lastly_done {fuel : Nat} {s : Stmt} {x y : Execution} {host : Host} {n : Machine Environment}
    (hdone : (EvalM.lastly fuel s x host n).1 = .done y) :
    ∃ value, (evalStmt fuel s host n).1 = .done (.normal value) ∧
      y.results = x.results ++ value.toList ∧
      (EvalM.lastly fuel s x host n).2.scopes = (evalStmt fuel s host n).2.scopes := by
  simp only [EvalM.lastly, evalBody, evalBodyWith, bind, EvalM.bind] at hdone ⊢
  generalize evalStmt fuel s host n = r at hdone
  obtain ⟨outcome, after⟩ := r
  cases outcome with
  | done flow =>
    rcases flow with (_ | v) | _
    · cases hdone
      exact ⟨none, rfl, by simp, rfl⟩
    · cases hdone
      refine ⟨some v, rfl, by simp, ?_⟩
      cases hecho : host.config.echo <;>
        simp [EvalM.echo, EvalM.bind, EvalM.pure, EvalM.ask, pure, hecho]
    · cases hdone
  | failed | deadScope | outOfFuel => cases hdone

theorem isSome_value {fuel : Nat} {s : Stmt} {host : Host} {n : Machine Environment}
    {value : Option TypedValue} (hdone : (evalStmt fuel s host n).1 = .done (.normal value)) :
    value.isSome = s.isExpression := by
  by_cases hs : ∃ e, s = .expr e
  · obtain ⟨e, rfl⟩ := hs
    rw [evalStmt_expr] at hdone
    obtain ⟨v, n', hvalue⟩ := EvalM.done_of_bind hdone
    rw [EvalM.bind_done hvalue] at hdone
    cases hdone
    rfl
  · have hvalueless := evalStmt_valueless (fun e he => hs ⟨e, he⟩) fuel host n _ hdone
    have hexpression : s.isExpression = false := by
      cases s with
      | expr e => exact absurd ⟨e, rfl⟩ hs
      | _ => rfl
    rw [hexpression]
    cases value with
    | none => rfl
    | some v => exact absurd rfl (hvalueless v)

/-- A header declares no variables. -/
theorem header_declares (fuel : Nat) (header : Option Header) (host : Host) (env : Environment) :
    EvalM.Keeps host (fun n => env.Declared [] n.scopes) (evalProgram fuel ⟨header, []⟩) := by
  refine EvalM.evalProgram_keeps (fun header _ => EvalM.declareHeader_keeps header ?_ ?_) fun _ hn => hn
  · intro n name _ hn hnew
    exact hn.trans (hn.disciplined.declared_other (x := .type name) hnew rfl (by simp))
  · intro n f callable _ _ _ _ _ _ _ _ hn hnew
    exact hn.trans (hn.disciplined.declared_other (x := .external f) hnew rfl (by simp))

namespace Machine

variable {m : Machine Environment} (hm : m.scopes = .empty) (fuel : Nat) (p : Program) (host : Host)

include hm

/-- After the first statements of a program there is a result for each expression among them and a
    variable for each name that they declare.  By induction on their number. -/
theorem run_take_shape (k : Nat) (hk : k ≤ p.body.length) {x : Execution}
    (hx : (m.run fuel ⟨p.header, p.body.take k⟩ host).1 = .done x) :
    List.Forall₂ (fun j v => m.valueAt? fuel p host j = some v) (expressionPlaces (p.body.take k))
      x.results ∧
    Environment.empty.openGlobal.Declared ((p.body.take k).flatMap Stmt.variableNames)
      (m.run fuel ⟨p.header, p.body.take k⟩ host).2.scopes := by
  induction k generalizing x with
  | zero =>
    rw [List.take_zero] at hx ⊢
    rw [run_header_results fuel p.header host _ x hx]
    refine ⟨.nil, header_declares fuel p.header host _ _ ?_⟩
    have hopen : (ScopeStore.openGlobal m.scopes : Environment) = Environment.empty.openGlobal := by
      rw [hm]
      rfl
    rw [fresh, hopen]
    exact .refl Environment.disciplined_openGlobal
  | succ k ih =>
    have hs : p.body[k]? = some p.body[k] := List.getElem?_eq_getElem hk
    have hvalue := valueAt?_eq (m := m) fuel p host hs
    have hkept := run_kept hm fuel ⟨p.header, p.body.take k⟩ host
    rw [List.take_add_one, hs, Option.toList_some, m.run_concat] at hx ⊢
    have hfront := @ih (by omega)
    generalize m.run fuel ⟨p.header, p.body.take k⟩ host = r at hx hkept hvalue hfront
    obtain ⟨outcome, n⟩ := r
    cases outcome with
    | done y =>
      obtain ⟨hresults, hdeclared⟩ := hfront rfl
      obtain ⟨value, hstmt, hadded, hscopes⟩ := lastly_done hx
      refine ⟨?_, ?_⟩
      · -- The statement adds a place exactly if it adds a result.
        rw [expressionPlaces_concat, hadded, List.length_take_of_le (by omega), ← isSome_value hstmt]
        refine List.rel_append hresults ?_
        simp only [Stmt.value?_eq, hstmt, Outcome.value?] at hvalue
        cases value with
        | none => exact .nil
        | some v => exact .cons hvalue .nil
      · rw [List.flatMap_append, List.flatMap_singleton, hscopes]
        exact hdeclared.trans (evalStmt_declares hkept.disciplined hstmt)
    | failed | deadScope | outOfFuel => cases hx

end Machine

/-- The results of a run that succeeds are the values of the expression statements at top level, one for
    each and in order; its global variables are those that the declarations at top level name, in order
    and without repetition. -/
theorem execution_shape (earlier : List (Nat × Program × Host)) (fuel : Nat) (p : Program) (host : Host) :
    let start : Machine Environment := .after earlier
    ∀ x, (start.execute fuel p host).1 = .done x →
      List.Forall₂ (fun k v => start.valueAt? fuel p host k = some v) (expressionPlaces p.body)
        x.results ∧
      x.globals.map (·.1) = p.body.flatMap Stmt.variableNames ∧
      (p.body.flatMap Stmt.variableNames).Nodup := by
  intro start x hx
  have hrun : (start.run fuel p host).1 = .done x := hx
  have hglobals : x.globals = (start.run fuel p host).2.scopes.variablesHere := evalProgram_globals hrun
  have hshape := Machine.run_take_shape (x := x) (Machine.after_scopes earlier) fuel p host p.body.length
    (Nat.le_refl _)
  rw [List.take_length] at hshape
  obtain ⟨hresults, hdeclared⟩ := hshape hrun
  have hnone : Environment.empty.openGlobal.variableNames = [] := by decide
  have hnames : x.globals.map (·.1) = p.body.flatMap Stmt.variableNames := by
    have hvariables := hdeclared.names
    rwa [hnone, List.nil_append, Environment.variableNames, ← hglobals] at hvariables
  refine ⟨hresults, hnames, ?_⟩
  have hdistinct := hdeclared.distinct (by simp [hnone])
  rwa [Environment.variableNames, ← hglobals, hnames] at hdistinct

/-- A program whose inner statements declare and compute as well. -/
def Nested.program : Program :=
  ⟨none, [.declare "NUMBER" ["a", "b"], .define "f" ["a"] [.declare "VAR" ["b"], .expr (.int 1),
      .ret (some (.var "a"))],
    .block [.declare "VAR" ["a", "c"], .expr (.call "f" [.int 2])],
    .expr (.call "f" [.int 3]), .declare "STRING" ["c"], .expr (.int 4)]⟩

def Nested.execution : Execution :=
  ⟨[⟨.number, .int 3⟩, ⟨.number, .int 4⟩], [("a", none), ("b", none), ("c", none)]⟩

open Nested in
theorem execution_shape_nested :
    ((Machine.after [] : Machine Environment).execute 9 program ⟨.empty, {}⟩).1 = .done execution ∧
      List.Forall₂ (fun k v => (Machine.after [] : Machine Environment).valueAt? 9 program ⟨.empty, {}⟩ k =
        some v) [3, 5] execution.results ∧
      execution.globals.map (·.1) = ["a", "b", "c"] := by
  have hdone : ((Machine.after [] : Machine Environment).execute 9 program ⟨.empty, {}⟩).1 =
      .done execution := by cbv
  obtain ⟨hresults, hglobals, -⟩ := execution_shape [] 9 program ⟨.empty, {}⟩ execution hdone
  exact ⟨hdone, hresults, hglobals⟩

end Tremolo
