import Mathlib
import Tremolo.Proofs.Run.Equivariance
import Tremolo.Proofs.Run.Typing

/-! # Names have no meaning

A program with other names runs as the program does, in scopes with other names: every construct of the
language is equivariant (`EvalM.eval_equivariant`), and so is a whole program whose native functions keep
their names (`EvalM.evalProgram_equivariant`).  Variables, functions, types and native functions share
their names, so all of them are renamed at once. -/

namespace Tremolo

variable {r : Renaming}

namespace EvalM

/-! ## Names -/

/-- What a name is bound to is what it was bound to under its former name. -/
theorem lookup_equivariant (name : String) :
    Equivariant r (Option.map (Symbol.relabel r.relabeling))
      (ask fun scopes => ScopeStore.lookup scopes name : EvalM Environment _)
      (ask fun scopes => ScopeStore.lookup scopes (r name)) :=
  .ask fun env => env.lookup_relabel name

theorem ensureUndeclared_equivariant (name : String) :
    Equivariant r id (ensureUndeclared name : EvalM Environment Unit) (ensureUndeclared (r name)) := by
  have hhere : Equivariant r (Option.map (Symbol.relabel r.relabeling))
      (EvalM.ask fun scopes => ScopeStore.lookupHere scopes name : EvalM Environment _)
      (EvalM.ask fun scopes => ScopeStore.lookupHere scopes (r name)) :=
    .ask fun env => env.lookupHere_relabel name
  refine hhere.bind fun found => ?_
  cases found with
  | none => exact .pure ()
  | some _ => exact .fail rfl

theorem insert_equivariant {x : Symbol} (hx : (x.relabel r.relabeling).name = r x.name) :
    Equivariant r id (change fun scopes => ScopeStore.insert scopes x : EvalM Environment Unit)
      (change fun scopes => ScopeStore.insert scopes (x.relabel r.relabeling)) :=
  .change fun env => env.insert_relabel hx

theorem declare_equivariant {x : Symbol} (hx : (x.relabel r.relabeling).name = r x.name) :
    Equivariant r id (declare x : EvalM Environment Unit) (declare (x.relabel r.relabeling)) := by
  unfold declare
  rw [hx]
  exact (ensureUndeclared_equivariant x.name).bind fun _ => insert_equivariant hx

theorem resolveType_equivariant (name : String) :
    Equivariant r (ValueType.rename r) (resolveType name : EvalM Environment ValueType)
      (resolveType (r name)) := by
  refine (lookup_equivariant name).bind fun found => ?_
  rcases found with _ | ⟨_ | declared | _ | _⟩
  case some.type => exact .pure_of_eq (ValueType.ofName_rename r declared)
  all_goals exact .fail rfl

theorem declareVariables_equivariant (type : ValueType) (names : List String) :
    Equivariant r id (declareVariables type names : EvalM Environment Unit)
      (declareVariables (type.rename r) (names.map r)) :=
  .each fun name _ => declare_equivariant (x := .variable (.unset name type)) rfl

theorem readVariable_equivariant (name : String) :
    Equivariant r (TypedValue.rename r) (readVariable name : EvalM Environment TypedValue)
      (readVariable (r name)) := by
  refine (lookup_equivariant name).bind fun found => ?_
  rcases found with _ | ⟨⟨_, _, value⟩ | _ | _ | _⟩
  case some.variable =>
    cases value with
    | none => exact .fail rfl
    | some value => exact .pure value
  all_goals exact .fail rfl

theorem record_equivariant (name : String) (value : TypedValue) :
    Equivariant r id (record name value : EvalM Environment Unit)
      (record (r name) (value.rename r)) := by
  intro host m
  refine ⟨.done (), ?_⟩
  simp only [record]
  split
  · simp [Machine.rename]
  · rfl

theorem assign_equivariant (name : String) (value : TypedValue) :
    Equivariant r id (assign name value : EvalM Environment Unit) (assign (r name) (value.rename r)) := by
  intro host m
  have hassign := m.scopes.assign_matched r name value
  simp only [assign, Bind.bind, EvalM.bind, EvalM.ask]
  change Assignment.Matched _ (ScopeStore.assign m.scopes name value)
    (ScopeStore.assign (m.rename r).scopes (r name) (value.rename r)) at hassign
  generalize ScopeStore.assign m.scopes name value = x at hassign
  generalize ScopeStore.assign (m.rename r).scopes (r name) (value.rename r) = y at hassign
  cases hassign with
  | unbound => exact ⟨.failed rfl, rfl⟩
  | notVariable => exact ⟨.failed rfl, rfl⟩
  | rejected he => exact ⟨.failed he, rfl⟩
  | stored after => exact record_equivariant name value host { m with scopes := after }

/-! ## Headers -/

theorem signatureType_equivariant (module function name : String) :
    Equivariant r (ValueType.rename r) (signatureType module function name : EvalM Environment ValueType)
      (signatureType module function (r name)) := by
  refine (lookup_equivariant name).bind fun found => ?_
  rcases found with _ | ⟨_ | declared | _ | _⟩
  case some.type => exact .pure_of_eq (ValueType.ofName_rename r declared)
  all_goals exact .fail rfl

theorem provided_rename (module : NativeModule) (s : Signature) :
    provided module (s.rename r) = provided module s := by
  simp only [provided, Signature.rename, List.length_map]

theorem bindNative_equivariant (name : String) (callable : NativeFunction) :
    Equivariant r id (bindNative name callable : EvalM Environment Unit) (bindNative name callable) :=
  fun _ _ => ⟨.done (), rfl⟩

/-- A native function is bound under its name, which is therefore to be kept. -/
theorem declareExternal_equivariant (module : NativeModule) {s : Signature} (hs : r s.name = s.name) :
    Equivariant r id (declareExternal module s : EvalM Environment Unit)
      (declareExternal module (s.rename r)) := by
  unfold declareExternal
  rw [provided_rename]
  refine (Equivariant.ofExcept (.refl (provided module s))).bind fun callable => ?_
  refine (Equivariant.collect (signatureType_equivariant module.name s.name) s.parameterTypes).bind
    fun parameters => ?_
  have hrest : ∀ returns : ValueType, Equivariant r id
      (do declare (.external ⟨s.name, parameters, returns⟩); bindNative s.name callable)
      (do declare (.external ⟨s.name, parameters.map (ValueType.rename r), returns.rename r⟩)
          bindNative s.name callable) := fun returns =>
    (declare_equivariant (x := .external ⟨s.name, parameters, returns⟩) hs.symm).bind fun _ =>
      bindNative_equivariant s.name callable
  cases hreturns : s.returnType with
  | none =>
    simp only [Signature.rename, hreturns, Option.map_none]
    exact hrest .null
  | some name =>
    simp only [Signature.rename, hreturns, Option.map_some]
    exact (signatureType_equivariant module.name s.name name).bind hrest

theorem declareModule_equivariant {use : ModuleUse} (huse : ∀ s ∈ use.functions, r s.name = s.name) :
    Equivariant r id (declareModule use : EvalM Environment Unit) (declareModule (use.rename r)) := by
  have hresolve : Equivariant r id
      (askHost fun host => host.registry.resolve? use.name : EvalM Environment _)
      (askHost fun host => host.registry.resolve? use.name) := fun _ _ => ⟨.done _, rfl⟩
  refine hresolve.bind fun found => ?_
  cases found with
  | none => exact .fail rfl
  | some module => exact .each fun s hs => declareExternal_equivariant module (huse s hs)

theorem declareHeader_equivariant {header : Header} (hheader : ∀ name ∈ header.externals, r name = name) :
    Equivariant r id (declareHeader header : EvalM Environment Unit) (declareHeader (header.rename r)) := by
  refine Equivariant.bind (.each fun name _ => declare_equivariant (x := .type name) rfl) fun _ =>
    .each fun use huse => declareModule_equivariant fun s hs => ?_
  exact hheader s.name (List.mem_flatMap.2 ⟨use, huse, List.mem_map_of_mem hs⟩)

/-! ## Calls -/

theorem checkArguments_matched (function function' : String) (position : Nat) (formals : List ValueType)
    (values : List TypedValue) :
    Tremolo.Matched id (checkArguments function position formals values)
      (checkArguments function' position (formals.map (ValueType.rename r))
        (values.map (TypedValue.rename r))) := by
  induction formals generalizing position values with
  | nil => exact .ok ()
  | cons formal formals ih =>
    cases values with
    | nil => exact .ok ()
    | cons value values =>
      simp only [List.map_cons, checkArguments, ValueType.accepts_rename]
      split
      · exact ih (position + 1) values
      · exact .error rfl

theorem accept_matched (f : ExternalFunction) (result : Value) :
    Tremolo.Matched (TypedValue.rename r) (f.accept result) ((f.rename r).accept result) := by
  obtain ⟨name, parameters, returns⟩ := f
  cases returns with
  | null => exact .ok TypedValue.null
  | number | string | var =>
    simp only [ExternalFunction.accept, ExternalFunction.rename, ValueType.rename]
    split
    · exact .ok (TypedValue.mk _ result)
    · exact .error rfl
  | named n =>
    -- A declared type accepts whatever it is put beside.
    have haccepts : ∀ n, (ValueType.named n).accepts ⟨.named n, result⟩ = true :=
      fun n => ValueType.accepts_named.2 rfl
    simp only [ExternalFunction.accept, ExternalFunction.rename, ValueType.rename, haccepts, if_true]
    exact .ok (TypedValue.mk (.named n) result)

section Evaluators

variable {eval eval' : Expr → EvalM Environment TypedValue} {exec exec' : Stmt → EvalM Environment Flow}
  (heval : ∀ e, Equivariant r (TypedValue.rename r) (eval e) (eval' (e.rename r)))
  (hexec : ∀ s, Equivariant r (Flow.rename r) (exec s) (exec' (s.rename r)))

include heval in
theorem arguments_equivariant (function function' : String) (formals : List ValueType)
    (args : List Expr) :
    Equivariant r (List.map (TypedValue.rename r)) (arguments eval function formals args)
      (arguments eval' function' (formals.map (ValueType.rename r)) (renameArgs r args)) := by
  unfold arguments
  rw [renameArgs_eq_map, List.length_map, List.length_map]
  split
  · exact .fail rfl
  · refine (Equivariant.collect heval args).bind fun values => ?_
    exact (Equivariant.ofExcept (checkArguments_matched ..)).bind fun _ => .pure values

theorem bindParameter_equivariant (param : String × TypedValue) :
    Equivariant r id (bindParameter param : EvalM Environment Unit)
      (bindParameter (param.map r (TypedValue.rename r))) :=
  (ensureUndeclared_equivariant param.1).bind fun _ =>
    insert_equivariant (x := .variable ⟨param.1, .var, some param.2⟩) rfl

include hexec in
theorem applyFunction_equivariant (f : FunctionDef) (values : List TypedValue) :
    Equivariant r (TypedValue.rename r) (applyFunction exec f values)
      (applyFunction exec' (f.rename r) (values.map (TypedValue.rename r))) := by
  have hzip : (f.rename r).params.zip (values.map (TypedValue.rename r)) =
      (f.params.zip values).map (Prod.map r (TypedValue.rename r)) := List.zip_map
  have hbody : Equivariant r (Flow.rename r)
      (do each bindParameter (f.params.zip values); sequence exec f.body)
      (do each bindParameter ((f.rename r).params.zip (values.map (TypedValue.rename r)))
          sequence exec' (f.rename r).body) := by
    rw [hzip]
    exact (Equivariant.each fun param _ => bindParameter_equivariant param).bind fun _ =>
      .sequence hexec f.body
  refine (hbody.inScope f.name .function f.scope).bind fun flow => ?_
  cases flow with
  | normal _ => exact .pure TypedValue.null
  | returned value => exact .pure value

theorem boundNative_equivariant (name : String) :
    Equivariant r id (boundNative name : EvalM Environment NativeFunction) (boundNative name) := by
  intro host m
  have hnatives : (m.rename r).natives = m.natives := rfl
  simp only [boundNative, hnatives]
  cases m.natives.get? name with
  | none => exact ⟨.failed rfl, rfl⟩
  | some callable => exact ⟨.done callable, rfl⟩

/-- A native function is given the bare values, which have no names. -/
theorem invoke_equivariant (f : ExternalFunction) (callable : NativeFunction) (args : List TypedValue) :
    Equivariant r id (invoke f callable args : EvalM Environment Value)
      (invoke (f.rename r) callable (args.map (TypedValue.rename r))) := by
  intro host m
  have hargs : (args.map (TypedValue.rename r)).map (·.value) = args.map (·.value) := by simp
  have hserial : (m.rename r).calls.size = m.calls.size := by simp [Machine.rename]
  simp only [invoke, hargs, hserial]
  cases hcall : callable.call m.calls.size (args.map (·.value)) with
  | ok value => exact ⟨.done value, by simp [Machine.rename, NativeCall.rename]⟩
  | error e => exact ⟨.failed rfl, by simp [Machine.rename, NativeCall.rename]⟩

theorem applyExternal_equivariant (f : ExternalFunction) (values : List TypedValue) :
    Equivariant r (TypedValue.rename r) (applyExternal f values : EvalM Environment TypedValue)
      (applyExternal (f.rename r) (values.map (TypedValue.rename r))) :=
  (boundNative_equivariant f.name).bind fun callable =>
    (invoke_equivariant f callable values).bind fun result => .ofExcept (accept_matched f result)

include heval hexec

theorem call_equivariant (name : String) (args : List Expr) :
    Equivariant r (TypedValue.rename r) (call eval exec name args)
      (call eval' exec' (r name) (renameArgs r args)) := by
  refine (lookup_equivariant name).bind fun found => ?_
  rcases found with _ | ⟨_ | _ | f | f⟩
  case some.function =>
    -- Parameters have the type of any value, which has no name to replace.
    have hformals : (f.rename r).params.map (fun _ => ValueType.var) =
        (f.params.map fun _ => ValueType.var).map (ValueType.rename r) := by
      simp only [FunctionDef.rename, List.map_map]
      rfl
    have hargs := arguments_equivariant heval f.name (f.rename r).name (f.params.map fun _ => .var) args
    rw [← hformals] at hargs
    exact hargs.bind fun values => applyFunction_equivariant hexec f values
  case some.external =>
    exact (arguments_equivariant heval _ _ f.parameterTypes args).bind fun values =>
      applyExternal_equivariant f values
  all_goals exact .fail rfl

/-! ## Expressions and statements -/

theorem evalExprWith_equivariant (e : Expr) :
    Equivariant r (TypedValue.rename r) (evalExprWith eval exec e)
      (evalExprWith eval' exec' (e.rename r)) := by
  cases e with
  | int n => exact .pure (TypedValue.mk .number (.int n))
  | float x => exact .pure (TypedValue.mk .number (.float x))
  | string s => exact .pure (TypedValue.mk .string (.string s))
  | bool b => exact .pure (TypedValue.bool b)
  | var name => exact readVariable_equivariant name
  | unary op operand =>
    exact (heval operand).bind fun v => .ofExcept (op.apply_matched r v)
  | binary op left right =>
    exact (heval left).bind fun v => (heval right).bind fun w => .ofExcept (op.apply_matched r v w)
  | cond op left right =>
    refine (heval left).bind fun v => ?_
    rw [TypedValue.value_rename]
    cases op.shortcut? v.value with
    | some b => exact .pure (TypedValue.bool b)
    | none => exact (heval right).bind fun w => .ofExcept (op.apply_matched r v w)
  | call name args => exact call_equivariant heval hexec name args

theorem evalStmtWith_equivariant (rounds : Nat) (s : Stmt) :
    Equivariant r (Flow.rename r) (evalStmtWith eval exec rounds s)
      (evalStmtWith eval' exec' rounds (s.rename r)) := by
  have hblock := fun body => (Equivariant.sequence hexec body).inBlock
  have hnone : Equivariant r (Flow.rename r) (pure (Flow.normal none) : EvalM Environment Flow)
      (pure (Flow.normal none)) := .pure (Flow.normal none)
  cases s with
  | skip => exact hnone
  | block body => exact hblock body
  | declare type names =>
    exact (resolveType_equivariant type).bind fun type =>
      (declareVariables_equivariant type names).bind fun _ => hnone
  | define name params body =>
    exact (ensureUndeclared_equivariant name).bind fun _ => currentScope_equivariant.bind fun scope =>
      (insert_equivariant (x := .function ⟨name, params, body, scope⟩) rfl).bind fun _ => hnone
  | assign name value =>
    exact (heval value).bind fun v => (assign_equivariant name v).bind fun _ => hnone
  | when condition body =>
    refine (heval condition).truth.bind fun holds => ?_
    cases holds with
    | true => exact hblock body
    | false => exact hnone
  | loop condition body => exact (heval condition).truth.iterate (hblock body) rounds
  | ret value =>
    have hinside : Equivariant r id (EvalM.ask ScopeStore.inFunction : EvalM Environment Bool)
        (EvalM.ask ScopeStore.inFunction) := .ask fun env => env.inFunction_relabel
    refine hinside.bind fun inside => ?_
    cases inside with
    | false => exact .fail rfl
    | true =>
      cases value with
      | none => exact .pure (Flow.returned .null)
      | some e => exact (heval e).bind fun v => .pure (Flow.returned v)
  | expr e => exact (heval e).bind fun v => .pure (Flow.normal (some v))

end Evaluators

/-- Expressions and statements are evaluated under other names as they were.  By induction on fuel, for
    both together. -/
theorem eval_equivariant (r : Renaming) (fuel : Nat) :
    (∀ e, Equivariant r (TypedValue.rename r) (evalExpr fuel e) (evalExpr fuel (e.rename r))) ∧
    ∀ s, Equivariant r (Flow.rename r) (evalStmt fuel s) (evalStmt fuel (s.rename r)) := by
  induction fuel with
  | zero => exact ⟨fun _ => .outOfFuel, fun _ => .outOfFuel⟩
  | succ fuel ih =>
    obtain ⟨hexpr, hstmt⟩ := ih
    exact ⟨evalExprWith_equivariant hexpr hstmt, evalStmtWith_equivariant hexpr hstmt fuel⟩

/-! ## Programs -/

theorem echo_equivariant (value : TypedValue) :
    Equivariant r id (echo value : EvalM Environment Unit) (echo (value.rename r)) := by
  intro host m
  refine ⟨.done (), ?_⟩
  simp only [echo, TypedValue.text_rename]
  split <;> rfl

theorem evalBodyWith_equivariant {exec exec' : Stmt → EvalM Environment Flow}
    (hexec : ∀ s, Equivariant r (Flow.rename r) (exec s) (exec' (s.rename r))) (body : List Stmt) :
    Equivariant r (List.map (TypedValue.rename r)) (evalBodyWith exec body)
      (evalBodyWith exec' (renameBody r body)) := by
  induction body with
  | nil => exact .pure []
  | cons s rest ih =>
    refine (hexec s).bind fun flow => ?_
    rcases flow with (_ | value) | _
    · exact ih
    · exact (echo_equivariant value).bind fun _ => ih.bind fun values => .pure (value :: values)
    · exact .fail rfl

theorem evalProgram_equivariant (fuel : Nat) {p : Program} (hp : ∀ name ∈ p.externals, r name = name) :
    Equivariant r (Execution.rename r) (evalProgram fuel p) (evalProgram fuel (p.rename r)) := by
  obtain ⟨header, body⟩ := p
  have hglobals : Equivariant r (List.map (Prod.map r (Option.map (TypedValue.rename r))))
      (EvalM.ask ScopeStore.variablesHere : EvalM Environment _) (EvalM.ask ScopeStore.variablesHere) :=
    .ask fun env => env.variablesHere_relabel fun _ => rfl
  have hrest : Equivariant r (Execution.rename r)
      (do let results ← evalBodyWith (evalStmt fuel) body
          return ⟨results, ← EvalM.ask ScopeStore.variablesHere⟩)
      (do let results ← evalBodyWith (evalStmt fuel) (renameBody r body)
          return ⟨results, ← EvalM.ask ScopeStore.variablesHere⟩) :=
    (evalBodyWith_equivariant (eval_equivariant r fuel).2 body).bind fun results =>
      hglobals.bind fun globals => .pure (Execution.mk results globals)
  cases header with
  | none => exact hrest
  | some header => exact (declareHeader_equivariant hp).bind fun _ => hrest

end EvalM

/-- The machine before a program starts has nothing in it that could be renamed. -/
theorem Machine.rename_start (r : Renaming) {m : Machine Environment} (hm : m.scopes = .empty) :
    (fresh (ScopeStore.openGlobal m.scopes)).rename r = fresh (ScopeStore.openGlobal m.scopes) := by
  have hscopes : (ScopeStore.openGlobal m.scopes : Environment).relabel r.relabeling =
      ScopeStore.openGlobal m.scopes := by
    rw [hm]
    exact Environment.openGlobal_rename r
  simp [Machine.rename, fresh, hscopes]

/-- A program with other names gives the results and the records that the program gives, with other names,
    or an error of the same kind. -/
theorem execute_rename (earlier : List (Nat × Program × Host)) (fuel : Nat) (p : Program) (host : Host)
    (r : Renaming) (hp : ∀ name ∈ p.externals, r name = name) :
    let start : Machine Environment := .after earlier
    let run := start.execute fuel p host
    let renamed := start.execute fuel (p.rename r) host
    (∀ x, run.1 = .done x → renamed.1 = .done (x.rename r)) ∧
    (∀ e, run.1 = .failed e → ∃ e', renamed.1 = .failed e' ∧ e'.kind = e.kind) ∧
    (run.1 = .outOfFuel → renamed.1 = .outOfFuel) ∧
    renamed.2.trace = run.2.trace.map (Prod.map r (TypedValue.rename r)) ∧
    renamed.2.shown = run.2.shown := by
  intro start run renamed
  have hmatched := EvalM.evalProgram_equivariant fuel hp host (.fresh (ScopeStore.openGlobal start.scopes))
  rw [Machine.rename_start r (Machine.after_scopes earlier)] at hmatched
  obtain ⟨houtcome, hmachine⟩ : Machine.Matched r (Execution.rename r) (start.run fuel p host)
    (start.run fuel (p.rename r) host) := hmatched
  replace houtcome : run.1.Matched (Execution.rename r) renamed.1 := houtcome
  refine ⟨fun x hx => ?_, fun e he => ?_, fun hfuel => ?_, ?_, ?_⟩
  · rw [hx] at houtcome
    generalize renamed.1 = outcome at houtcome
    cases houtcome
    rfl
  · rw [he] at houtcome
    generalize renamed.1 = outcome at houtcome
    cases houtcome with
    | @failed _ e' hkind => exact ⟨e', rfl, hkind⟩
  · rw [hfuel] at houtcome
    generalize renamed.1 = outcome at houtcome
    cases houtcome
    rfl
  · exact congrArg Machine.trace hmachine
  · have hshown := congrArg Machine.shown hmachine
    exact hshown

/-- Exchanges two names. -/
def Renaming.swap (a b : String) (ha : a.map Char.toUpper ∉ TokenKind.typeWords)
    (hb : b.map Char.toUpper ∉ TokenKind.typeWords) : Renaming where
  toFun := Equiv.swap a b
  injective := (Equiv.swap a b).injective
  builtin name hname := by
    have hne : ∀ c, c.map Char.toUpper ∉ TokenKind.typeWords → name ≠ c :=
      fun c hc heq => hc (heq ▸ hname)
    exact Equiv.swap_apply_of_ne_of_ne (hne a ha) (hne b hb)

/-- The type of sounds and the variable that holds one exchange their names. -/
def Player.exchange : Renaming :=
  .swap "SOUND" "s" (by decide +kernel) (by decide +kernel)

open Player in
theorem execute_rename_player :
    (∀ name ∈ program.externals, exchange name = name) ∧
      ((Machine.after [] : Machine Environment).execute 9 (program.rename exchange) host).1 =
        .done ⟨[⟨.string, .string "a"⟩], [("SOUND", some ⟨.named "s", .native (.made 0 "a")⟩)]⟩ ∧
      ∃ e, ((Machine.after [] : Machine Environment).execute 9 (Failing.program.rename exchange)
        ⟨.empty, {}⟩).1 = .failed e ∧ e.kind = .undefined := by
  have hp : ∀ name ∈ program.externals, exchange name = name := by decide
  have hdone : ((Machine.after [] : Machine Environment).execute 9 program host).1 =
      .done ⟨[⟨.string, .string "a"⟩], [("s", some sound)]⟩ := by cbv
  have hfailed : ((Machine.after [] : Machine Environment).execute 9 Failing.program ⟨.empty, {}⟩).1 =
      .failed (.undefined "y") := by cbv
  refine ⟨hp, ?_, ?_⟩
  · rw [(execute_rename [] 9 program host exchange hp).1 _ hdone]
    rfl
  · exact (execute_rename [] 9 Failing.program ⟨.empty, {}⟩ exchange (by simp [Failing.program,
      Program.externals])).2.1 _ hfailed

end Tremolo
