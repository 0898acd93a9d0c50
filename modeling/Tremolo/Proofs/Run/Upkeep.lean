import Tremolo.Proofs.Run.Simulation
import Tremolo.Proofs.Run.Upholds

/-! # Invariants of evaluation

Evaluation changes a machine in few ways: it binds variables and functions, assigns, calls native
functions, and opens and closes scopes.  An `Upkeep` is an invariant together with the reasons why it
survives each of these, and then it survives every expression and every statement
(`Upkeep.eval_keeps`).

The invariant is stated in worlds, of which every scope that is opened is a new one.  Which variables
may be bound and which statements may be executed can differ from world to world. -/

namespace Tremolo

/-- The statements directly in a statement. -/
def Stmt.inner : Stmt → List Stmt
  | .block body | .when _ body | .loop _ body | .define _ _ body => body
  | .skip | .declare .. | .assign .. | .ret .. | .expr .. => []

variable {σ : Type} [ScopeStore σ]

/-- A new scope can be opened in a world as in `inside`, and when it is closed `back` holds. -/
def Machine.Opens {World : Type} (Inv : World → Machine σ → Prop) (inside : World → Prop)
    (back : Machine σ → Prop) (m : Machine σ) (name : String) (kind : ScopeKind) (parent : ScopeId) :
    Prop :=
  ∀ scopes, ScopeStore.openScope? m.scopes name kind parent = some scopes →
    ∃ v, inside v ∧ Inv v { m with scopes := scopes } ∧ ∀ n, Inv v n →
      back { n with scopes := ScopeStore.closeScope n.scopes (ScopeStore.current m.scopes) }

/-- An invariant that survives all that evaluation does. -/
structure Upkeep (σ : Type) [ScopeStore σ] (host : Host) where
  World : Type
  Inv : World → Machine σ → Prop
  /-- The variables that may be bound. -/
  Binds : World → Variable → Prop
  /-- The statements that may be executed. -/
  May : World → Stmt → Prop
  /-- The statements that may stand in others. -/
  Inner : Stmt → Prop
  inner : ∀ {w s}, May w s → ∀ t ∈ s.inner, Inner t
  declares : ∀ {w type names}, May w (.declare type names) → ∀ name ∈ names, ∀ t,
    Binds w (.unset name t)
  bind : ∀ {w m v}, Inv w m → Binds w v → ScopeStore.lookupHere m.scopes v.name = none →
    Inv w { m with scopes := ScopeStore.insert m.scopes (.variable v) }
  define : ∀ {w m name params body i}, Inv w m → May w (.define name params body) →
    ScopeStore.lookupHere m.scopes name = none → ScopeStore.current m.scopes = some i →
    Inv w { m with scopes := ScopeStore.insert m.scopes (.function ⟨name, params, body, i⟩) }
  assign : ∀ {w m name value scopes}, Inv w m →
    ScopeStore.assign m.scopes name value = .stored scopes →
    Inv w (EvalM.record name value host { m with scopes := scopes }).2
  invoke : ∀ {w m} f callable args, Inv w m → Inv w (m.afterCall f callable args)
  block : ∀ {w m i}, Inv w m → ScopeStore.current m.scopes = some i →
    m.Opens Inv (fun v => ∀ s, Inner s → May v s) (Inv w) "block" .block i
  /-- A function that was found can still be called when its arguments are evaluated. -/
  call : ∀ {w m name f}, Inv w m → ScopeStore.lookup m.scopes name = some (.function f) →
    ∃ v, Inv v m ∧ ∀ n, Inv v n → Inv w n ∧
      n.Opens Inv (fun u => (∀ s ∈ f.body, May u s) ∧ ∀ v, v.name ∈ f.params → Binds u v) (Inv w)
        f.name .function f.scope

namespace EvalM

/-! ## Computations that leave the scopes alone -/

theorem resolveType_still (name : String) (host : Host) (m : Machine σ) :
    (resolveType name host m).2 = m := by
  simp only [resolveType, bind, EvalM.bind, ask]
  rcases ScopeStore.lookup m.scopes name with _ | ⟨_ | _ | _ | _⟩ <;> rfl

theorem readVariable_still (name : String) (host : Host) (m : Machine σ) :
    (readVariable name host m).2 = m := by
  simp only [readVariable, bind, EvalM.bind, ask]
  rcases ScopeStore.lookup m.scopes name with _ | ⟨v | _ | _ | _⟩
  case some.variable => cases hvalue : v.value <;> simp only [hvalue] <;> rfl
  all_goals rfl

omit [ScopeStore σ] in
theorem record_scopes (name : String) (value : TypedValue) (host : Host) (m : Machine σ) :
    (record name value host m).2.scopes = m.scopes := by
  unfold record
  dsimp only
  split <;> rfl

omit [ScopeStore σ] in
theorem echo_scopes (value : TypedValue) (host : Host) (m : Machine σ) :
    (echo value host m).2.scopes = m.scopes := by
  unfold echo
  dsimp only
  split <;> rfl

end EvalM

namespace Upkeep

open EvalM

variable {host : Host} (U : Upkeep σ host) {w : U.World} {α β : Type}

/-- The computation keeps the invariant in a world, however it ends. -/
abbrev Keeps (w : U.World) (x : EvalM σ α) : Prop :=
  Upholds host (U.Inv w) (fun _ _ => True) (fun _ => True) x

variable {U}

theorem Keeps.of_still {x : EvalM σ α} (hx : ∀ m, (x host m).2 = m) : U.Keeps w x := by
  intro m hm
  apply Upheld.of_kept
  rw [hx]
  exact hm

theorem Keeps.ofExcept (x : Except Error α) : U.Keeps w (EvalM.ofExcept x) :=
  Upholds.ofExcept (fun _ _ => trivial) (fun _ _ _ => trivial)

theorem Keeps.fail (e : Error) : U.Keeps w (EvalM.fail e : EvalM σ α) :=
  Upholds.fail fun _ => trivial

theorem Keeps.pure (a : α) : U.Keeps w (Pure.pure a) :=
  Upholds.pure trivial

theorem Keeps.ask {f : σ → α} {k : α → EvalM σ β} (hk : ∀ a, U.Keeps w (k a)) :
    U.Keeps w (EvalM.ask f >>= k) :=
  Upholds.ask fun m hm => hk (f m.scopes) m hm

theorem Keeps.bind {x : EvalM σ α} {k : α → EvalM σ β} (hx : U.Keeps w x)
    (hk : ∀ a, U.Keeps w (k a)) : U.Keeps w (x >>= k) :=
  Upholds.bind hx fun a _ => hk a

/-! ## Names -/

/-- What follows a check that a name is new may rely on it. -/
theorem Keeps.ensureUndeclared {name : String} {k : Unit → EvalM σ α}
    (hk : ∀ m, U.Inv w m → ScopeStore.lookupHere m.scopes name = none → U.Inv w (k () host m).2) :
    U.Keeps w (ensureUndeclared name >>= k) := by
  intro m hm
  apply Upheld.of_kept
  rw [ensureUndeclared_bind]
  cases hnew : ScopeStore.lookupHere m.scopes name with
  | some _ => exact hm
  | none => exact hk m hm hnew

theorem declareVariables_keeps (type : ValueType) {names : List String}
    (hnames : ∀ name ∈ names, U.Binds w (.unset name type)) :
    U.Keeps w (declareVariables type names) :=
  .each fun name hname => Keeps.ensureUndeclared fun _ hm hnew =>
    U.bind (v := .unset name type) hm (hnames name hname) hnew

theorem bindParameter_keeps {param : String × TypedValue}
    (hparam : ∀ v : Variable, v.name = param.1 → U.Binds w v) : U.Keeps w (bindParameter param) := by
  refine Keeps.ensureUndeclared fun m hm hnew => ?_
  cases hv : Variable.withValue param.1 .var param.2 with
  | error e => exact hm
  | ok v =>
    have hname : v.name = param.1 := by
      simp only [Variable.withValue, Variable.assign] at hv
      split at hv <;> cases hv
      rfl
    rw [← hname] at hnew
    exact U.bind hm (hparam v hname) hnew

theorem define_keeps {name : String} {params : List String} {body : List Stmt}
    (hmay : U.May w (.define name params body)) :
    U.Keeps w (do
      EvalM.ensureUndeclared name
      let scope ← currentScope
      change fun scopes => ScopeStore.insert scopes (.function ⟨name, params, body, scope⟩)
      return .normal none : EvalM σ Flow) := by
  refine Keeps.ensureUndeclared fun m hm hnew => ?_
  simp only [currentScope, Bind.bind, EvalM.bind, EvalM.ask]
  cases hcurrent : ScopeStore.current m.scopes with
  | none => exact hm
  | some i => exact U.define hm hmay hnew hcurrent

theorem assign_keeps (name : String) (value : TypedValue) : U.Keeps w (EvalM.assign name value) := by
  refine Upholds.ask fun m hm => ?_
  apply Upheld.of_kept
  cases hstored : ScopeStore.assign m.scopes name value with
  | stored after => exact U.assign hm hstored
  | rejected | notVariable | unbound => exact hm

/-! ## Scopes and calls -/

theorem inScope_keeps {m : Machine σ} {inside : U.World → Prop} {name : String} {kind : ScopeKind}
    {parent : ScopeId} (hopens : m.Opens U.Inv inside (U.Inv w) name kind parent) (hm : U.Inv w m)
    {x : EvalM σ α} (hx : ∀ v, inside v → U.Keeps v x) :
    U.Inv w (inScope name kind parent x host m).2 := by
  unfold inScope
  cases hopen : ScopeStore.openScope? m.scopes name kind parent with
  | none => exact hm
  | some scopes =>
    obtain ⟨v, hinside, hv, hback⟩ := hopens scopes hopen
    exact hback _ (hx v hinside _ hv).kept

theorem inBlock_keeps {x : EvalM σ α} (hx : ∀ v, (∀ s, U.Inner s → U.May v s) → U.Keeps v x) :
    U.Keeps w (inBlock x) := by
  intro m hm
  apply Upheld.of_kept
  simp only [inBlock, currentScope, Bind.bind, EvalM.bind, EvalM.ask]
  cases hcurrent : ScopeStore.current m.scopes with
  | none => exact hm
  | some i => exact inScope_keeps (U.block hm hcurrent) hm hx

theorem applyExternal_keeps (f : ExternalFunction) (values : List TypedValue) :
    U.Keeps w (applyExternal f values) := by
  intro m hm
  apply Upheld.of_kept
  cases hf : m.natives.get? f.name with
  | none =>
    rw [applyExternal_unbound hf]
    exact hm
  | some callable =>
    rw [applyExternal_bound hf]
    have hcalled := U.invoke f callable values hm
    cases callable.call m.calls.size (values.map (·.value)) with
    | error e => exact hcalled
    | ok value => exact (Keeps.ofExcept (f.accept value) _ hcalled).kept

section Evaluators

variable {eval : Expr → EvalM σ TypedValue} {exec : Stmt → EvalM σ Flow}
  (heval : ∀ w e, U.Keeps w (eval e)) (hexec : ∀ w s, U.May w s → U.Keeps w (exec s))

include heval in
theorem arguments_keeps (w : U.World) (function : String) (formals : List ValueType)
    (args : List Expr) : U.Keeps w (arguments eval function formals args) := by
  unfold arguments
  split
  · exact .fail _
  · exact Keeps.bind (Upholds.collect (heval w) args) fun values =>
      Keeps.bind (.ofExcept _) fun _ => .pure values

include hexec in
theorem sequence_keeps {body : List Stmt} (hbody : ∀ s ∈ body, U.May w s) :
    U.Keeps w (sequence exec body) :=
  Upholds.sequence trivial fun s hs => hexec w s (hbody s hs)

include hexec in
theorem applyFunction_keeps {f : FunctionDef} {m : Machine σ}
    (hopens : m.Opens U.Inv
      (fun u => (∀ s ∈ f.body, U.May u s) ∧ ∀ v, v.name ∈ f.params → U.Binds u v) (U.Inv w)
      f.name .function f.scope) (hm : U.Inv w m) (values : List TypedValue) :
    U.Inv w (applyFunction exec f values host m).2 := by
  have hbody : U.Inv w (inScope f.name .function f.scope
      (do each bindParameter (f.params.zip values); sequence exec f.body) host m).2 := by
    refine inScope_keeps hopens hm fun u hu => Keeps.bind (Upholds.each fun param hparam => ?_) ?_
    · exact bindParameter_keeps fun v hv => hu.2 v (hv ▸ (List.of_mem_zip hparam).1)
    · exact fun _ => sequence_keeps hexec hu.1
  exact (Upheld.bind (.of_kept hbody) fun flow _ => Keeps.pure flow.result).kept

include heval hexec

theorem call_keeps (name : String) (args : List Expr) :
    U.Keeps w (EvalM.call eval exec name args) := by
  refine Upholds.ask fun m hm => ?_
  cases hfound : ScopeStore.lookup m.scopes name with
  | none => exact .of_kept hm
  | some symbol =>
    cases symbol with
    | «variable» | type => exact .of_kept hm
    | external f =>
      exact Keeps.bind (arguments_keeps heval w _ _ args) (applyExternal_keeps f) m hm
    | function f =>
      -- The arguments are evaluated in a world in which the function stays where it was found.
      obtain ⟨v, hv, hlater⟩ := U.call hm hfound
      have hargs := (arguments_keeps heval v f.name (f.params.map fun _ => .var) args m hv).kept
      obtain ⟨hback, hopens⟩ := hlater _ hargs
      apply Upheld.of_kept
      change U.Inv w ((arguments eval f.name (f.params.map fun _ => .var) args >>=
        applyFunction exec f) host m).2
      rcases bind_cases (arguments eval f.name (f.params.map fun _ => .var) args)
        (applyFunction exec f) host m with ⟨values, -, heq⟩ | ⟨heq, -⟩
      · rw [heq]
        exact applyFunction_keeps hexec hopens hback values
      · rw [heq]
        exact hback

/-! ## Expressions and statements -/

theorem evalExprWith_keeps (e : Expr) : U.Keeps w (evalExprWith eval exec e) := by
  cases e with
  | int | float | string | bool => exact .pure _
  | var name => exact .of_still (readVariable_still name host)
  | unary op operand => exact Keeps.bind (heval w operand) fun _ => .ofExcept _
  | binary op left right =>
    exact Keeps.bind (heval w left) fun _ => Keeps.bind (heval w right) fun _ => .ofExcept _
  | cond op left right =>
    refine Keeps.bind (heval w left) fun l => ?_
    cases op.shortcut? l.value with
    | some b => exact .pure _
    | none => exact Keeps.bind (heval w right) fun _ => .ofExcept _
  | call name args => exact call_keeps heval hexec name args

theorem evalStmtWith_keeps (rounds : Nat) {s : Stmt} (hs : U.May w s) :
    U.Keeps w (evalStmtWith eval exec rounds s) := by
  -- Blocks, branches and loops alike execute what is in them in a scope of its own.
  have hblock : ∀ {body}, (∀ t ∈ body, U.Inner t) → U.Keeps w (inBlock (sequence exec body)) :=
    fun hbody => inBlock_keeps fun _ hmay => sequence_keeps hexec fun t ht => hmay t (hbody t ht)
  have hinner := U.inner hs
  cases s with
  | skip => exact .pure _
  | block body => exact hblock hinner
  | declare type names =>
    exact Keeps.bind (.of_still (resolveType_still type host)) fun type =>
      Keeps.bind (declareVariables_keeps type fun name hname => U.declares hs name hname type)
        fun _ => .pure _
  | define name params body => exact define_keeps hs
  | assign name value =>
    exact Keeps.bind (heval w value) fun v => Keeps.bind (assign_keeps name v) fun _ => .pure _
  | when condition body =>
    refine Keeps.bind (Upholds.truth (heval w condition)) fun holds => ?_
    cases holds with
    | true => exact hblock hinner
    | false => exact .pure _
  | loop condition body =>
    exact Upholds.iterate trivial (.truth (heval w condition)) (hblock hinner) rounds
  | ret value =>
    refine Keeps.ask fun inside => ?_
    cases inside with
    | false => exact .fail _
    | true =>
      cases value with
      | none => exact .pure _
      | some e => exact Keeps.bind (heval w e) fun _ => .pure _
  | expr e => exact Keeps.bind (heval w e) fun _ => .pure _

end Evaluators

variable (U)

/-- By induction on fuel, for expressions and statements together. -/
theorem eval_keeps (fuel : Nat) :
    (∀ w e, U.Keeps w (evalExpr fuel e)) ∧ ∀ w s, U.May w s → U.Keeps w (evalStmt fuel s) := by
  induction fuel with
  | zero => exact ⟨fun _ _ => Upholds.outOfFuel, fun _ _ _ => Upholds.outOfFuel⟩
  | succ fuel ih =>
    obtain ⟨heval, hexec⟩ := ih
    exact ⟨fun _ e => evalExprWith_keeps heval hexec e,
      fun _ _ hs => evalStmtWith_keeps heval hexec fuel hs⟩

variable {U}

/-- Top-level statements keep the invariant if each of them does and showing a value does. -/
theorem evalBody_keeps (hecho : ∀ value m, U.Inv w m → U.Inv w (echo value host m).2) (fuel : Nat)
    {body : List Stmt} (hbody : ∀ s ∈ body, U.Keeps w (evalStmt fuel s)) :
    U.Keeps w (evalBody fuel body) := by
  induction body with
  | nil => exact .pure _
  | cons s rest ih =>
    obtain ⟨hfirst, hrest⟩ := List.forall_mem_cons.1 hbody
    refine Keeps.bind hfirst fun flow => ?_
    rcases flow with (_ | value) | _
    · exact ih hrest
    · exact Keeps.bind (fun m hm => .of_kept (hecho value m hm)) fun _ =>
        Keeps.bind (ih hrest) fun _ => .pure _
    · exact .fail _

end Upkeep

/-- A program keeps what its header and its statements keep. -/
theorem EvalM.evalProgram_keeps {host : Host} {I : Machine σ → Prop} {fuel : Nat} {p : Program}
    (hheader : ∀ header, p.header = some header → Keeps host I (declareHeader header))
    (hbody : Keeps host I (evalBody fuel p.body)) :
    Keeps host I (evalProgram fuel p : EvalM σ Execution) := by
  have hrest : Keeps host I (do
      let results ← evalBody fuel p.body
      return ⟨results, ← ask ScopeStore.variablesHere⟩ : EvalM σ Execution) :=
    hbody.bind fun _ _ hm => hm
  obtain ⟨header, body⟩ := p
  cases header with
  | none => exact hrest
  | some header => exact (hheader header rfl).bind fun _ => hrest

end Tremolo
