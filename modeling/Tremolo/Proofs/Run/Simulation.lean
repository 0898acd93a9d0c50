import Tremolo.Proofs.Run.Header
import Tremolo.Proofs.Scope.Simulation

/-! # Runs over stores that are alike

Over two stores with a `Simulation` between them every expression, every statement and every call
evaluates alike (`Simulation.evalStmt_simulates`, `Simulation.call_simulates`), and with one more
condition on the header a whole program does (`Simulation.evalProgram_simulates`).

The statements on the two sides need not be the same: all this is proved of a `Translation`, for
statements that are alike up to the lists of statements in them (`Stmt.Alike`), as soon as related lists
are executed alike.

What the two runs record is compared by a `Tally`. -/

namespace Tremolo

variable {σ τ : Type}

/-! ## Records -/

/-- The machine after a call of a native function. -/
def Machine.afterCall (m : Machine σ) (f : ExternalFunction) (callable : NativeFunction)
    (args : List TypedValue) : Machine σ :=
  let result := callable.call m.calls.size (args.map (·.value))
  { m with calls := m.calls.push ⟨f, callable, args, result⟩ }

/-- How the records of two runs are to agree, whatever the scopes are. -/
structure Tally (σ τ : Type) (h h' : Host) where
  Rel : Machine σ → Machine τ → Prop
  scopes : ∀ {m n}, Rel m n → ∀ s t, Rel { m with scopes := s } { n with scopes := t }
  record : ∀ {m n}, Rel m n → ∀ name value,
    Rel (EvalM.record name value h m).2 (EvalM.record name value h' n).2
  native : ∀ {m n}, Rel m n → ∀ name, Option.Rel
    (fun c d => ∀ f (args : List TypedValue), c.call m.calls.size (args.map (·.value)) =
        d.call n.calls.size (args.map (·.value)) ∧
      Rel (m.afterCall f c args) (n.afterCall f d args))
    (m.natives.get? name) (n.natives.get? name)

/-- Related machines: related scopes, and records that agree. -/
def Tally.Pairs {h h' : Host} (tally : Tally σ τ h h') (R : σ → τ → Prop) (m : Machine σ)
    (n : Machine τ) : Prop :=
  R m.scopes n.scopes ∧ tally.Rel m n

/-- The two tables of native functions can be added to. -/
def Tally.AdmitsNatives {h h' : Host} (tally : Tally σ τ h h') : Prop :=
  ∀ m n name callable, tally.Rel m n →
    tally.Rel { m with natives := m.natives.insert name callable }
      { n with natives := n.natives.insert name callable }

/-- The two runs can show values. -/
def Tally.AdmitsEcho {h h' : Host} (tally : Tally σ τ h h') : Prop :=
  ∀ m n value, tally.Rel m n → tally.Rel (EvalM.echo value h m).2 (EvalM.echo value h' n).2

/-- The same entries were added to two records, which were `x₀` and `y₀` before. -/
def AddedAlike {α : Type} (x₀ y₀ x y : Array α) : Prop :=
  ∃ added, x = x₀ ++ added ∧ y = y₀ ++ added

section AddedAlike

variable {α : Type} {x₀ y₀ x y : Array α}

theorem AddedAlike.refl (x₀ y₀ : Array α) : AddedAlike x₀ y₀ x₀ y₀ :=
  ⟨#[], by simp⟩

theorem AddedAlike.push (h : AddedAlike x₀ y₀ x y) (a : α) :
    AddedAlike x₀ y₀ (x.push a) (y.push a) := by
  obtain ⟨added, rfl, rfl⟩ := h
  exact ⟨added.push a, by simp⟩

theorem AddedAlike.eq (h : AddedAlike x₀ x₀ x y) : x = y := by
  obtain ⟨added, rfl, rfl⟩ := h
  rfl

theorem AddedAlike.size_eq (h : AddedAlike x₀ y₀ x y) (hsize : x₀.size = y₀.size) :
    x.size = y.size := by
  obtain ⟨added, rfl, rfl⟩ := h
  simp [hsize]

end AddedAlike

/-- The same was put on record since the machines were `m₀` and `n₀`, and the same native functions
    are bound, which satisfy `bound`. -/
def Tally.since (h : Host) (bound : Table NativeFunction → Prop) (m₀ : Machine σ) (n₀ : Machine τ)
    (hserial : m₀.calls.size = n₀.calls.size) : Tally σ τ h h where
  Rel m n := bound m.natives ∧ m.natives = n.natives ∧
    AddedAlike m₀.trace n₀.trace m.trace n.trace ∧ AddedAlike m₀.shown n₀.shown m.shown n.shown ∧
    AddedAlike m₀.calls n₀.calls m.calls n.calls
  scopes hmn _ _ := hmn
  record := by
    rintro m n ⟨hbound, hnatives, htrace, hshown, hcalls⟩ name value
    simp only [EvalM.record]
    split
    · exact ⟨hbound, hnatives, htrace.push _, hshown, hcalls⟩
    · exact ⟨hbound, hnatives, htrace, hshown, hcalls⟩
  native := by
    rintro m n ⟨hbound, hnatives, htrace, hshown, hcalls⟩ name
    -- The serial number of a call is all that a native function learns of the run.
    have hsize := hcalls.size_eq hserial
    rw [← hnatives]
    cases m.natives.get? name with
    | none => exact .none
    | some c =>
      refine .some fun f args => ⟨by rw [hsize], hbound, hnatives, htrace, hshown, ?_⟩
      simp only [Machine.afterCall, hsize]
      exact hcalls.push _

theorem Tally.since_admitsNatives (h : Host) (m₀ : Machine σ) (n₀ : Machine τ)
    (hserial : m₀.calls.size = n₀.calls.size) :
    (Tally.since h (fun _ => True) m₀ n₀ hserial).AdmitsNatives := by
  rintro m n name callable ⟨-, hnatives, hrest⟩
  exact ⟨trivial, by simp only [hnatives], hrest⟩

theorem Tally.since_admitsEcho (h : Host) (bound : Table NativeFunction → Prop) (m₀ : Machine σ)
    (n₀ : Machine τ) (hserial : m₀.calls.size = n₀.calls.size) :
    (Tally.since h bound m₀ n₀ hserial).AdmitsEcho := by
  rintro m n value ⟨hbound, hnatives, htrace, hshown, hcalls⟩
  simp only [EvalM.echo]
  split
  · exact ⟨hbound, hnatives, htrace, hshown.push _, hcalls⟩
  · exact ⟨hbound, hnatives, htrace, hshown, hcalls⟩

/-- What a call gives depends on the arguments alone. -/
def NativeFunction.Pure (f : NativeFunction) : Prop :=
  ∀ serial serial' args, f.call serial args = f.call serial' args

/-- The same assignments were put on record since the machines were `m₀` and `n₀`, and the same native
    functions are bound, which do not look at how many calls there were. -/
def Tally.unnumbered (h : Host) {natives : Table NativeFunction}
    (hpure : ∀ name f, natives.get? name = some f → f.Pure) (m₀ : Machine σ) (n₀ : Machine τ) :
    Tally σ τ h h where
  Rel m n := m.natives = natives ∧ n.natives = natives ∧ AddedAlike m₀.trace n₀.trace m.trace n.trace
  scopes hmn _ _ := hmn
  record := by
    rintro m n ⟨hm, hn, htrace⟩ name value
    simp only [EvalM.record]
    split
    · exact ⟨hm, hn, htrace.push _⟩
    · exact ⟨hm, hn, htrace⟩
  native := by
    rintro m n ⟨hm, hn, htrace⟩ name
    rw [hm, hn]
    cases hcallable : natives.get? name with
    | none => exact .none
    | some c => exact .some fun f args => ⟨hpure name c hcallable _ _ _, hm, hn, htrace⟩

theorem Tally.unnumbered_admitsEcho (h : Host) {natives : Table NativeFunction}
    (hpure : ∀ name f, natives.get? name = some f → f.Pure) (m₀ : Machine σ) (n₀ : Machine τ) :
    (Tally.unnumbered h hpure m₀ n₀).AdmitsEcho := by
  intro m n value hmn
  simp only [EvalM.echo]
  split <;> exact hmn

theorem EvalM.applyExternal_unbound {f : ExternalFunction} {values : List TypedValue} {h : Host}
    {m : Machine σ} (hf : m.natives.get? f.name = none) :
    EvalM.applyExternal f values h m = (.failed (.undefined f.name), m) := by
  change EvalM.bind (EvalM.boundNative f.name) _ h m = _
  simp only [EvalM.bind, EvalM.boundNative, hf]

theorem EvalM.applyExternal_bound {f : ExternalFunction} {values : List TypedValue} {h : Host}
    {m : Machine σ} {callable : NativeFunction} (hf : m.natives.get? f.name = some callable) :
    EvalM.applyExternal f values h m =
      match callable.call m.calls.size (values.map (·.value)) with
      | .ok value => (EvalM.ofExcept (f.accept value) : EvalM σ TypedValue) h
          (m.afterCall f callable values)
      | .error e => (.failed e, m.afterCall f callable values) := by
  change EvalM.bind (EvalM.boundNative f.name) _ h m = _
  simp only [EvalM.bind, EvalM.boundNative, hf]
  change EvalM.bind (EvalM.invoke f callable _) _ h m = _
  simp only [EvalM.bind, EvalM.invoke]
  cases hcall : callable.call m.calls.size (values.map (·.value)) <;>
    simp only [Machine.afterCall, hcall]

/-! ## Statements that are alike -/

/-- Two statements that are the same but for the lists of statements directly in them, which are
    related. -/
inductive Stmt.Alike (B : List Stmt → List Stmt → Prop) : Stmt → Stmt → Prop
  | skip : Alike B .skip .skip
  | block {body body'} : B body body' → Alike B (.block body) (.block body')
  | declare {type names} : Alike B (.declare type names) (.declare type names)
  | define {name params body body'} : B body body' →
      Alike B (.define name params body) (.define name params body')
  | assign {name value} : Alike B (.assign name value) (.assign name value)
  | when {condition body body'} : B body body' →
      Alike B (.when condition body) (.when condition body')
  | loop {condition body body'} : B body body' →
      Alike B (.loop condition body) (.loop condition body')
  | ret {value} : Alike B (.ret value) (.ret value)
  | expr {e} : Alike B (.expr e) (.expr e)

theorem Stmt.Alike.refl (s : Stmt) : s.Alike Eq s := by
  cases s <;> constructor <;> rfl

variable [ScopeStore σ] [ScopeStore τ] {B : List Stmt → List Stmt → Prop}

namespace Translation

variable (sim : Translation B σ τ) {h h' : Host} (tally : Tally σ τ h h') {w : sim.World}

/-- Machines that are related in a world. -/
abbrev Pairs (w : sim.World) : Machine σ → Machine τ → Prop :=
  tally.Pairs (sim.Rel w)

open EvalM

/-! ## Scopes and names -/

theorem inScope_agree {α β : Type} {Q : α → β → Prop} {x : EvalM σ α} {y : EvalM τ β}
    {back : σ → τ → Prop} {m : Machine σ} {n : Machine τ} {name : String} {kind : ScopeKind}
    {i j : ScopeId} (henter : Enters sim.Rel back m.scopes n.scopes name kind i j)
    (htally : tally.Rel m n) (hxy : ∀ v, Simulates h h' (sim.Pairs tally v) Q x y) :
    Agree (tally.Pairs back) Q (inScope name kind i x h m) (inScope name kind j y h' n) := by
  obtain ⟨v, s, t, hs, ht, hrel, hback⟩ := henter
  have hbody := hxy v { m with scopes := s } { n with scopes := t } ⟨hrel, tally.scopes htally s t⟩
  simp only [inScope, hs, ht]
  -- The scopes are closed on both sides however the bodies end.
  exact ⟨hbody.outcome, hback _ _ hbody.machine.1, tally.scopes hbody.machine.2 _ _⟩

theorem inBlock_simulates {α β : Type} {Q : α → β → Prop} {x : EvalM σ α} {y : EvalM τ β}
    (hxy : ∀ v, Simulates h h' (sim.Pairs tally v) Q x y) :
    Simulates h h' (sim.Pairs tally w) Q (inBlock x) (inBlock y) := by
  intro m n hmn
  obtain ⟨i, j, hi, hj, henter⟩ := sim.block hmn.1
  have hx : inBlock x h m = inScope "block" .block i x h m := by
    simp only [inBlock, currentScope, bind, EvalM.bind, ask, hi, pure, EvalM.pure]
  have hy : inBlock y h' n = inScope "block" .block j y h' n := by
    simp only [inBlock, currentScope, bind, EvalM.bind, ask, hj, pure, EvalM.pure]
  rw [hx, hy]
  exact sim.inScope_agree tally henter hmn.2 hxy

/-- What follows a check that a name is new may rely on it. -/
theorem undeclared_simulates {α β : Type} {Q : α → β → Prop} {name : String}
    {k : Unit → EvalM σ α} {l : Unit → EvalM τ β}
    (hkl : ∀ m n, sim.Pairs tally w m n → ScopeStore.lookupHere m.scopes name = none →
      Agree (sim.Pairs tally w) Q (k () h m) (l () h' n)) :
    Simulates h h' (sim.Pairs tally w) Q (ensureUndeclared name >>= k)
      (ensureUndeclared name >>= l) := by
  intro m n hmn
  have hsame := sim.lookupHere hmn.1 name
  rw [ensureUndeclared_bind, ensureUndeclared_bind, ← hsame]
  cases hl : ScopeStore.lookupHere m.scopes name with
  | some _ => exact ⟨.failed, hmn⟩
  | none => exact hkl m n hmn hl

theorem declare_simulates {symbol : Symbol}
    (hinsert : ∀ s t, sim.Rel w s t → ScopeStore.lookupHere s symbol.name = none →
      sim.Rel w (ScopeStore.insert s symbol) (ScopeStore.insert t symbol)) :
    Simulates h h' (sim.Pairs tally w) Eq (declare symbol) (declare symbol) :=
  sim.undeclared_simulates tally fun _ _ hmn hnew =>
    ⟨.done rfl, hinsert _ _ hmn.1 hnew, tally.scopes hmn.2 _ _⟩

theorem declareVariables_simulates (type : ValueType) (names : List String) :
    Simulates h h' (sim.Pairs tally w) Eq (declareVariables type names)
      (declareVariables type names) :=
  .each (fun _ => sim.declare_simulates tally fun _ _ hst hnew => sim.bindVariable hst _ hnew) names

theorem bindParameter_simulates (param : String × TypedValue) :
    Simulates h h' (sim.Pairs tally w) Eq (bindParameter param) (bindParameter param) := by
  refine sim.undeclared_simulates tally fun m n hmn hnew => ?_
  cases hv : Variable.withValue param.1 .var param.2 with
  | error e => exact ⟨.failed, hmn⟩
  | ok v =>
    have hname : v.name = param.1 := by
      simp only [Variable.withValue, Variable.assign] at hv
      split at hv <;> cases hv
      rfl
    exact ⟨.done rfl, sim.bindVariable hmn.1 v (hname ▸ hnew), tally.scopes hmn.2 _ _⟩

/-- Functions found on two sides, which can be called at every later state. -/
def Twins (w : sim.World) (s : σ) (t : τ) (f g : FunctionDef) : Prop :=
  f.Alike B g ∧ ∃ v, sim.Rel v s t ∧ ∀ s' t', sim.Rel v s' t' →
    sim.Rel w s' t' ∧ Enters sim.Rel (sim.Rel v) s' t' f.name .function f.scope g.scope

/-- What follows a look at a name is compared for each kind of binding. -/
theorem lookup_simulates {α β : Type} {Q : α → β → Prop} {name : String}
    {k : Option Symbol → EvalM σ α} {l : Option Symbol → EvalM τ β}
    (hkl : ∀ m n x y, sim.Pairs tally w m n → SameBinding (sim.Twins w m.scopes n.scopes) x y →
      Agree (sim.Pairs tally w) Q (k x h m) (l y h' n)) :
    Simulates h h' (sim.Pairs tally w) Q ((ask fun scopes => ScopeStore.lookup scopes name) >>= k)
      ((ask fun scopes => ScopeStore.lookup scopes name) >>= l) :=
  .ask fun m n hmn => hkl m n _ _ hmn (sim.lookup hmn.1 name)

theorem resolveType_simulates (name : String) :
    Simulates h h' (sim.Pairs tally w) Eq (resolveType name) (resolveType name) := by
  refine sim.lookup_simulates tally fun m n x y hmn hxy => ?_
  rcases hxy with _ | @⟨symbol, _⟩ | _
  · exact ⟨.failed, hmn⟩
  · rcases symbol with _ | declared | _ | _
    · exact ⟨.failed, hmn⟩
    · exact ⟨.done rfl, hmn⟩
    · exact ⟨.failed, hmn⟩
    · exact ⟨.failed, hmn⟩
  · exact ⟨.failed, hmn⟩

theorem readVariable_simulates (name : String) :
    Simulates h h' (sim.Pairs tally w) Eq (readVariable name) (readVariable name) := by
  refine sim.lookup_simulates tally fun m n x y hmn hxy => ?_
  rcases hxy with _ | @⟨symbol, _⟩ | _
  · exact ⟨.failed, hmn⟩
  · rcases symbol with v | _ | _ | _
    · obtain ⟨_, _, value⟩ := v
      cases value with
      | none => exact ⟨.failed, hmn⟩
      | some value => exact ⟨.done rfl, hmn⟩
    · exact ⟨.failed, hmn⟩
    · exact ⟨.failed, hmn⟩
    · exact ⟨.failed, hmn⟩
  · exact ⟨.failed, hmn⟩

theorem assign_simulates (name : String) (value : TypedValue) :
    Simulates h h' (sim.Pairs tally w) Eq (EvalM.assign name value) (EvalM.assign name value) := by
  refine .ask fun m n hmn => ?_
  have hassign := sim.assign hmn.1 name value
  generalize ScopeStore.assign m.scopes name value = x at hassign ⊢
  generalize ScopeStore.assign n.scopes name value = y at hassign ⊢
  cases hassign with
  | unbound => exact ⟨.failed, hmn⟩
  | notVariable => exact ⟨.failed, hmn⟩
  | rejected => exact ⟨.failed, hmn⟩
  | @stored s t hst =>
    have hrecord := tally.record (tally.scopes hmn.2 s t) name value
    refine ⟨.done rfl, ?_, hrecord⟩
    -- With or without a trace, recording leaves the scopes alone.
    simp only [bind, EvalM.bind, change, record]
    split <;> split <;> exact hst

/-! ## Calls

Evaluators of the parts are left open here, one on each side. -/

section Evaluators

variable {eval : Expr → EvalM σ TypedValue} {eval' : Expr → EvalM τ TypedValue}
  {exec : Stmt → EvalM σ Flow} {exec' : Stmt → EvalM τ Flow}
  (heval : ∀ w e, Simulates h h' (sim.Pairs tally w) Eq (eval e) (eval' e))
  (hbodies : ∀ w body body', B body body' →
    Simulates h h' (sim.Pairs tally w) Eq (sequence exec body) (sequence exec' body'))

include heval in
theorem arguments_simulates (function : String) (formals : List ValueType) (args : List Expr) :
    Simulates h h' (sim.Pairs tally w) Eq (arguments eval function formals args)
      (arguments eval' function formals args) := by
  unfold arguments
  split
  · exact .fail _
  · refine (Simulates.collect (heval w) args).andThen fun values => ?_
    exact (Simulates.ofExcept _).andThen fun _ => .pure rfl

theorem applyExternal_simulates (f : ExternalFunction) (values : List TypedValue) :
    Simulates h h' (sim.Pairs tally w) Eq (applyExternal f values) (applyExternal f values) := by
  intro m n hmn
  have hnative := tally.native hmn.2 f.name
  generalize hm : m.natives.get? f.name = c at hnative
  generalize hn : n.natives.get? f.name = d at hnative
  cases hnative with
  | none =>
    rw [applyExternal_unbound hm, applyExternal_unbound hn]
    exact ⟨.failed, hmn⟩
  | @some c d hcd =>
    -- The call is on record even if the result is refused.
    obtain ⟨hresult, hafter⟩ := hcd f values
    have hpair : sim.Pairs tally w (m.afterCall f c _) (n.afterCall f d _) := ⟨hmn.1, hafter⟩
    rw [applyExternal_bound hm, applyExternal_bound hn, ← hresult]
    cases c.call m.calls.size (values.map (·.value)) with
    | error e => exact ⟨.failed, hpair⟩
    | ok value => exact Simulates.ofExcept _ _ _ hpair

include hbodies in
/-- Calls of functions that were found together, at any later state. -/
theorem applyFunction_agree {f g : FunctionDef} (hcode : f.Alike B g) (values : List TypedValue)
    {back : σ → τ → Prop} {m : Machine σ} {n : Machine τ}
    (henter : Enters sim.Rel back m.scopes n.scopes f.name .function f.scope g.scope)
    (htally : tally.Rel m n) :
    Agree (tally.Pairs back) Eq (applyFunction exec f values h m)
      (applyFunction exec' g values h' n) := by
  obtain ⟨fname, fparams, fbody, i⟩ := f
  obtain ⟨gname, gparams, gbody, j⟩ := g
  obtain ⟨rfl, rfl, hbody⟩ := hcode
  refine Agree.bind (Q := Eq) (sim.inScope_agree tally henter htally fun v => ?_) ?_
  · exact (Simulates.each (sim.bindParameter_simulates tally) _).andThen
      fun _ => hbodies v fbody gbody hbody
  · rintro flow _ rfl
    exact .pure rfl

include heval hbodies in
theorem call_simulates (name : String) (args : List Expr) :
    Simulates h h' (sim.Pairs tally w) Eq (EvalM.call eval exec name args)
      (EvalM.call eval' exec' name args) := by
  refine sim.lookup_simulates tally fun m n x y hmn hxy => ?_
  rcases hxy with _ | @⟨symbol, hplain⟩ | @⟨f, g, hcode, v, hv, hlater⟩
  · exact ⟨.failed, hmn⟩
  · rcases symbol with _ | _ | _ | f
    · exact ⟨.failed, hmn⟩
    · exact ⟨.failed, hmn⟩
    · exact absurd rfl (hplain _)
    · exact (sim.arguments_simulates tally heval _ _ _).andThen
        (fun values => sim.applyExternal_simulates tally f values) m n hmn
  · -- The arguments are evaluated in the world in which the function was found.
    have hcalls := (sim.arguments_simulates tally heval (w := v) f.name
      (f.params.map fun _ => .var) args).andThen (R := Eq) fun values p q hpq =>
        sim.applyFunction_agree tally hbodies hcode values (hlater _ _ hpq.1).2 hpq.2
    have hback : ∀ p q, sim.Pairs tally v p q → sim.Pairs tally w p q :=
      fun p q hpq => ⟨(hlater _ _ hpq.1).1, hpq.2⟩
    have hcall := (hcalls m n ⟨hv, hmn.2⟩).mono hback
    -- With the same parameters on both sides, the same arguments are asked for.
    obtain ⟨fname, fparams, fbody, i⟩ := f
    obtain ⟨gname, gparams, gbody, j⟩ := g
    obtain ⟨rfl, rfl, -⟩ := hcode
    exact hcall

/-! ## Expressions and statements -/

include heval hbodies in
theorem evalExprWith_simulates (e : Expr) :
    Simulates h h' (sim.Pairs tally w) Eq (evalExprWith eval exec e) (evalExprWith eval' exec' e) := by
  cases e with
  | int | float | string | bool => exact .pure rfl
  | var name => exact sim.readVariable_simulates tally name
  | unary op operand => exact (heval w operand).andThen fun _ => .ofExcept _
  | binary op left right =>
    exact (heval w left).andThen fun _ => (heval w right).andThen fun _ => .ofExcept _
  | cond op left right =>
    refine (heval w left).andThen fun l => ?_
    -- The left values are equal, so both sides evaluate the right operand or neither does.
    split
    · exact .pure rfl
    · exact (heval w right).andThen fun _ => .ofExcept _
  | call name args => exact sim.call_simulates tally heval hbodies name args

theorem define_simulates (name : String) (params : List String) {body body' : List Stmt}
    (hbody : B body body') (rounds : Nat) :
    Simulates h h' (sim.Pairs tally w) Eq (evalStmtWith eval exec rounds (.define name params body))
      (evalStmtWith eval' exec' rounds (.define name params body')) := by
  simp only [evalStmtWith]
  refine sim.undeclared_simulates tally fun m n hmn hnew => ?_
  -- Each side writes the number of its own current scope into the function.
  obtain ⟨i, j, hi, hj, -⟩ := sim.block hmn.1
  simp only [currentScope, bind, EvalM.bind, ask, hi, hj, pure, EvalM.pure, change]
  exact ⟨.done rfl, sim.bindFunction hmn.1 name params body body' i j hbody hnew hi hj,
    tally.scopes hmn.2 _ _⟩

include heval hbodies in
theorem evalStmtWith_simulates (rounds : Nat) {s s' : Stmt} (hs : s.Alike B s') :
    Simulates h h' (sim.Pairs tally w) Eq (evalStmtWith eval exec rounds s)
      (evalStmtWith eval' exec' rounds s') := by
  have hblock : ∀ {body body'}, B body body' → Simulates h h' (sim.Pairs tally w) Eq
      (inBlock (sequence exec body)) (inBlock (sequence exec' body')) :=
    fun hbody => sim.inBlock_simulates tally fun v => hbodies v _ _ hbody
  cases hs with
  | skip => exact .pure rfl
  | block hbody => exact hblock hbody
  | @declare type names =>
    exact (sim.resolveType_simulates tally type).andThen fun type =>
      (sim.declareVariables_simulates tally type names).andThen fun _ => .pure rfl
  | @define name params _ _ hbody => exact sim.define_simulates tally name params hbody rounds
  | @assign name value =>
    exact (heval w value).andThen fun v =>
      (sim.assign_simulates tally name v).andThen fun _ => .pure rfl
  | @when condition _ _ hbody =>
    refine (Simulates.truth (heval w condition)).andThen fun holds => ?_
    cases holds with
    | true => exact hblock hbody
    | false => exact .pure rfl
  | @loop condition _ _ hbody => exact .iterate (.truth (heval w condition)) (hblock hbody) rounds
  | @ret value =>
    refine .ask fun m n hmn => ?_
    rw [sim.inFunction hmn.1]
    cases ScopeStore.inFunction n.scopes with
    | false => exact ⟨.failed, hmn⟩
    | true =>
      cases value with
      | none => exact ⟨.done rfl, hmn⟩
      | some e => exact ((heval w e).andThen fun _ => .pure rfl) m n hmn
  | @expr e => exact (heval w e).andThen fun _ => .pure rfl

end Evaluators

/-- Every expression and all statements that are alike evaluate alike, if related lists of statements are
    executed alike as soon as their statements are.  The induction is on the fuel, in all worlds at once: a
    call moves to the world in which the function was found. -/
theorem eval_simulates
    (hbodies : ∀ fuel, (∀ w s s', s.Alike B s' → Simulates h h' (sim.Pairs tally w) Eq
        (Tremolo.evalStmt fuel s) (Tremolo.evalStmt fuel s')) →
      ∀ w body body', B body body' → Simulates h h' (sim.Pairs tally w) Eq
        (sequence (Tremolo.evalStmt fuel) body) (sequence (Tremolo.evalStmt fuel) body')) (fuel : Nat) :
    (∀ w e, Simulates h h' (sim.Pairs tally w) Eq (Tremolo.evalExpr fuel e)
      (Tremolo.evalExpr fuel e)) ∧
    (∀ w s s', s.Alike B s' → Simulates h h' (sim.Pairs tally w) Eq (Tremolo.evalStmt fuel s)
      (Tremolo.evalStmt fuel s')) := by
  induction fuel with
  | zero => exact ⟨fun _ _ => .outOfFuel, fun _ _ _ _ => .outOfFuel⟩
  | succ fuel ih =>
    obtain ⟨hexpr, hstmt⟩ := ih
    exact ⟨fun _ => sim.evalExprWith_simulates tally hexpr (hbodies fuel hstmt),
      fun _ _ _ => sim.evalStmtWith_simulates tally hexpr (hbodies fuel hstmt) fuel⟩

/-! ## Programs -/

theorem signatureType_simulates (module function name : String) :
    Simulates h h' (sim.Pairs tally w) Eq (signatureType module function name)
      (signatureType module function name) := by
  refine sim.lookup_simulates tally fun m n x y hmn hxy => ?_
  rcases hxy with _ | @⟨symbol, _⟩ | _
  · exact ⟨.failed, hmn⟩
  · rcases symbol with _ | declared | _ | _
    · exact ⟨.failed, hmn⟩
    · exact ⟨.done rfl, hmn⟩
    · exact ⟨.failed, hmn⟩
    · exact ⟨.failed, hmn⟩
  · exact ⟨.failed, hmn⟩

section Header

variable (hheader : sim.AdmitsHeader) (hnatives : tally.AdmitsNatives)

include hheader in
theorem declarePlain_simulates {symbol : Symbol} (hplain : ∀ f, symbol ≠ .function f) :
    Simulates h h' (sim.Pairs tally w) Eq (declare symbol) (declare symbol) :=
  sim.declare_simulates tally fun s t hst hnew => hheader w s t symbol hst hplain hnew

include hheader hnatives

theorem declareExternal_simulates (module : NativeModule) (signature : Signature) :
    Simulates h h' (sim.Pairs tally w) Eq (declareExternal module signature)
      (declareExternal module signature) := by
  have htype := sim.signatureType_simulates tally (w := w) module.name signature.name
  have hbind : ∀ callable, Simulates h h' (sim.Pairs tally w) Eq
      (bindNative (σ := σ) signature.name callable) (bindNative (σ := τ) signature.name callable) :=
    fun callable m n hmn => ⟨.done rfl, hmn.1, hnatives m n _ callable hmn.2⟩
  refine (Simulates.ofExcept _).andThen fun callable => ?_
  refine (Simulates.collect htype _).andThen fun parameters => ?_
  cases signature.returnType with
  | none =>
    refine (Simulates.pure rfl).andThen fun returns => ?_
    exact (sim.declarePlain_simulates tally hheader (by simp)).andThen fun _ => hbind callable
  | some name =>
    refine (htype name).andThen fun returns => ?_
    exact (sim.declarePlain_simulates tally hheader (by simp)).andThen fun _ => hbind callable

theorem declareHeader_simulates (hregistry : h.registry = h'.registry) (header : Header) :
    Simulates h h' (sim.Pairs tally w) Eq (declareHeader header) (declareHeader header) := by
  refine (Simulates.each (fun name => ?_) _).andThen fun _ => .each (fun use m n hmn => ?_) _
  · exact sim.declarePlain_simulates tally hheader (by simp)
  · rw [declareModule_eq, declareModule_eq, hregistry]
    cases h'.registry.resolve? use.name with
    | none => exact ⟨.failed, hmn⟩
    | some module =>
      exact Simulates.each (sim.declareExternal_simulates tally hheader hnatives module) _ m n hmn

end Header

section Programs

variable {exec : Stmt → EvalM σ Flow} {exec' : Stmt → EvalM τ Flow}

theorem echo_simulates (hecho : tally.AdmitsEcho) (value : TypedValue) :
    Simulates h h' (sim.Pairs tally w) Eq (echo value) (echo value) := by
  refine fun m n hmn => ⟨.done rfl, ?_, hecho m n value hmn.2⟩
  simp only [echo]
  split <;> split <;> exact hmn.1

/-- Programs with the same header run alike if their bodies do. -/
theorem evalProgramWith_simulates (hheader : sim.AdmitsHeader) (hnatives : tally.AdmitsNatives)
    (hregistry : h.registry = h'.registry) (header : Option Header) {body body' : List Stmt}
    (hbody : Simulates h h' (sim.Pairs tally w) Eq (evalBodyWith exec body)
      (evalBodyWith exec' body')) :
    Simulates h h' (sim.Pairs tally w) Eq (evalProgramWith exec ⟨header, body⟩)
      (evalProgramWith exec' ⟨header, body'⟩) := by
  have hrest : Simulates h h' (sim.Pairs tally w) Eq
      (do let results ← evalBodyWith exec body
          return ⟨results, ← ask ScopeStore.variablesHere⟩ : EvalM σ Execution)
      (do let results ← evalBodyWith exec' body'
          return ⟨results, ← ask ScopeStore.variablesHere⟩ : EvalM τ Execution) := by
    refine hbody.andThen fun results => .ask fun m n hmn => ?_
    exact ⟨.done (by rw [sim.variablesHere hmn.1]), hmn⟩
  cases header with
  | none => exact hrest
  | some header =>
    exact (sim.declareHeader_simulates tally hheader hnatives hregistry header).andThen fun _ => hrest

end Programs

end Translation

/-! ## The same program on both sides -/

namespace Simulation

variable (sim : Simulation σ τ) {h h' : Host} (tally : Tally σ τ h h') {w : sim.World}

open EvalM

section Evaluators

variable {eval : Expr → EvalM σ TypedValue} {eval' : Expr → EvalM τ TypedValue}
  {exec : Stmt → EvalM σ Flow} {exec' : Stmt → EvalM τ Flow}
  (heval : ∀ w e, Simulates h h' (sim.Pairs tally w) Eq (eval e) (eval' e))
  (hexec : ∀ w s, Simulates h h' (sim.Pairs tally w) Eq (exec s) (exec' s))

include hexec

theorem bodies_simulate (w : sim.World) (body body' : List Stmt) (hbody : body = body') :
    Simulates h h' (sim.Pairs tally w) Eq (sequence exec body) (sequence exec' body') :=
  hbody ▸ .sequence (hexec w) body

theorem applyFunction_agree {f g : FunctionDef} (hcode : f.Alike Eq g) (values : List TypedValue)
    {back : σ → τ → Prop} {m : Machine σ} {n : Machine τ}
    (henter : Enters sim.Rel back m.scopes n.scopes f.name .function f.scope g.scope)
    (htally : tally.Rel m n) :
    Agree (tally.Pairs back) Eq (applyFunction exec f values h m)
      (applyFunction exec' g values h' n) :=
  Translation.applyFunction_agree sim tally (bodies_simulate sim tally hexec) hcode values henter htally

include heval

theorem call_simulates (name : String) (args : List Expr) :
    Simulates h h' (sim.Pairs tally w) Eq (EvalM.call eval exec name args)
      (EvalM.call eval' exec' name args) :=
  Translation.call_simulates sim tally heval (bodies_simulate sim tally hexec) name args

theorem evalExprWith_simulates (e : Expr) :
    Simulates h h' (sim.Pairs tally w) Eq (evalExprWith eval exec e) (evalExprWith eval' exec' e) :=
  Translation.evalExprWith_simulates sim tally heval (bodies_simulate sim tally hexec) e

theorem evalStmtWith_simulates (rounds : Nat) (s : Stmt) :
    Simulates h h' (sim.Pairs tally w) Eq (evalStmtWith eval exec rounds s)
      (evalStmtWith eval' exec' rounds s) :=
  Translation.evalStmtWith_simulates sim tally heval (bodies_simulate sim tally hexec) rounds (.refl s)

end Evaluators

theorem eval_simulates (fuel : Nat) :
    (∀ w e, Simulates h h' (sim.Pairs tally w) Eq (Tremolo.evalExpr fuel e)
      (Tremolo.evalExpr fuel e)) ∧
    (∀ w s s', s.Alike Eq s' → Simulates h h' (sim.Pairs tally w) Eq (Tremolo.evalStmt fuel s)
      (Tremolo.evalStmt fuel s')) :=
  Translation.eval_simulates sim tally
    (fun _ hexec => sim.bodies_simulate tally fun w s => hexec w s s (.refl s)) fuel

theorem evalExpr_simulates (fuel : Nat) (w : sim.World) (e : Expr) :
    Simulates h h' (sim.Pairs tally w) Eq (Tremolo.evalExpr fuel e) (Tremolo.evalExpr fuel e) :=
  (sim.eval_simulates tally fuel).1 w e

theorem evalStmt_simulates (fuel : Nat) (w : sim.World) (s : Stmt) :
    Simulates h h' (sim.Pairs tally w) Eq (Tremolo.evalStmt fuel s) (Tremolo.evalStmt fuel s) :=
  (sim.eval_simulates tally fuel).2 w s s (.refl s)

section Programs

variable (hecho : tally.AdmitsEcho)

section Evaluators

variable {exec : Stmt → EvalM σ Flow} {exec' : Stmt → EvalM τ Flow}
  (hexec : ∀ s, Simulates h h' (sim.Pairs tally w) Eq (exec s) (exec' s))

include hecho hexec

theorem evalBodyWith_simulates (body : List Stmt) :
    Simulates h h' (sim.Pairs tally w) Eq (evalBodyWith exec body) (evalBodyWith exec' body) := by
  induction body with
  | nil => exact .pure rfl
  | cons s rest ih =>
    refine (hexec s).andThen fun flow => ?_
    rcases flow with (_ | value) | _
    · exact ih
    · exact (sim.echo_simulates tally hecho value).andThen fun _ => ih.andThen fun _ => .pure rfl
    · exact .fail _

theorem evalProgramWith_simulates (hheader : sim.AdmitsHeader) (hnatives : tally.AdmitsNatives)
    (hregistry : h.registry = h'.registry) (p : Program) :
    Simulates h h' (sim.Pairs tally w) Eq (evalProgramWith exec p) (evalProgramWith exec' p) :=
  Translation.evalProgramWith_simulates sim tally hheader hnatives hregistry p.header
    (sim.evalBodyWith_simulates tally hecho hexec p.body)

end Evaluators

include hecho

theorem evalBody_simulates (fuel : Nat) (body : List Stmt) :
    Simulates h h' (sim.Pairs tally w) Eq (evalBody fuel body) (evalBody fuel body) :=
  sim.evalBodyWith_simulates tally hecho (sim.evalStmt_simulates tally fuel w) body

/-- Every program runs alike. -/
theorem evalProgram_simulates (hheader : sim.AdmitsHeader) (hnatives : tally.AdmitsNatives)
    (hregistry : h.registry = h'.registry) (fuel : Nat) (p : Program) :
    Simulates h h' (sim.Pairs tally w) Eq (evalProgram fuel p) (evalProgram fuel p) :=
  sim.evalProgramWith_simulates tally hecho (sim.evalStmt_simulates tally fuel w) hheader hnatives
    hregistry p

end Programs

end Simulation

end Tremolo
