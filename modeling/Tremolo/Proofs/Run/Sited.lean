import Tremolo.Proofs.Run.Discipline
import Tremolo.Proofs.Run.Journal
import Tremolo.Proofs.Run.LawfulRuns
import Tremolo.Proofs.Run.Upholds

/-! # Statements are evaluated where they stand

A run with a journal visits a statement inside a call exactly if the statement stands in the body of a
function.  The invariant that carries this through the evaluator (`Machine.Sited`) speaks of one world:
nothing that happens in a scope moves it into a call or out of one, a block is where its surroundings
are, and the scope of a call is inside.  Functions in scope have bodies from the program, so that a call
evaluates statements that stand in the body of a function.

The other half is which failures there are: only the check of a `return` fails as a stray `return` does,
and when it does, that `return` was visited last (`Blamed`). -/

namespace Tremolo

/-! ## Failures -/

/-- The function fails with errors of its own only. -/
def NativeFunction.FailsAsNative (f : NativeFunction) : Prop :=
  ∀ serial args e, f.call serial args = .error e → ∃ name reason, e = .nativeFailure name reason

/-- All functions of the registry fail with errors of their own only. -/
def Registry.FailsAsNative (r : Registry) : Prop :=
  ∀ name module, r.resolve? name = some module →
    ∀ function f, module.function? function = some f → f.FailsAsNative

/-- No operation on values fails as a stray `return` does. -/
theorem UnaryOp.apply_ne_stray (op : UnaryOp) (v : TypedValue) :
    op.apply v ≠ .error .returnOutsideFunction := by
  unfold UnaryOp.apply
  split
  case h_3 => split <;> simp
  all_goals simp

theorem BinaryOp.keep_ne_stray (op : BinaryOp) (a b : Int64) (n : Int) :
    op.keep a b n ≠ .error .returnOutsideFunction := by
  unfold BinaryOp.keep
  split <;> simp

theorem BinaryOp.applyInt_ne_stray (op : BinaryOp) (a b : Int64) :
    op.applyInt a b ≠ .error .returnOutsideFunction := by
  cases op with
  | add | sub | mul => exact keep_ne_stray _ _ _ _
  | div =>
    simp only [BinaryOp.applyInt]
    split
    · simp
    · split
      · exact keep_ne_stray _ _ _ _
      · simp

theorem BinaryOp.applyFloat_ne_stray (op : BinaryOp) (a b : Float) :
    op.applyFloat a b ≠ .error .returnOutsideFunction := by
  cases op with
  | add | sub | mul => simp [BinaryOp.applyFloat]
  | div =>
    simp only [BinaryOp.applyFloat]
    split <;> simp

theorem BinaryOp.apply_ne_stray (op : BinaryOp) (l r : TypedValue) :
    op.apply l r ≠ .error .returnOutsideFunction := by
  unfold BinaryOp.apply
  split
  · simp
  · exact applyInt_ne_stray _ _ _
  · split
    · exact applyFloat_ne_stray _ _ _
    · simp

theorem CondOp.apply_ne_stray (op : CondOp) (l r : TypedValue) :
    op.apply l r ≠ .error .returnOutsideFunction := by
  cases op with
  | eq | ne | and | or => simp [CondOp.apply]
  | lt | gt | le | ge =>
    simp only [CondOp.apply, CondOp.order]
    split <;> simp

theorem Environment.assign_ne_stray (env : Environment) (name : String) (value : TypedValue) :
    env.assign name value ≠ .rejected .returnOutsideFunction := by
  unfold Environment.assign
  split
  · unfold Variable.assign
    split
    next h => split at h <;> cases h; simp
    next h => split at h <;> cases h; simp
  · simp
  · simp

theorem checkArguments_ne_stray (function : String) (position : Nat) (formals : List ValueType)
    (values : List TypedValue) :
    checkArguments function position formals values ≠ .error .returnOutsideFunction := by
  induction formals generalizing position values with
  | nil => simp [checkArguments]
  | cons formal formals ih =>
    cases values with
    | nil => simp [checkArguments]
    | cons value values =>
      simp only [checkArguments]
      split
      · exact ih _ _
      · simp

theorem ExternalFunction.accept_ne_stray (f : ExternalFunction) (result : Value) :
    f.accept result ≠ .error .returnOutsideFunction := by
  unfold ExternalFunction.accept
  split
  · simp
  · dsimp only
    split <;> simp

theorem EvalM.provided_ne_stray (module : NativeModule) (s : Signature) :
    EvalM.provided module s ≠ .error .returnOutsideFunction := by
  unfold EvalM.provided
  split
  · simp
  · split
    · split <;> simp
    · simp

/-! ## The invariant -/

/-- If the symbol is a function, its statements are statements of the program that stand in the body of
    a function. -/
def Symbol.BodyIn (p : Program) (x : Symbol) : Prop :=
  ∀ f, x = .function f → ∀ s ∈ f.body, (true, s) ∈ p.places

/-- The statement is one of the program, and the scopes know where it stands. -/
structure Visit.Fair (p : Program) (v : Visit Environment) : Prop where
  stands : (v.inside, v.stmt) ∈ p.places
  known : v.scopes.inFunction = v.inside

/-- A machine that runs the program with a journal, in the world of `before`. -/
structure Machine.Sited (p : Program) (before : Environment) (m : Machine (Journal Environment)) :
    Prop where
  kept : before.Kept (fun _ => True) m.scopes.now
  bodies : m.scopes.now.Holds (Symbol.BodyIn p)
  natives : ∀ name f, m.natives.get? name = some f → f.FailsAsNative
  visits : ∀ v ∈ m.scopes.visits, v.Fair p

/-- What fails as a stray `return` does has visited a `return` last, and one that stands in no function. -/
def Blamed (e : Error) (m : Machine (Journal Environment)) : Prop :=
  e = .returnOutsideFunction → ∃ visit rest value, m.scopes.visits = visit :: rest ∧
    visit.inside = false ∧ visit.stmt = .ret value

theorem blamed_other {e : Error} (he : e ≠ .returnOutsideFunction)
    (m : Machine (Journal Environment)) : Blamed e m :=
  fun h => absurd h he

/-- A statement in no function does not return. -/
def Flow.ReturnsOnly (inside : Bool) : Flow → Prop
  | .normal _ => True
  | .returned _ => inside = true

namespace Machine.Sited

variable {p : Program} {before env : Environment} {m : Machine (Journal Environment)}

theorem move (h : m.Sited p before) (hkept : before.Kept (fun _ => True) env)
    (hbodies : env.Holds (Symbol.BodyIn p)) :
    ({ m with scopes := m.scopes.move env } : Machine (Journal Environment)).Sited p before :=
  ⟨hkept, hbodies, h.natives, h.visits⟩

theorem insert (h : m.Sited p before) {x : Symbol} (hnew : m.scopes.now.lookupHere x.name = none)
    (hscope : ∀ f, x = .function f → m.scopes.now.current = some f.scope) (hx : x.BodyIn p) :
    ({ m with scopes := ScopeStore.insert m.scopes x } : Machine (Journal Environment)).Sited p
      before :=
  h.move (h.kept.insert hnew hscope fun _ _ => trivial) (h.bodies.insert hx)

/-- All that happens in a world happens inside a call, or all outside. -/
theorem inFunction (h : m.Sited p before) : m.scopes.now.inFunction = before.inFunction :=
  h.kept.later.inFunction h.kept.disciplined

/-- A world may begin at the state at hand. -/
theorem here (h : m.Sited p before) : m.Sited p m.scopes.now :=
  ⟨.refl h.kept.disciplined h.kept.externals, h.bodies, h.natives, h.visits⟩

/-- What is kept in a world that began later is kept in this one. -/
theorem since (h : m.Sited p before) {n : Machine (Journal Environment)}
    (hn : n.Sited p m.scopes.now) : n.Sited p before :=
  ⟨hn.kept.after h.kept.later, hn.bodies, hn.natives, hn.visits⟩

end Machine.Sited

namespace EvalM

variable {host : Host} {p : Program} {before : Environment} {α : Type} {Q : α → Prop}

/-- The computation keeps the invariant in a world, its result is as in `Q`, and it does not fail as a
    stray `return` does unless one was visited last. -/
abbrev Reports (host : Host) (p : Program) (before : Environment) (Q : α → Prop)
    (x : EvalM (Journal Environment) α) : Prop :=
  Upholds host (Machine.Sited p before) Blamed Q x

theorem Reports.ofExcept {x : Except Error α} (hok : ∀ a, x = .ok a → Q a)
    (herror : x ≠ .error .returnOutsideFunction) : Reports host p before Q (EvalM.ofExcept x) := by
  refine Upholds.ofExcept hok fun e m he => blamed_other ?_ m
  rintro rfl
  exact herror he

/-! ## Names -/

theorem undeclared_reports {name : String} {k : Unit → EvalM (Journal Environment) α}
    (hk : ∀ m, m.Sited p before → m.scopes.now.lookupHere name = none →
      Upheld (Machine.Sited p before) Blamed Q (k () host m)) :
    Reports host p before Q (ensureUndeclared name >>= k) := by
  intro m hm
  rw [ensureUndeclared_bind]
  cases hfound : ScopeStore.lookupHere m.scopes name with
  | some _ => exact .failed hm (blamed_other (by simp) m)
  | none => exact hk m hm hfound

theorem declare_reports {x : Symbol} (hplain : ∀ f, x ≠ .function f) :
    Reports host p before (fun _ => True) (declare x) := by
  refine undeclared_reports fun m hm hnew => .done (hm.insert hnew ?_ ?_) trivial
  · exact fun f hf => absurd hf (hplain f)
  · exact fun f hf => absurd hf (hplain f)

theorem resolveType_reports (name : String) :
    Reports host p before (fun _ => True) (resolveType name) := by
  refine .ask fun m hm => ?_
  cases ScopeStore.lookup m.scopes name with
  | none => exact .failed hm (blamed_other (by simp) m)
  | some x =>
    cases x with
    | type => exact .done hm trivial
    | «variable» | function | external => exact .failed hm (blamed_other (by simp) m)

theorem readVariable_reports (name : String) :
    Reports host p before (fun _ => True) (readVariable name) := by
  refine .ask fun m hm => ?_
  cases ScopeStore.lookup m.scopes name with
  | none => exact .failed hm (blamed_other (by simp) m)
  | some x =>
    cases x with
    | «variable» v =>
      dsimp only
      cases v.value with
      | some _ => exact .done hm trivial
      | none => exact .failed hm (blamed_other (by simp) m)
    | type | function | external => exact .failed hm (blamed_other (by simp) m)

theorem record_reports (name : String) (value : TypedValue) :
    Reports host p before (fun _ => True) (record name value) := by
  intro m hm
  unfold record
  split
  · exact .done ⟨hm.kept, hm.bodies, hm.natives, hm.visits⟩ trivial
  · exact .done hm trivial

theorem assign_reports (name : String) (value : TypedValue) :
    Reports host p before (fun _ => True) (EvalM.assign name value) := by
  refine .ask fun m hm => ?_
  have hjournal : ScopeStore.assign m.scopes name value =
      (m.scopes.now.assign name value).map m.scopes.move := rfl
  rw [hjournal]
  cases hassign : m.scopes.now.assign name value with
  | unbound | notVariable => exact .failed hm (blamed_other (by simp) m)
  | rejected e =>
    refine .failed hm (blamed_other ?_ m)
    rintro rfl
    exact m.scopes.now.assign_ne_stray name value hassign
  | stored after =>
    have hbodies := hm.bodies.assign hassign fun _ _ _ _ => by simp [Symbol.BodyIn]
    exact record_reports name value _ (hm.move (hm.kept.assign hassign) hbodies)

/-! ## Scopes -/

/-- A scope begins a world of its own, and leaving it leads back. -/
theorem inScope_upheld {x : EvalM (Journal Environment) α} {m : Machine (Journal Environment)}
    (hm : m.Sited p before) {name : String} {kind : ScopeKind} {i : ScopeId} {outer : Scope}
    (houter : m.scopes.now.scope? i = some outer)
    (hcall : kind = .function → ∃ f, outer.get? name = some (.function f))
    (hx : Reports host p (m.scopes.now.push (.fresh name (outer.level + 1) kind (some i))) Q x) :
    Upheld (Machine.Sited p before) Blamed Q (inScope name kind i x host m) := by
  have hopen : ScopeStore.openScope? m.scopes name kind i =
      some (m.scopes.move (m.scopes.now.push (.fresh name (outer.level + 1) kind (some i)))) :=
    congrArg (Option.map m.scopes.move) (Environment.openScope?_eq houter name kind)
  obtain ⟨hkept, hresult, hfailure⟩ := hx { m with scopes := m.scopes.move _ }
    ⟨hm.kept.push houter hcall, hm.bodies.push _ _ _ _, hm.natives, hm.visits⟩
  simp only [inScope, hopen]
  refine ⟨⟨?_, ?_, ?_, ?_⟩, hresult, hfailure⟩
  · exact hm.kept.close hkept.kept
  · exact hkept.bodies.close _
  · exact hkept.natives
  · exact hkept.visits

theorem inBlock_reports {x : EvalM (Journal Environment) α}
    (hx : ∀ inner, inner.inFunction = before.inFunction → Reports host p inner Q x) :
    Reports host p before Q (inBlock x) := by
  intro m hm
  have hdisciplined := hm.kept.disciplined
  have htop : ScopeStore.current m.scopes = some (m.scopes.now.depth - 1) := hdisciplined.top
  have hblock : inBlock x host m = inScope "block" .block (m.scopes.now.depth - 1) x host m := by
    simp only [inBlock, currentScope, bind, EvalM.bind, ask, htop, pure, EvalM.pure]
  obtain ⟨outer, houter⟩ := hdisciplined.scope?_current
  rw [hblock]
  refine inScope_upheld hm houter (by simp) (hx _ ?_)
  rw [hdisciplined.inFunction_push_block, hm.inFunction]

/-! ## Calls -/

theorem bindParameter_reports (param : String × TypedValue) :
    Reports host p before (fun _ => True) (bindParameter param) := by
  refine undeclared_reports fun m hm hnew => ?_
  rw [Variable.withValue_var]
  exact .done (hm.insert hnew (by simp) (by simp [Symbol.BodyIn])) trivial

theorem applyExternal_reports (f : ExternalFunction) (values : List TypedValue) :
    Reports host p before (fun _ => True) (applyExternal f values) := by
  intro m hm
  cases hbound : m.natives.get? f.name with
  | none =>
    rw [applyExternal_unbound hbound]
    exact .failed hm (blamed_other (by simp) m)
  | some callable =>
    have hafter : (m.afterCall f callable values).Sited p before :=
      ⟨hm.kept, hm.bodies, hm.natives, hm.visits⟩
    rw [applyExternal_bound hbound]
    cases hcall : callable.call m.calls.size (values.map (·.value)) with
    | error e =>
      obtain ⟨name, reason, rfl⟩ := hm.natives f.name callable hbound _ _ e hcall
      exact .failed hafter (blamed_other (by simp) _)
    | ok value =>
      exact Reports.ofExcept (fun _ _ => trivial) (f.accept_ne_stray value) _ hafter

section Evaluators

variable {inside : Bool} {eval : Expr → EvalM (Journal Environment) TypedValue}
  {exec : Stmt → EvalM (Journal Environment) Flow}
  (heval : ∀ world : Environment, world.inFunction = inside →
    ∀ e, Reports host p world (fun _ => True) (eval e))

include heval in
theorem arguments_reports (hbefore : before.inFunction = inside) (function : String)
    (formals : List ValueType) (args : List Expr) :
    Reports host p before (fun _ => True) (arguments eval function formals args) := by
  unfold arguments
  split
  · exact .fail (blamed_other (by simp))
  · refine (Upholds.collect (heval before hbefore) args).bind fun values _ => ?_
    exact (Reports.ofExcept (fun _ _ => trivial) (checkArguments_ne_stray _ _ _ _)).bind
      fun _ _ => .pure trivial

variable (hcalled : ∀ world : Environment, world.inFunction = true → ∀ s, (true, s) ∈ p.places →
  Reports host p world (Flow.ReturnsOnly true) (exec s))

include hcalled in
/-- A function is called in the world in which it was found.  The scope of the call is inside a call,
    and its statements stand in the body of a function. -/
theorem applyFunction_reports {f : FunctionDef} {scope : Scope}
    (hscope : before.scope? f.scope = some scope) (hf : scope.get? f.name = some (.function f))
    (hbody : ∀ s ∈ f.body, (true, s) ∈ p.places) (values : List TypedValue) :
    Reports host p before (fun _ => True) (applyFunction exec f values) := by
  intro m hm
  obtain ⟨outer, houter, hfunction⟩ := hm.kept.later.function hscope hf
  have hinside := m.scopes.now.inFunction_push_function f.name (outer.level + 1) (some f.scope)
  have hstatements := fun s hs => hcalled _ hinside s (hbody s hs)
  refine Upheld.bind (inScope_upheld (Q := Flow.ReturnsOnly true) hm houter
    (fun _ => ⟨f, hfunction⟩) ?_) fun _ _ => .pure trivial
  exact (Upholds.each fun param _ => bindParameter_reports param).bind
    fun _ _ => .sequence trivial hstatements

include heval hcalled in
theorem call_reports (hbefore : before.inFunction = inside) (name : String) (args : List Expr) :
    Reports host p before (fun _ => True) (call eval exec name args) := by
  refine .ask fun m hm => ?_
  cases hfound : ScopeStore.lookup m.scopes name with
  | none => exact .failed hm (blamed_other (by simp) m)
  | some x =>
    cases x with
    | «variable» | type => exact .failed hm (blamed_other (by simp) m)
    | external f =>
      refine Upholds.bind (arguments_reports heval hbefore _ _ args) (fun values _ => ?_) m hm
      exact applyExternal_reports f values
    | function f =>
      obtain ⟨i, scope, -, hscope, hf⟩ := Environment.lookup_spec hfound
      obtain ⟨hname, hheld⟩ := hm.kept.disciplined.heldAt hscope hf
      obtain rfl := hheld f rfl
      have hown : scope.get? f.name = some (.function f) := by
        have hkey : f.name = name := hname
        rw [hkey, hf]
      have hbody := hm.bodies.get? hscope hf f rfl
      -- From here on the function stays where it was found.
      have hcall : Reports host p m.scopes.now (fun _ => True)
          (arguments eval f.name (f.params.map fun _ => .var) args >>= applyFunction exec f) :=
        (arguments_reports heval (hm.inFunction.trans hbefore) _ _ args).bind
          fun values _ => applyFunction_reports hcalled hscope hown hbody values
      exact (hcall m hm.here).mono fun n hn => hm.since hn

/-! ## Expressions and statements -/

include heval hcalled in
theorem evalExprWith_reports (hbefore : before.inFunction = inside) (e : Expr) :
    Reports host p before (fun _ => True) (evalExprWith eval exec e) := by
  have hpart := heval before hbefore
  cases e with
  | int | float | string | bool => exact .pure trivial
  | var name => exact readVariable_reports name
  | unary op operand =>
    exact (hpart operand).bind fun v _ =>
      Reports.ofExcept (fun _ _ => trivial) (op.apply_ne_stray v)
  | binary op left right =>
    exact (hpart left).bind fun l _ => (hpart right).bind fun r _ =>
      Reports.ofExcept (fun _ _ => trivial) (op.apply_ne_stray l r)
  | cond op left right =>
    refine (hpart left).bind fun l _ => ?_
    split
    · exact .pure trivial
    · exact (hpart right).bind fun r _ =>
        Reports.ofExcept (fun _ _ => trivial) (op.apply_ne_stray l r)
  | call name args => exact call_reports heval hcalled hbefore name args

theorem define_reports {name : String} {params : List String} {body : List Stmt}
    (hbody : ∀ s ∈ body, (true, s) ∈ p.places) (rounds : Nat) :
    Reports host p before (Flow.ReturnsOnly inside)
      (evalStmtWith eval exec rounds (.define name params body)) := by
  refine undeclared_reports fun m hm hnew => ?_
  have htop : ScopeStore.current m.scopes = some (m.scopes.now.depth - 1) := hm.kept.disciplined.top
  simp only [currentScope, bind, EvalM.bind, ask, htop, pure, EvalM.pure, change]
  refine .done (hm.insert hnew ?_ ?_) trivial
  · rintro f ⟨⟩
    exact htop
  · rintro f ⟨⟩
    exact hbody

variable (hexec : ∀ world : Environment, world.inFunction = inside → ∀ s, (inside, s) ∈ p.places →
  Reports host p world (Flow.ReturnsOnly inside) (exec s))

include heval hexec in
/-- A statement that was just visited.  Only its own check can fail as a stray `return` does before
    another statement is visited. -/
theorem evalStmtWith_upheld (hbefore : before.inFunction = inside) {m : Machine (Journal Environment)}
    (hm : m.Sited p before) {s : Stmt} {scopes : Environment} {rest : List (Visit Environment)}
    (hvisit : m.scopes.visits = ⟨inside, s, scopes⟩ :: rest) (rounds : Nat) :
    Upheld (Machine.Sited p before) Blamed (Flow.ReturnsOnly inside)
      (evalStmtWith eval exec rounds s host m) := by
  have hstands : (inside, s) ∈ p.places :=
    (hm.visits ⟨inside, s, scopes⟩ (by simp [hvisit])).stands
  have hpart := heval before hbefore
  have hbody : ∀ body : List Stmt, (∀ t ∈ body, (inside, t) ∈ s.parts inside) →
      Reports host p before (Flow.ReturnsOnly inside) (inBlock (sequence exec body)) := by
    intro body hparts
    refine inBlock_reports fun world hworld => .sequence trivial fun t ht => ?_
    exact hexec world (hworld.trans hbefore) t (Program.parts_mem_places hstands (hparts t ht))
  cases s with
  | skip => exact .done hm trivial
  | block body => exact hbody body (by simp [Stmt.parts]) m hm
  | declare type names =>
    refine Upholds.bind (resolveType_reports type) (fun type _ => ?_) m hm
    refine Upholds.bind (Q := fun _ => True) ?_ fun _ _ => .pure trivial
    exact .each fun name _ => declare_reports (by simp)
  | define name params body =>
    have hparts : ∀ t ∈ body, (true, t) ∈ p.places := fun t ht =>
      Program.parts_mem_places hstands (by simp [Stmt.parts, ht])
    exact define_reports hparts rounds m hm
  | assign name value =>
    refine Upholds.bind (hpart value) (fun v _ => ?_) m hm
    exact (assign_reports name v).bind fun _ _ => .pure trivial
  | when condition body =>
    refine Upholds.bind (hpart condition).truth (fun holds _ => ?_) m hm
    cases holds with
    | true => exact hbody body (by simp [Stmt.parts])
    | false => exact .pure trivial
  | loop condition body =>
    exact Upholds.iterate trivial (hpart condition).truth (hbody body (by simp [Stmt.parts])) rounds m
      hm
  | ret value =>
    have hcheck : ScopeStore.inFunction m.scopes = inside := hm.inFunction.trans hbefore
    simp only [evalStmtWith, bind, EvalM.bind, ask, hcheck]
    cases inside with
    | false => exact .failed hm fun _ => ⟨_, rest, value, hvisit, rfl, rfl⟩
    | true =>
      have hreturned : ∀ v, Flow.ReturnsOnly true (.returned v) := fun _ => rfl
      cases value with
      | none => exact .done hm (hreturned _)
      | some e => exact (hpart e).bind (fun v _ => .pure (hreturned v)) m hm
  | expr e => exact (hpart e).bind (fun v _ => .pure trivial) m hm

end Evaluators

/-- Every statement is visited where it stands.  The induction is on the fuel, in all worlds at once. -/
theorem journal_reports (fuel : Nat) :
    (∀ inside world e, world.inFunction = inside →
      Reports host p world (fun _ => True) (journalExpr fuel inside e)) ∧
    (∀ inside world s, world.inFunction = inside → (inside, s) ∈ p.places →
      Reports host p world (Flow.ReturnsOnly inside) (journalStmt fuel inside s)) := by
  induction fuel with
  | zero => exact ⟨fun _ _ _ _ => .outOfFuel, fun _ _ _ _ _ => .outOfFuel⟩
  | succ fuel ih =>
    obtain ⟨hexpr, hstmt⟩ := ih
    constructor
    · intro inside world e hworld
      exact evalExprWith_reports (fun world h e => hexpr inside world e h)
        (fun world h s => hstmt true world s h) hworld e
    · intro inside world s hworld hstands m hm
      have hfair : Visit.Fair p ⟨inside, s, m.scopes.now⟩ := ⟨hstands, hm.inFunction.trans hworld⟩
      have hvisited : ∀ v ∈ (⟨inside, s, m.scopes.now⟩ : Visit Environment) :: m.scopes.visits,
          v.Fair p := List.forall_mem_cons.2 ⟨hfair, hm.visits⟩
      exact evalStmtWith_upheld (fun world h e => hexpr inside world e h)
        (fun world h s => hstmt inside world s h) hworld
        (m := { m with scopes := { m.scopes with visits := _ :: m.scopes.visits } })
        ⟨hm.kept, hm.bodies, hm.natives, hvisited⟩ rfl fuel

/-! ## Programs -/

theorem signatureType_reports (module function name : String) :
    Reports host p before (fun _ => True) (signatureType module function name) := by
  refine .ask fun m hm => ?_
  cases ScopeStore.lookup m.scopes name with
  | none => exact .failed hm (blamed_other (by simp) m)
  | some x =>
    cases x with
    | type => exact .done hm trivial
    | «variable» | function | external => exact .failed hm (blamed_other (by simp) m)

theorem bindNative_reports {callable : NativeFunction} (hcallable : callable.FailsAsNative)
    (name : String) : Reports host p before (fun _ => True) (bindNative name callable) := by
  intro m hm
  refine .done ⟨hm.kept, hm.bodies, fun key f hf => ?_, hm.visits⟩ trivial
  rw [Table.get?_insert] at hf
  split at hf
  · cases hf
    exact hcallable
  · exact hm.natives key f hf

theorem declareExternal_reports {module : NativeModule}
    (hmodule : ∀ function f, module.function? function = some f → f.FailsAsNative)
    (signature : Signature) :
    Reports host p before (fun _ => True) (declareExternal module signature) := by
  refine Upholds.bind (Q := NativeFunction.FailsAsNative)
    (Reports.ofExcept (fun callable h => ?_) (provided_ne_stray module signature))
    fun callable hcallable => ?_
  · exact hmodule _ _ (provided_ok h).1
  · refine (Upholds.collect (signatureType_reports _ _) _).bind fun parameters _ => ?_
    have hdeclare : ∀ returns, Reports host p before (fun _ => True)
        (declare (.external ⟨signature.name, parameters, returns⟩) >>= fun _ =>
          bindNative signature.name callable) :=
      fun returns => (declare_reports (by simp)).bind fun _ _ => bindNative_reports hcallable _
    cases signature.returnType with
    | none => exact (Upholds.pure (Q := fun _ => True) trivial).bind fun returns _ => hdeclare returns
    | some name => exact (signatureType_reports _ _ name).bind fun returns _ => hdeclare returns

theorem declareHeader_reports (hregistry : host.registry.FailsAsNative) (header : Header) :
    Reports host p before (fun _ => True) (declareHeader header) := by
  refine Upholds.bind (Upholds.each fun name _ => declare_reports (by simp)) fun _ _ =>
    .each fun use _ m hm => ?_
  rw [declareModule_eq]
  cases hmodule : host.registry.resolve? use.name with
  | none => exact .failed hm (blamed_other (by simp) m)
  | some module =>
    exact Upholds.each (fun signature _ =>
      declareExternal_reports (hregistry use.name module hmodule) signature) m hm

theorem echo_reports (value : TypedValue) :
    Reports host p before (fun _ => True) (echo value) := by
  intro m hm
  unfold echo
  split
  · exact .done ⟨hm.kept, hm.bodies, hm.natives, hm.visits⟩ trivial
  · exact .done hm trivial

section Programs

variable {exec : Stmt → EvalM (Journal Environment) Flow}

theorem evalBodyWith_reports {body : List Stmt}
    (hexec : ∀ s ∈ body, Reports host p before (Flow.ReturnsOnly false) (exec s)) :
    Reports host p before (fun _ => True) (evalBodyWith exec body) := by
  induction body with
  | nil => exact .pure trivial
  | cons s rest ih =>
    obtain ⟨hfirst, hrest⟩ := List.forall_mem_cons.1 hexec
    refine hfirst.bind fun flow hflow => ?_
    rcases flow with (_ | value) | _
    · exact ih hrest
    · exact (echo_reports value).bind fun _ _ => (ih hrest).bind fun _ _ => .pure trivial
    · -- No statement at the top returns.
      cases hflow

theorem evalProgramWith_reports (hregistry : host.registry.FailsAsNative) {q : Program}
    (hexec : ∀ s ∈ q.body, Reports host p before (Flow.ReturnsOnly false) (exec s)) :
    Reports host p before (fun _ => True) (evalProgramWith exec q) := by
  have hbody : Reports host p before (fun _ => True)
      (do let results ← evalBodyWith exec q.body
          return ⟨results, ← ask ScopeStore.variablesHere⟩ :
        EvalM (Journal Environment) Execution) :=
    (evalBodyWith_reports hexec).bind fun _ _ => .ask fun _ hm => .done hm trivial
  obtain ⟨header, body⟩ := q
  cases header with
  | none => exact hbody
  | some header => exact (declareHeader_reports hregistry header).bind fun _ _ => hbody

end Programs

end EvalM

end Tremolo
