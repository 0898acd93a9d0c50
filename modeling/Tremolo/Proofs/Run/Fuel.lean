import Tremolo.Proofs.Run.Reuse

/-! # More fuel changes no answer

Fuel bounds how long an evaluation may go on, and nothing else: one that came to an end comes to the same
end with more fuel (`EvalM.eval_below`).  So a program ends in one way at most (`Machine.Ends.unique`).

There is one rule for each way of putting computations together. -/

namespace Tremolo

namespace EvalM

variable {σ α β : Type}

/-- Wherever `x` comes to an end, `y` comes to the same end. -/
def Below (x y : EvalM σ α) : Prop :=
  ∀ host m, (x host m).1 ≠ .outOfFuel → y host m = x host m

/-! ## Rules -/

theorem Below.refl (x : EvalM σ α) : Below x x :=
  fun _ _ _ => rfl

theorem Below.outOfFuel (y : EvalM σ α) : Below outOfFuel y :=
  fun _ _ hends => absurd rfl hends

theorem Below.bind {x y : EvalM σ α} {k l : α → EvalM σ β} (hxy : Below x y)
    (hkl : ∀ a, Below (k a) (l a)) : Below (x >>= k) (y >>= l) := by
  intro host m
  have hfirst := hxy host m
  change (EvalM.bind x k host m).1 ≠ _ → EvalM.bind y l host m = EvalM.bind x k host m
  unfold EvalM.bind
  generalize x host m = r at hfirst
  obtain ⟨outcome, n⟩ := r
  intro hends
  -- If the first part comes to an end, what follows starts from the same machine on both sides.
  cases outcome with
  | done a =>
    rw [hfirst (by simp)]
    exact hkl a host n hends
  | failed | deadScope => rw [hfirst (by simp)]
  | outOfFuel => exact absurd rfl hends

theorem Below.collect {f g : α → EvalM σ β} (hfg : ∀ a, Below (f a) (g a)) (as : List α) :
    Below (collect f as) (collect g as) := by
  induction as with
  | nil => exact .refl _
  | cons a as ih => exact (hfg a).bind fun _ => ih.bind fun _ => .refl _

theorem Below.sequence {exec exec' : Stmt → EvalM σ Flow} (hexec : ∀ s, Below (exec s) (exec' s))
    (body : List Stmt) : Below (sequence exec body) (sequence exec' body) := by
  induction body with
  | nil => exact .refl _
  | cons s rest ih =>
    refine (hexec s).bind fun flow => ?_
    cases flow with
    | normal _ => exact ih
    | returned _ => exact .refl _

theorem Below.truth {x y : EvalM σ TypedValue} (hxy : Below x y) : Below (truth x) (truth y) :=
  hxy.bind fun _ => .refl _

/-- A loop may go through more rounds. -/
theorem Below.iterate {condition condition' : EvalM σ Bool} {body body' : EvalM σ Flow}
    (hcondition : Below condition condition') (hbody : Below body body') {rounds rounds' : Nat}
    (hrounds : rounds ≤ rounds') :
    Below (iterate condition body rounds) (iterate condition' body' rounds') := by
  induction rounds generalizing rounds' with
  | zero => exact .outOfFuel _
  | succ rounds ih =>
    -- The other loop has a round left too, and as many after it.
    obtain ⟨rounds', rfl⟩ := Nat.exists_eq_add_of_lt hrounds
    refine hcondition.bind fun holds => ?_
    cases holds with
    | false => exact .refl _
    | true =>
      refine hbody.bind fun flow => ?_
      cases flow with
      | normal _ => exact ih (Nat.le_add_right _ _)
      | returned _ => exact .refl _

variable [ScopeStore σ]

theorem Below.inScope {x y : EvalM σ α} (hxy : Below x y) (name : String) (kind : ScopeKind)
    (parent : ScopeId) : Below (inScope name kind parent x) (inScope name kind parent y) := by
  intro host m
  unfold EvalM.inScope
  cases ScopeStore.openScope? m.scopes name kind parent with
  | none => exact fun _ => rfl
  | some scopes =>
    intro hends
    dsimp only
    rw [hxy host _ hends]

theorem Below.inBlock {x y : EvalM σ α} (hxy : Below x y) : Below (inBlock x) (inBlock y) :=
  (Below.refl _).bind fun parent => hxy.inScope _ _ parent

/-! ## Evaluation -/

section Evaluators

variable {eval eval' : Expr → EvalM σ TypedValue} {exec exec' : Stmt → EvalM σ Flow}
  (heval : ∀ e, Below (eval e) (eval' e)) (hexec : ∀ s, Below (exec s) (exec' s))

omit [ScopeStore σ] in
include heval in
theorem arguments_below (function : String) (formals : List ValueType) (args : List Expr) :
    Below (arguments eval function formals args) (arguments eval' function formals args) := by
  unfold arguments
  split
  · exact .refl _
  · exact (Below.collect heval args).bind fun _ => .refl _

include hexec in
theorem applyFunction_below (f : FunctionDef) (values : List TypedValue) :
    Below (applyFunction exec f values) (applyFunction exec' f values) := by
  refine Below.bind (Below.inScope ?_ f.name .function f.scope) fun _ => .refl _
  exact (Below.refl _).bind fun _ => .sequence hexec f.body

include heval hexec

theorem call_below (name : String) (args : List Expr) :
    Below (call eval exec name args) (call eval' exec' name args) := by
  refine (Below.refl _).bind fun found => ?_
  rcases found with _ | ⟨_ | _ | f | f⟩
  case some.function =>
    exact (arguments_below heval _ _ args).bind fun values => applyFunction_below hexec f values
  case some.external => exact (arguments_below heval _ _ args).bind fun _ => .refl _
  all_goals exact .refl _

theorem evalExprWith_below (e : Expr) : Below (evalExprWith eval exec e) (evalExprWith eval' exec' e) := by
  cases e with
  | int | float | string | bool | var => exact .refl _
  | unary op operand => exact (heval operand).bind fun _ => .refl _
  | binary op left right => exact (heval left).bind fun _ => (heval right).bind fun _ => .refl _
  | cond op left right =>
    refine (heval left).bind fun l => ?_
    cases op.shortcut? l.value with
    | some b => exact .refl _
    | none => exact (heval right).bind fun _ => .refl _
  | call name args => exact call_below heval hexec name args

theorem evalStmtWith_below {rounds rounds' : Nat} (hrounds : rounds ≤ rounds') (s : Stmt) :
    Below (evalStmtWith eval exec rounds s) (evalStmtWith eval' exec' rounds' s) := by
  have hblock : ∀ body, Below (inBlock (sequence exec body)) (inBlock (sequence exec' body)) :=
    fun body => .inBlock (.sequence hexec body)
  cases s with
  | skip | declare | define => exact .refl _
  | block body => exact hblock body
  | assign name value => exact (heval value).bind fun _ => .refl _
  | when condition body =>
    refine (Below.truth (heval condition)).bind fun holds => ?_
    cases holds with
    | true => exact hblock body
    | false => exact .refl _
  | loop condition body => exact .iterate (.truth (heval condition)) (hblock body) hrounds
  | ret value =>
    refine (Below.refl _).bind fun inside => ?_
    cases inside with
    | false => exact .refl _
    | true =>
      cases value with
      | none => exact .refl _
      | some e => exact (heval e).bind fun _ => .refl _
  | expr e => exact (heval e).bind fun _ => .refl _

end Evaluators

/-- By induction on fuel, for expressions and statements together. -/
theorem eval_below {fuel fuel' : Nat} (hfuel : fuel ≤ fuel') :
    (∀ e, Below (evalExpr fuel e : EvalM σ TypedValue) (evalExpr fuel' e)) ∧
    ∀ s, Below (evalStmt fuel s : EvalM σ Flow) (evalStmt fuel' s) := by
  induction fuel generalizing fuel' with
  | zero => exact ⟨fun _ => .outOfFuel _, fun _ => .outOfFuel _⟩
  | succ fuel ih =>
    obtain ⟨more, rfl⟩ := Nat.exists_eq_add_of_lt hfuel
    obtain ⟨heval, hexec⟩ := ih (Nat.le_add_right fuel more)
    exact ⟨evalExprWith_below heval hexec, evalStmtWith_below heval hexec (Nat.le_add_right fuel more)⟩

theorem evalBody_below {fuel fuel' : Nat} (hfuel : fuel ≤ fuel') (body : List Stmt) :
    Below (evalBody fuel body : EvalM σ (List TypedValue)) (evalBody fuel' body) := by
  induction body with
  | nil => exact .refl _
  | cons s rest ih =>
    refine ((eval_below hfuel).2 s).bind fun flow => ?_
    rcases flow with (_ | value) | _
    · exact ih
    · exact (Below.refl _).bind fun _ => Below.bind ih fun _ => .refl _
    · exact .refl _

theorem evalProgram_below {fuel fuel' : Nat} (hfuel : fuel ≤ fuel') (p : Program) :
    Below (evalProgram fuel p : EvalM σ Execution) (evalProgram fuel' p) := by
  obtain ⟨header, body⟩ := p
  cases header with
  | none => exact (evalBody_below hfuel body).bind fun _ => .refl _
  | some header =>
    exact (Below.refl _).bind fun _ => (evalBody_below hfuel body).bind fun _ => .refl _

end EvalM

namespace Machine

variable {σ : Type} [ScopeStore σ] {m : Machine σ} {p : Program} {host : Host}

theorem execute_of_le {fuel fuel' : Nat} (hfuel : fuel ≤ fuel')
    (hends : (m.execute fuel p host).1 ≠ .outOfFuel) :
    m.execute fuel' p host = m.execute fuel p host := by
  have hrun : m.run fuel' p host = m.run fuel p host := EvalM.evalProgram_below hfuel p host _ hends
  rw [execute_eq, execute_eq, hrun]

variable {result result' : Except Error Execution} {trace trace' : List (String × TypedValue)}
  {shown shown' : List String}

/-- A program that ends does so with all fuel from some amount on. -/
theorem Ends.eventually (h : m.Ends p host result trace shown) :
    ∃ enough, ∀ fuel, enough ≤ fuel → (m.execute fuel p host).1 = .ofExcept result ∧
      (m.execute fuel p host).2.trace.toList = trace ∧
      (m.execute fuel p host).2.shown.toList = shown := by
  obtain ⟨enough, houtcome, hrecords⟩ := h
  refine ⟨enough, fun fuel hfuel => ?_⟩
  have hends : (m.execute enough p host).1 ≠ .outOfFuel := by
    rw [houtcome]
    cases result <;> nofun
  rw [execute_of_le hfuel hends]
  exact ⟨houtcome, hrecords⟩

/-- A program ends in one way at most. -/
theorem Ends.unique (h : m.Ends p host result trace shown) (h' : m.Ends p host result' trace' shown') :
    result = result' ∧ trace = trace' ∧ shown = shown' := by
  obtain ⟨enough, hall⟩ := h.eventually
  obtain ⟨enough', hall'⟩ := h'.eventually
  -- With the larger amount of fuel there is one run, and both are how it ends.
  obtain ⟨houtcome, htrace, hshown⟩ := hall (max enough enough') (Nat.le_max_left _ _)
  obtain ⟨houtcome', htrace', hshown'⟩ := hall' (max enough enough') (Nat.le_max_right _ _)
  refine ⟨?_, htrace.symm.trans htrace', hshown.symm.trans hshown'⟩
  have hsame := houtcome.symm.trans houtcome'
  cases result <;> cases result' <;> cases hsame <;> rfl

end Machine

end Tremolo
