import Tremolo.Proofs.Run.Visited

/-! # One statement after another

* `EvalM.Yields` — what a computation gives, whatever it starts from: only expression statements have a
  value, and a `return` always returns;
* `evalBodyWith_append`, `evalProgram_concat` — a program with one statement more at its end runs as it
  does without, and then the statement. -/

namespace Tremolo

namespace EvalM

variable {σ α β γ : Type}

/-! ## Laws of computations -/

protected theorem bind_pure (x : EvalM σ α) : EvalM.bind x EvalM.pure = x := by
  funext host m
  unfold EvalM.bind
  rcases x host m with ⟨_ | _ | _ | _, n⟩ <;> rfl

protected theorem bind_assoc (x : EvalM σ α) (f : α → EvalM σ β) (g : β → EvalM σ γ) :
    EvalM.bind (EvalM.bind x f) g = EvalM.bind x fun a => EvalM.bind (f a) g := by
  funext host m
  unfold EvalM.bind
  rcases x host m with ⟨_ | _ | _ | _, n⟩ <;> rfl

instance : LawfulMonad (EvalM σ) :=
  .mk' (EvalM σ) EvalM.bind_pure (fun _ _ => rfl) EvalM.bind_assoc

/-- Looking at the scopes does nothing by itself. -/
theorem ask_bind_const (f : σ → α) (x : EvalM σ β) : (ask f >>= fun _ => x) = x :=
  rfl

/-! ## What computations yield -/

/-- Every result of the computation is as in `Q`. -/
def Yields (Q : α → Prop) (x : EvalM σ α) : Prop :=
  ∀ host m a, (x host m).1 = .done a → Q a

variable {Q : α → Prop}

theorem Yields.pure {a : α} (ha : Q a) : Yields Q (Pure.pure a : EvalM σ α) := by
  intro host m b hb
  cases hb
  exact ha

theorem Yields.fail (e : Error) : Yields Q (fail e : EvalM σ α) :=
  nofun

theorem Yields.outOfFuel : Yields Q (outOfFuel : EvalM σ α) :=
  nofun

/-- The last computation decides. -/
theorem Yields.bind {x : EvalM σ β} {k : β → EvalM σ α} (hk : ∀ b, Yields Q (k b)) :
    Yields Q (x >>= k) := by
  intro host m a ha
  change (EvalM.bind x k host m).1 = .done a at ha
  unfold EvalM.bind at ha
  generalize x host m = r at ha
  obtain ⟨outcome, n⟩ := r
  cases outcome with
  | done b => exact hk b host n a ha
  | failed | deadScope | outOfFuel => cases ha

variable [ScopeStore σ]

theorem Yields.inBlock {body : EvalM σ α} (hbody : Yields Q body) : Yields Q (inBlock body) := by
  refine .bind fun parent host m a ha => ?_
  unfold inScope at ha
  cases hopen : ScopeStore.openScope? m.scopes "block" .block parent with
  | none => simp [hopen] at ha
  | some scopes =>
    rw [hopen] at ha
    exact hbody host _ a ha

end EvalM

/-! ## What statements yield -/

/-- The statement was left without a value. -/
def Flow.Valueless (flow : Flow) : Prop :=
  ∀ value, flow ≠ .normal (some value)

section Statements

variable {σ : Type}

open EvalM

theorem sequence_valueless (exec : Stmt → EvalM σ Flow) (body : List Stmt) :
    Yields Flow.Valueless (sequence exec body) := by
  induction body with
  | nil => exact .pure (by simp [Flow.Valueless])
  | cons s rest ih =>
    refine .bind fun flow => ?_
    cases flow with
    | normal _ => exact ih
    | returned _ => exact .pure (by simp [Flow.Valueless])

theorem iterate_valueless (condition : EvalM σ Bool) (body : EvalM σ Flow) (fuel : Nat) :
    Yields Flow.Valueless (iterate condition body fuel) := by
  induction fuel with
  | zero => exact .outOfFuel
  | succ fuel ih =>
    refine .bind fun holds => ?_
    cases holds with
    | false => exact .pure (by simp [Flow.Valueless])
    | true =>
      refine .bind fun flow => ?_
      cases flow with
      | normal _ => exact ih
      | returned _ => exact .pure (by simp [Flow.Valueless])

variable [ScopeStore σ]

theorem evalStmt_ret (fuel : Nat) (value : Option Expr) :
    Yields (fun flow => ∃ v, flow = .returned v) (evalStmt fuel (.ret value) : EvalM σ Flow) := by
  cases fuel with
  | zero => exact .outOfFuel
  | succ fuel =>
    refine .bind fun inFunction => ?_
    cases inFunction with
    | false => exact .fail _
    | true =>
      cases value with
      | none => exact .pure ⟨_, rfl⟩
      | some e => exact .bind fun v => .pure ⟨v, rfl⟩

/-- A statement spends one unit of fuel on its way to its expression. -/
theorem evalStmt_expr (fuel : Nat) (e : Expr) :
    (evalStmt fuel (.expr e) : EvalM σ Flow) =
      do return .normal (some (← evalExpr (fuel - 1) e)) := by
  cases fuel with
  | zero => rfl
  | succ fuel => rfl

/-- Only expression statements have a value. -/
theorem evalStmt_valueless {s : Stmt} (hs : ∀ e, s ≠ .expr e) (fuel : Nat) :
    Yields Flow.Valueless (evalStmt fuel s : EvalM σ Flow) := by
  have hnone : Flow.Valueless (.normal none) := by simp [Flow.Valueless]
  cases fuel with
  | zero => exact .outOfFuel
  | succ fuel =>
    cases s with
    | skip => exact .pure hnone
    | block body => exact (sequence_valueless _ body).inBlock
    | declare | assign => exact .bind fun _ => .bind fun _ => .pure hnone
    | define => exact .bind fun _ => .bind fun _ => .bind fun _ => .pure hnone
    | when condition body =>
      refine .bind fun holds => ?_
      cases holds with
      | true => exact (sequence_valueless _ body).inBlock
      | false => exact .pure hnone
    | loop => exact iterate_valueless _ _ _
    | ret value =>
      intro host m flow hflow
      obtain ⟨v, rfl⟩ := evalStmt_ret (fuel + 1) value host m flow hflow
      simp [Flow.Valueless]
    | expr e => exact absurd rfl (hs e)

/-! ## Programs, statement by statement -/

omit [ScopeStore σ] in
theorem evalBodyWith_append (exec : Stmt → EvalM σ Flow) (front back : List Stmt) :
    evalBodyWith exec (front ++ back) = do
      let values ← evalBodyWith exec front
      let others ← evalBodyWith exec back
      return values ++ others := by
  induction front with
  | nil => simp [evalBodyWith]
  | cons s rest ih =>
    simp only [List.cons_append, evalBodyWith, ih, bind_assoc]
    congr
    funext flow
    rcases flow with (_ | value) | _
    · simp
    · simp
    · rfl

theorem evalBody_append (fuel : Nat) (front back : List Stmt) :
    (evalBody fuel (front ++ back) : EvalM σ (List TypedValue)) = do
      let values ← evalBody fuel front
      let others ← evalBody fuel back
      return values ++ others :=
  evalBodyWith_append (evalStmt fuel) front back

/-- What a statement at the end of a program adds to what there is by then. -/
def EvalM.lastly (fuel : Nat) (s : Stmt) (x : Execution) : EvalM σ Execution := do
  let values ← evalBody fuel [s]
  return ⟨x.results ++ values, ← ask ScopeStore.variablesHere⟩

theorem evalProgram_concat (fuel : Nat) (header : Option Header) (front : List Stmt) (s : Stmt) :
    (evalProgram fuel ⟨header, front ++ [s]⟩ : EvalM σ Execution) =
      evalProgram fuel ⟨header, front⟩ >>= lastly fuel s := by
  cases header with
  | none =>
    simp only [evalProgram, evalProgramWith, evalBody, evalBodyWith_append, bind_assoc, pure_bind,
      lastly, ask_bind_const]
  | some header =>
    simp only [evalProgram, evalProgramWith, evalBody, evalBodyWith_append, bind_assoc, pure_bind,
      lastly, ask_bind_const]

theorem Machine.run_concat (m : Machine σ) (fuel : Nat) (header : Option Header) (front : List Stmt)
    (s : Stmt) (host : Host) :
    m.run fuel ⟨header, front ++ [s]⟩ host =
      match m.run fuel ⟨header, front⟩ host with
      | (.done x, n) => lastly fuel s x host n
      | (.failed e, n) => (.failed e, n)
      | (.deadScope id, n) => (.deadScope id, n)
      | (.outOfFuel, n) => (.outOfFuel, n) := by
  simp only [Machine.run, evalProgram_concat, bind, EvalM.bind]
  rcases evalProgram fuel ⟨header, front⟩ host (fresh (ScopeStore.openGlobal m.scopes))
    with ⟨_ | _ | _ | _, n⟩ <;> rfl

end Statements

end Tremolo
