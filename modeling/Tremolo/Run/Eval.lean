import Tremolo.Run.Call
import Tremolo.Value.Operation

/-! # Evaluation

Expressions and statements are evaluated by recursion on fuel, which every nested evaluation and
every round of a loop uses up; running out of it is an outcome of its own and no error.

* `EvalM.iterate` — loops;
* `evalExprWith`, `evalStmtWith` — one level of evaluation, with what it does to the parts left open;
* `evalExpr`, `evalStmt` — expressions and statements;
* `Machine.execute` — a whole program in a global scope of its own. -/

namespace Tremolo

variable {σ : Type} [ScopeStore σ]

/-! ## Expressions and statements -/

/-- Repeats `body` while `condition` holds, for at most `fuel` rounds. -/
def EvalM.iterate (condition : EvalM σ Bool) (body : EvalM σ Flow) : (fuel : Nat) → EvalM σ Flow
  | 0 => outOfFuel
  | fuel + 1 => do
    if ← condition then
      match ← body with
      | .returned value => return .returned value
      | .normal _ => iterate condition body fuel
    else return .normal none

def EvalM.truth (x : EvalM σ TypedValue) : EvalM σ Bool := do
  return (← x).value.truthy

open EvalM

/-- Evaluates an expression whose operands and arguments are evaluated by `eval`, and in whose calls the
    statements of a function are executed by `exec`.  Operands are evaluated from left to right. -/
def evalExprWith (eval : Expr → EvalM σ TypedValue) (exec : Stmt → EvalM σ Flow) :
    Expr → EvalM σ TypedValue
  | .int n => pure ⟨.number, .int n⟩
  | .float x => pure ⟨.number, .float x⟩
  | .string s => pure ⟨.string, .string s⟩
  | .bool b => pure (.bool b)
  | .var name => readVariable name
  | .unary op operand => do
    let v ← eval operand
    ofExcept (op.apply v)
  | .binary op left right => do
    let l ← eval left
    let r ← eval right
    ofExcept (op.apply l r)
  | .cond op left right => do
    let l ← eval left
    -- The right operand of a connective counts only if the left one does not decide.
    match op.shortcut? l.value with
    | some b => return .bool b
    | none => do
      let r ← eval right
      ofExcept (op.apply l r)
  | .call name args => call eval exec name args

/-- Evaluates a statement whose expressions are evaluated by `eval` and whose own statements are executed
    by `exec`; a loop goes through at most `rounds` rounds. -/
def evalStmtWith (eval : Expr → EvalM σ TypedValue) (exec : Stmt → EvalM σ Flow) (rounds : Nat) :
    Stmt → EvalM σ Flow
  | .skip => pure (.normal none)
  | .block body => inBlock (sequence exec body)
  | .declare type names => do
    let type ← resolveType type
    declareVariables type names
    return .normal none
  | .define name params body => do
    ensureUndeclared name
    let scope ← currentScope
    change fun scopes => ScopeStore.insert scopes (.function ⟨name, params, body, scope⟩)
    return .normal none
  | .assign name value => do
    let v ← eval value
    assign name v
    return .normal none
  | .when condition body => do
    if ← truth (eval condition) then inBlock (sequence exec body)
    else return .normal none
  | .loop condition body => iterate (truth (eval condition)) (inBlock (sequence exec body)) rounds
  | .ret value => do
    -- Whether a `return` is allowed is decided before its value is evaluated.
    if ← ask ScopeStore.inFunction then
      match value with
      | some e => return .returned (← eval e)
      | none => return .returned .null
    else fail .returnOutsideFunction
  | .expr e => return .normal (some (← eval e))

mutual

def evalExpr : (fuel : Nat) → Expr → EvalM σ TypedValue
  | 0, _ => outOfFuel
  | fuel + 1, e => evalExprWith (evalExpr fuel) (evalStmt fuel) e

def evalStmt : (fuel : Nat) → Stmt → EvalM σ Flow
  | 0, _ => outOfFuel
  | fuel + 1, s => evalStmtWith (evalExpr fuel) (evalStmt fuel) fuel s

end

/-! ## Programs -/

structure Execution where
  /-- The values of the top-level expression statements, in order. -/
  results : List TypedValue
  /-- The global variables in order of declaration, with the values they ended with. -/
  globals : List (String × Option TypedValue)

def Execution.global? (x : Execution) (name : String) : Option TypedValue :=
  (x.globals.lookup name).join

/-- The value of the last top-level expression statement. -/
def Execution.last? (x : Execution) : Option TypedValue :=
  x.results.getLast?

def EvalM.echo (value : TypedValue) : EvalM σ Unit :=
  fun host m =>
    (.done (), if host.config.echo then { m with shown := m.shown.push value.text } else m)

/-- Runs the top-level statements, each by `exec`, and collects the values of expression statements. -/
def evalBodyWith (exec : Stmt → EvalM σ Flow) : List Stmt → EvalM σ (List TypedValue)
  | [] => pure []
  | s :: rest => do
    match ← exec s with
    | .normal (some value) => do
      echo value
      let values ← evalBodyWith exec rest
      return value :: values
    | .normal none => evalBodyWith exec rest
    -- A statement refuses to return outside of a call, so this is not reached.
    | .returned _ => fail .returnOutsideFunction

def evalBody (fuel : Nat) : List Stmt → EvalM σ (List TypedValue) :=
  evalBodyWith (evalStmt fuel)

/-- Runs a program in the current scope, its statements by `exec`. -/
def evalProgramWith (exec : Stmt → EvalM σ Flow) (p : Program) : EvalM σ Execution := do
  match p.header with
  | some header => declareHeader header
  | none => pure ()
  let results ← evalBodyWith exec p.body
  return ⟨results, ← ask ScopeStore.variablesHere⟩

def evalProgram (fuel : Nat) : Program → EvalM σ Execution :=
  evalProgramWith (evalStmt fuel)

/-- Runs a program in a new global scope, which is left however the program ends. -/
def Machine.execute (fuel : Nat) (p : Program) (host : Host) (m : Machine σ) :
    Outcome Execution × Machine σ :=
  let previous := ScopeStore.current m.scopes
  -- Native functions and records of an earlier run are dropped.
  let start : Machine σ := ⟨ScopeStore.openGlobal m.scopes, .empty, #[], #[], #[]⟩
  let (outcome, after) := evalProgram fuel p host start
  (outcome, { after with scopes := ScopeStore.closeScope after.scopes previous })

/-- What was shown during the last run: one line for each value. -/
def Machine.shownText (m : Machine σ) : String :=
  String.join (m.shown.toList.map (· ++ "\n"))

/-- More fuel than any run that ends in reasonable time can use up. -/
def ampleFuel : Nat :=
  Nat.pow 2 62

end Tremolo
