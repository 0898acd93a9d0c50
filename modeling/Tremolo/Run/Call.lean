import Tremolo.Run.Names

/-! # Calls

Arguments are counted before any of them is evaluated, and checked against their types after all of
them are.  A function of the script runs in a scope inside the one that declared it; a native
function gets bare values, and its result is labelled with the declared type. -/

namespace Tremolo

/-- How a statement ends. -/
inductive Flow where
  /-- It completed; an expression statement gives its value. -/
  | normal (value : Option TypedValue)
  /-- A `return` is on its way to the nearest call. -/
  | returned (value : TypedValue)

/-- What a call gives back when its body ends like this. -/
def Flow.result : Flow → TypedValue
  | .normal _ => .null
  | .returned value => value

/-- Checks arguments against the types of the parameters, counting positions from `position`. -/
def checkArguments (function : String) (position : Nat) :
    List ValueType → List TypedValue → Except Error Unit
  | formal :: formals, value :: values =>
    if formal.accepts value then checkArguments function (position + 1) formals values
    else .error (.argumentMismatch function position formal value.label)
  | _, _ => .ok ()

/-- The result of a native call under its declared type. -/
def ExternalFunction.accept (f : ExternalFunction) (result : Value) : Except Error TypedValue :=
  match f.returnType with
  -- Without a declared type whatever comes back is dropped.
  | .null => .ok .null
  | type =>
    let typed : TypedValue := ⟨type, result⟩
    if type.accepts typed then .ok typed
    else .error (.nativeFailure f.name
      ("returned " ++ result.kindName ++ ", declared " ++ type.name))

namespace EvalM

variable {σ : Type} [ScopeStore σ]

def arguments (eval : Expr → EvalM σ TypedValue) (function : String) (formals : List ValueType)
    (args : List Expr) : EvalM σ (List TypedValue) := do
  -- The arguments are counted before the first of them is evaluated.
  if formals.length ≠ args.length then
    fail (.arityMismatch function formals.length args.length)
  else
    let values ← collect eval args
    ofExcept (checkArguments function 1 formals values)
    return values

def bindParameter (param : String × TypedValue) : EvalM σ Unit := do
  ensureUndeclared param.1
  let v ← ofExcept (Variable.withValue param.1 .var param.2)
  change fun scopes => ScopeStore.insert scopes (.variable v)

/-- Runs statements up to the end or to a `return`. -/
def sequence (exec : Stmt → EvalM σ Flow) : List Stmt → EvalM σ Flow
  | [] => pure (.normal none)
  | s :: rest => do
    match ← exec s with
    | .returned value => return .returned value
    | .normal _ => sequence exec rest

def applyFunction (exec : Stmt → EvalM σ Flow) (f : FunctionDef) (values : List TypedValue) :
    EvalM σ TypedValue := do
  -- The scope lies inside the one of the declaration, wherever the call stands.
  let flow ← inScope f.name .function f.scope do
    each bindParameter (f.params.zip values)
    sequence exec f.body
  return flow.result

/-- Calls the bound native function with the bare values and records the call. -/
def invoke (f : ExternalFunction) (callable : NativeFunction) (args : List TypedValue) :
    EvalM σ Value :=
  fun _ m =>
    let result := callable.call m.calls.size (args.map (·.value))
    -- A call that fails is on record as well.
    let after := { m with calls := m.calls.push ⟨f, callable, args, result⟩ }
    match result with
    | .ok value => (.done value, after)
    | .error e => (.failed e, after)

def boundNative (name : String) : EvalM σ NativeFunction :=
  fun _ m =>
    match m.natives.get? name with
    | some callable => (.done callable, m)
    | none => (.failed (.undefined name), m)

def applyExternal (f : ExternalFunction) (values : List TypedValue) : EvalM σ TypedValue := do
  let callable ← boundNative f.name
  let result ← invoke f callable values
  ofExcept (f.accept result)

def call (eval : Expr → EvalM σ TypedValue) (exec : Stmt → EvalM σ Flow) (name : String)
    (args : List Expr) : EvalM σ TypedValue := do
  match ← ask fun scopes => ScopeStore.lookup scopes name with
  | some (.function f) => do
    let values ← arguments eval f.name (f.params.map fun _ => .var) args
    applyFunction exec f values
  | some (.external f) => do
    let values ← arguments eval f.name f.parameterTypes args
    applyExternal f values
  | some symbol => fail (.notCallable name symbol.kind)
  | none => fail (.undefined name)

end EvalM

end Tremolo
