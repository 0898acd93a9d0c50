import Tremolo.Run.Monad

/-! # Names during a run

Declaring, reading and assigning names, and the header of a program. -/

namespace Tremolo.EvalM

variable {σ : Type} [ScopeStore σ]

/-! ## Declaring -/

/-- A name may be bound only once in a scope. -/
def ensureUndeclared (name : String) : EvalM σ Unit := do
  if (← ask fun scopes => ScopeStore.lookupHere scopes name).isSome then fail (.duplicate name)

/-- Binds a symbol whose name is new in the current scope. -/
def declare (symbol : Symbol) : EvalM σ Unit := do
  ensureUndeclared symbol.name
  change fun scopes => ScopeStore.insert scopes symbol

/-- The type that a name stands for in the current scope. -/
def resolveType (name : String) : EvalM σ ValueType := do
  match ← ask fun scopes => ScopeStore.lookup scopes name with
  | some (.type declared) => return .ofName declared
  | some symbol => fail (.typeMismatch name "type" symbol.kind.name)
  | none => fail (.undefined name)

def declareVariables (type : ValueType) (names : List String) : EvalM σ Unit :=
  each (fun name => declare (.variable (.unset name type))) names

/-! ## Reading and assigning -/

def readVariable (name : String) : EvalM σ TypedValue := do
  match ← ask fun scopes => ScopeStore.lookup scopes name with
  | some (.variable v) =>
    match v.value with
    | some value => return value
    | none => fail (.unassigned name)
  | some symbol => fail (.typeMismatch name "variable" symbol.kind.name)
  | none => fail (.undefined name)

def record (name : String) (value : TypedValue) : EvalM σ Unit :=
  fun host m =>
    (.done (), if host.config.trace then { m with trace := m.trace.push (name, value) } else m)

def assign (name : String) (value : TypedValue) : EvalM σ Unit := do
  match ← ask fun scopes => ScopeStore.assign scopes name value with
  -- On record is the value as it was given, under the type it came with.
  | .stored after => do
    change fun _ => after
    record name value
  | .rejected e => fail e
  | .notVariable kind => fail (.typeMismatch name "variable" kind.name)
  | .unbound => fail (.undefined name)

/-! ## Header -/

def signatureType (module : String) (function name : String) : EvalM σ ValueType := do
  match ← ask fun scopes => ScopeStore.lookup scopes name with
  | some (.type declared) => return .ofName declared
  | _ => fail (.moduleResolution module (.unknownType name function))

/-- The function of a module that a signature declares, if their arities agree. -/
def provided (module : NativeModule) (s : Signature) : Except Error NativeFunction :=
  match module.function? s.name with
  | none => .error (.moduleResolution module.name (.notProvided s.name))
  | some callable =>
    match callable.arity with
    | some arity =>
      if arity = s.parameterTypes.length then .ok callable
      else .error (.moduleResolution module.name
        (.arityConflict s.name arity s.parameterTypes.length))
    | none => .ok callable

def bindNative (name : String) (callable : NativeFunction) : EvalM σ Unit :=
  fun _ m => (.done (), { m with natives := m.natives.insert name callable })

def declareExternal (module : NativeModule) (s : Signature) : EvalM σ Unit := do
  let callable ← ofExcept (provided module s)
  let parameters ← collect (signatureType module.name s.name) s.parameterTypes
  let returns ← match s.returnType with
    | some name => signatureType module.name s.name name
    | none => pure .null
  declare (.external ⟨s.name, parameters, returns⟩)
  bindNative s.name callable

def declareModule (use : ModuleUse) : EvalM σ Unit := do
  match ← askHost (·.registry.resolve? use.name) with
  | some module => each (declareExternal module) use.functions
  | none => fail (.moduleResolution use.name .noSuchModule)

/-- Declares what a header names: first the types, then the modules. -/
def declareHeader (header : Header) : EvalM σ Unit := do
  each (fun name => declare (.type name)) header.types
  each declareModule header.modules

end Tremolo.EvalM
