import Tremolo.Native.Basic
import Tremolo.Scope.Store
import Tremolo.Text.Category

/-! # Computations of a run

A computation reads the host, changes the machine and ends in an outcome.  The machine survives
failures: what was recorded before an error stays recorded.

* `Machine` — scopes, bound native functions and records of a run;
* `Outcome` — a result, a script error, a scope that is gone, or no fuel;
* `EvalM` — computations, with `inScope` as the only way in and out of a scope. -/

namespace Tremolo

/-! ## Configuration -/

/-- What a run records and shows besides its results. -/
structure Config where
  trace : Bool := false
  /-- Show the value of each top-level expression statement. -/
  echo : Bool := false
deriving DecidableEq

def Config.onWords : List String :=
  ["1", "true", "yes", "on"]

/-- Whether a setting is on; blanks around it and case do not matter, and without a setting it is
    off. -/
def Config.isOn : Option String → Bool
  | some text => (Text.trim text).map Char.toLower ∈ onWords
  | none => false

def Config.ofVariables (setting? : String → Option String) : Config :=
  { trace := isOn (setting? "AUDIOSCRIPT_TRACE")
    echo := isOn (setting? "AUDIOSCRIPT_ECHO") }

/-! ## Machines -/

/-- A call of a native function during a run. -/
structure NativeCall where
  function : ExternalFunction
  callable : NativeFunction
  /-- The arguments as they were checked; the native function sees only their values. -/
  args : List TypedValue
  result : Except Error Value

/-- The state of a run over a store `σ` of scopes. -/
structure Machine (σ : Type) where
  scopes : σ
  /-- The native functions that the header of the program has bound. -/
  natives : Table NativeFunction
  /-- The assignments made, if they are to be recorded. -/
  trace : Array (String × TypedValue)
  shown : Array String
  calls : Array NativeCall

def Machine.initial {σ : Type} [ScopeStore σ] : Machine σ :=
  ⟨ScopeStore.empty, .empty, #[], #[], #[]⟩

/-- What a run is given from outside. -/
structure Host where
  registry : Registry
  config : Config

inductive Outcome (α : Type) where
  | done (result : α)
  | failed (error : Error)
  /-- A scope was to be opened inside one that is not live. -/
  | deadScope (id : ScopeId)
  | outOfFuel

def EvalM (σ α : Type) : Type :=
  Host → Machine σ → Outcome α × Machine σ

namespace EvalM

variable {σ α β : Type}

protected def pure (a : α) : EvalM σ α :=
  fun _ m => (.done a, m)

protected def bind (x : EvalM σ α) (f : α → EvalM σ β) : EvalM σ β :=
  fun host m =>
    match x host m with
    | (.done a, m) => f a host m
    | (.failed e, m) => (.failed e, m)
    | (.deadScope id, m) => (.deadScope id, m)
    | (.outOfFuel, m) => (.outOfFuel, m)

instance : Monad (EvalM σ) where
  pure := EvalM.pure
  bind := EvalM.bind

def fail (e : Error) : EvalM σ α :=
  fun _ m => (.failed e, m)

def outOfFuel : EvalM σ α :=
  fun _ m => (.outOfFuel, m)

/-- A result or an error that depends on nothing. -/
def ofExcept : Except Error α → EvalM σ α
  | .ok a => pure a
  | .error e => fail e

def askHost (f : Host → α) : EvalM σ α :=
  fun host m => (.done (f host), m)

def ask (f : σ → α) : EvalM σ α :=
  fun _ m => (.done (f m.scopes), m)

def change (f : σ → σ) : EvalM σ Unit :=
  fun _ m => (.done (), { m with scopes := f m.scopes })

def each (f : α → EvalM σ Unit) : List α → EvalM σ Unit
  | [] => pure ()
  | a :: as => do f a; each f as

def collect (f : α → EvalM σ β) : List α → EvalM σ (List β)
  | [] => pure []
  | a :: as => do
    let b ← f a
    let bs ← collect f as
    return b :: bs

variable [ScopeStore σ]

/-- Runs `body` in a new scope inside `parent`, and leaves the scope however `body` ends. -/
def inScope (name : String) (kind : ScopeKind) (parent : ScopeId) (body : EvalM σ α) : EvalM σ α :=
  fun host m =>
    match ScopeStore.openScope? m.scopes name kind parent with
    | none => (.deadScope parent, m)
    | some scopes =>
      let previous := ScopeStore.current m.scopes
      let (outcome, after) := body host { m with scopes := scopes }
      (outcome, { after with scopes := ScopeStore.closeScope after.scopes previous })

def currentScope : EvalM σ ScopeId := do
  match ← ask ScopeStore.current with
  | some id => return id
  | none => fail (.undefined "global scope")

/-- Runs `body` in a new block inside the current scope. -/
def inBlock (body : EvalM σ α) : EvalM σ α := do
  let parent ← currentScope
  inScope "block" .block parent body

end EvalM

end Tremolo
