import Tremolo.Scope.Environment

/-! # What evaluation needs of scopes

Programs are evaluated over any store of scopes with these operations.  The stack of
`Scope.Environment` is the one that runs. -/

namespace Tremolo

class ScopeStore (σ : Type) where
  empty : σ
  current : σ → Option ScopeId
  openGlobal : σ → σ
  /-- Opens a scope inside a live one. -/
  openScope? : σ → String → ScopeKind → ScopeId → Option σ
  /-- Leaves the scope opened last and goes back to the given one. -/
  closeScope : σ → Option ScopeId → σ
  insert : σ → Symbol → σ
  /-- The binding of a name in the current scope. -/
  lookupHere : σ → String → Option Symbol
  lookup : σ → String → Option Symbol
  assign : σ → String → TypedValue → Assignment σ
  inFunction : σ → Bool
  variablesHere : σ → List (String × Option TypedValue)

instance : ScopeStore Environment where
  empty := .empty
  current := Environment.current
  openGlobal := Environment.openGlobal
  openScope? := Environment.openScope?
  closeScope := Environment.closeScope
  insert := Environment.insert
  lookupHere := Environment.lookupHere
  lookup := Environment.lookup
  assign := Environment.assign
  inFunction := Environment.inFunction
  variablesHere := Environment.variablesHere

end Tremolo
