import Tremolo.Scope.Store

/-! # Scopes that are never dropped

A store of scopes that keeps every scope it ever opened, so that no place is given out twice: leaving
a scope only moves back the current one.  It serves as the yardstick for `Environment`, which gives
the place of a closed scope to the next one. -/

namespace Tremolo

structure Archive where
  all : Environment

namespace Archive

/-- Goes back to the given scope and keeps the one that is left. -/
def closeScope (a : Archive) (restore : Option ScopeId) : Archive :=
  ⟨{ a.all with current := restore }⟩

def assign (a : Archive) (name : String) (value : TypedValue) : Assignment Archive :=
  match a.all.assign name value with
  | .unbound => .unbound
  | .notVariable kind => .notVariable kind
  | .rejected e => .rejected e
  | .stored after => .stored ⟨after⟩

instance : ScopeStore Archive where
  empty := ⟨.empty⟩
  current a := a.all.current
  openGlobal a := ⟨a.all.openGlobal⟩
  openScope? a name kind parent := (a.all.openScope? name kind parent).map Archive.mk
  closeScope := closeScope
  insert a symbol := ⟨a.all.insert symbol⟩
  lookupHere a := a.all.lookupHere
  lookup a := a.all.lookup
  assign := assign
  inFunction a := a.all.inFunction
  variablesHere a := a.all.variablesHere

end Archive

end Tremolo
