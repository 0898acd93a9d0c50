import Tremolo.Proofs.Scope.Relabeling
import Tremolo.Proofs.Syntax.Renaming

/-! # Renaming in scopes

A renaming replaces the names in a scope and in what they are bound to (`Renaming.relabeling`).  Native
functions keep their names, so they may be bound only under names that the renaming keeps. -/

namespace Tremolo

variable (r : Renaming)

def FunctionDef.rename (f : FunctionDef) : FunctionDef :=
  ⟨r f.name, f.params.map r, renameBody r f.body, f.scope⟩

/-- A native function keeps its name, under which the host provides it. -/
def ExternalFunction.rename (f : ExternalFunction) : ExternalFunction :=
  ⟨f.name, f.parameterTypes.map (ValueType.rename r), f.returnType.rename r⟩

/-- Only scopes of calls are called after something in the program. -/
def Renaming.scopeName (kind : ScopeKind) (name : String) : String :=
  if kind = .function then r name else name

/-- Scopes with other names. -/
def Renaming.relabeling : Relabeling :=
  ⟨r, r.injective, r.scopeName, Variable.rename r, FunctionDef.rename r, ExternalFunction.rename r⟩

/-! ## The global scope -/

theorem Environment.openGlobal_rename :
    Environment.empty.openGlobal.relabel r.relabeling = Environment.empty.openGlobal := by
  have hbuiltin : ∀ type ∈ Environment.builtinTypes, r type.name = type.name := by
    intro type htype
    apply r.builtin
    revert type
    decide +kernel
  have hglobal := Environment.openGlobal_relabel (l := r.relabeling) .empty rfl hbuiltin
  rw [Environment.relabel_empty] at hglobal
  exact hglobal.symm

/-! ## Assigning -/

/-- An assignment goes the same way under other names. -/
inductive Assignment.Matched {σ τ : Type} (f : σ → τ) : Assignment σ → Assignment τ → Prop
  | unbound : Matched f .unbound .unbound
  | notVariable (kind : SymbolKind) : Matched f (.notVariable kind) (.notVariable kind)
  | rejected {e e' : Error} : e'.kind = e.kind → Matched f (.rejected e) (.rejected e')
  | stored (s : σ) : Matched f (.stored s) (.stored (f s))

theorem Environment.assign_matched (env : Environment) (name : String) (value : TypedValue) :
    (env.assign name value).Matched (Environment.relabel r.relabeling)
      ((env.relabel r.relabeling).assign (r name) (value.rename r)) := by
  have haccess : (env.relabel r.relabeling).access? (r name) = _ := env.access?_relabel name
  simp only [Environment.assign, haccess]
  rcases env.access? name with _ | ⟨v | _ | _ | _⟩
  · exact .unbound
  · -- The same types are accepted, and the value goes to the scope in which the name is resolved.
    have hv : r.relabeling.ofVariable v = v.rename r := rfl
    have hassign := v.assign_matched r value
    simp only [Option.map_some, Symbol.relabel, hv]
    generalize v.assign value = x at hassign
    generalize (v.rename r).assign (value.rename r) = y at hassign
    cases hassign with
    | error he => exact .rejected he
    | ok w =>
      have hupdate : (env.relabel r.relabeling).update (r name) (.variable (w.rename r)) =
        (env.update name (.variable w)).relabel r.relabeling := env.update_relabel name (.variable w)
      simp only [hupdate]
      exact .stored _
  · exact .notVariable _
  · exact .notVariable _
  · exact .notVariable _

end Tremolo
