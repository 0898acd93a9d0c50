import Tremolo.Proofs.Table
import Tremolo.Scope.Store

/-! # Stores with other labels

A `Relabeling` replaces names and what is bound to them: no two names become one, and a variable stays a
variable, a type a type, and so on.  Applied to all scopes of an environment (`Environment.relabel`) it
commutes with every operation on scopes.

Two relabelings are used: one keeps the names and replaces the bodies of functions, the other replaces
the names. -/

namespace Tremolo

/-- Other names, and other things to be bound to them. -/
structure Relabeling where
  name : String → String
  injective : Function.Injective name
  /-- The name of a scope of some kind. -/
  scopeName : ScopeKind → String → String
  ofVariable : Variable → Variable
  ofFunction : FunctionDef → FunctionDef
  ofExternal : ExternalFunction → ExternalFunction

variable (l : Relabeling)

def Symbol.relabel : Symbol → Symbol
  | .variable v => .variable (l.ofVariable v)
  | .type name => .type (l.name name)
  | .function f => .function (l.ofFunction f)
  | .external f => .external (l.ofExternal f)

/-! ## Scopes -/

def Scope.relabel (a : Scope) : Scope :=
  { a with
    name := l.scopeName a.kind a.name
    symbols := a.symbols.relabel l.name (Symbol.relabel l) }

@[simp] theorem Scope.get?_relabel (a : Scope) (name : String) :
    (a.relabel l).get? (l.name name) = (a.get? name).map (Symbol.relabel l) :=
  Table.get?_relabel l.injective _ _ _

theorem Scope.bind_relabel (a : Scope) (name : String) (x : Symbol) :
    ({ a.relabel l with symbols := (a.relabel l).symbols.insert (l.name name) (x.relabel l) } : Scope) =
      ({ a with symbols := a.symbols.insert name x } : Scope).relabel l := by
  simp only [Scope.relabel, Table.insert_relabel l.injective]

theorem Scope.insert_relabel (a : Scope) {x : Symbol} (hx : (x.relabel l).name = l.name x.name) :
    (a.relabel l).insert (x.relabel l) = (a.insert x).relabel l := by
  simp only [Scope.insert, hx]
  exact a.bind_relabel l x.name x

/-! ## Environments -/

namespace Environment

def relabel (env : Environment) : Environment :=
  ⟨env.scopes.map (Scope.relabel l), env.current⟩

variable {l} (env : Environment)

@[simp] theorem relabel_empty : empty.relabel l = empty := by
  simp [relabel, empty]

@[simp] theorem current_relabel : (env.relabel l).current = env.current :=
  rfl

@[simp] theorem scope?_relabel (i : ScopeId) :
    (env.relabel l).scope? i = (env.scope? i).map (Scope.relabel l) := by
  simp [scope?, relabel]

theorem push_relabel (a : Scope) : (env.relabel l).push (a.relabel l) = (env.push a).relabel l := by
  simp [push, relabel]

theorem openScope?_relabel (name : String) (kind : ScopeKind) (parent : ScopeId) :
    (env.relabel l).openScope? (l.scopeName kind name) kind parent =
      (env.openScope? name kind parent).map (Environment.relabel l) := by
  simp only [openScope?, scope?_relabel]
  cases env.scope? parent with
  | none => rfl
  | some outer =>
    simp only [Option.map_some, Option.some.injEq]
    exact push_relabel env (.fresh name (outer.level + 1) kind (some parent))

theorem closeScope_relabel (restore : Option ScopeId) :
    (env.relabel l).closeScope restore = (env.closeScope restore).relabel l := by
  simp [closeScope, relabel]

theorem modifyScope_relabel {f f' : Scope → Scope}
    (hf : ∀ a, f' (a.relabel l) = (f a).relabel l) (i : ScopeId) :
    (env.relabel l).modifyScope i f' = (env.modifyScope i f).relabel l := by
  simp only [modifyScope, relabel, mk.injEq, and_true]
  apply Array.ext_getElem?
  intro j
  simp only [Array.getElem?_modify, Array.getElem?_map]
  split
  · cases env.scopes[j]? with
    | none => rfl
    | some a => simp [hf]
  · rfl

theorem insert_relabel {x : Symbol} (hx : (x.relabel l).name = l.name x.name) :
    (env.relabel l).insert (x.relabel l) = (env.insert x).relabel l := by
  simp only [insert, current_relabel]
  cases env.current with
  | none => rfl
  | some i => exact env.modifyScope_relabel (fun a => a.insert_relabel l hx) i

theorem openGlobal_relabel (hglobal : l.scopeName .global "global" = "global")
    (htypes : ∀ type ∈ builtinTypes, l.name type.name = type.name) :
    (env.relabel l).openGlobal = env.openGlobal.relabel l := by
  have hfold : ∀ (types : List ValueType) (env : Environment),
      (∀ type ∈ types, l.name type.name = type.name) →
      types.foldl (fun env type => env.insert (.type type.name)) (env.relabel l) =
        (types.foldl (fun env type => env.insert (.type type.name)) env).relabel l := by
    intro types
    induction types with
    | nil => exact fun _ _ => rfl
    | cons type rest ih =>
      intro env htypes
      obtain ⟨hfirst, hrest⟩ := List.forall_mem_cons.1 htypes
      rw [List.foldl_cons, List.foldl_cons, ← ih _ hrest, ← insert_relabel env rfl]
      simp only [Symbol.relabel, hfirst]
  rw [openGlobal, openGlobal, ← hfold _ _ htypes, ← push_relabel]
  simp only [Scope.relabel, Scope.fresh, hglobal]
  rfl

/-! ### Looking outward -/

theorem walkUpTo_relabel {β : Type} (f : ScopeId → Scope → Option β) (limit : Nat) (i : ScopeId) :
    (env.relabel l).walkUpTo f limit i =
      env.walkUpTo (fun j a => f j (a.relabel l)) limit i := by
  induction limit generalizing i with
  | zero => rfl
  | succ limit ih =>
    simp only [walkUpTo, scope?_relabel]
    cases env.scope? i with
    | none => rfl
    | some a =>
      simp only [Option.map_some, ih]
      rfl

theorem walkUpTo_map {β γ : Type} (f : ScopeId → Scope → Option β) (k : β → γ) (limit : Nat)
    (i : ScopeId) :
    (env.walkUpTo (fun j a => (f j a).map k) limit i).result? =
      (env.walkUpTo f limit i).result?.map k := by
  induction limit generalizing i with
  | zero => rfl
  | succ limit ih =>
    simp only [walkUpTo]
    cases env.scope? i with
    | none => rfl
    | some a =>
      cases hf : f i a with
      | some b => simp [hf, Walk.result?]
      | none =>
        cases ha : a.parent with
        | none => simp [hf, ha, Walk.result?]
        | some parent => simp [hf, ha, ih]

theorem search_relabel {β : Type} (f : ScopeId → Scope → Option β) :
    (env.relabel l).search f = env.search fun j a => f j (a.relabel l) := by
  simp only [search, walk, current_relabel]
  cases env.current with
  | none => rfl
  | some i => exact congrArg Walk.result? (env.walkUpTo_relabel f (i + 1) i)

theorem lookup_relabel (name : String) :
    (env.relabel l).lookup (l.name name) = (env.lookup name).map (Symbol.relabel l) := by
  simp only [lookup, search_relabel, Scope.get?_relabel]
  unfold search walk
  cases env.current with
  | none => rfl
  | some i => exact env.walkUpTo_map _ _ _ _

theorem resolve_relabel (name : String) :
    (env.relabel l).resolve (l.name name) = env.resolve name := by
  have hcontains : ∀ a : Scope,
      (a.relabel l).symbols.contains (l.name name) = a.symbols.contains name := by
    intro a
    have hget : (a.relabel l).symbols.get? (l.name name) = _ := a.get?_relabel l name
    rw [Table.contains, hget, Option.isSome_map]
    rfl
  simp only [resolve, search_relabel, hcontains]

theorem inFunction_relabel : (env.relabel l).inFunction = env.inFunction := by
  rw [inFunction, search_relabel]
  rfl

theorem lookupHere_relabel (name : String) :
    (env.relabel l).lookupHere (l.name name) = (env.lookupHere name).map (Symbol.relabel l) := by
  simp only [lookupHere, current_relabel]
  cases env.current with
  | none => rfl
  | some i => cases h : env.scope? i <;> simp [h]

theorem variablesHere_relabel {k : String × Option TypedValue → String × Option TypedValue}
    (hk : ∀ v, ((l.ofVariable v).name, (l.ofVariable v).value) = k (v.name, v.value)) :
    (env.relabel l).variablesHere = env.variablesHere.map k := by
  simp only [variablesHere, current_relabel]
  cases env.current with
  | none => rfl
  | some i =>
    simp only [Option.bind_some, scope?_relabel]
    cases env.scope? i with
    | none => rfl
    | some a =>
      simp only [Option.map_some, Scope.relabel, Table.values, Table.relabel, List.map_map,
        List.filterMap_map, List.map_filterMap]
      refine congrArg (List.filterMap · a.symbols.entries) (funext fun entry => ?_)
      obtain ⟨name, x⟩ := entry
      rcases x with v | _ | _ | _
      · exact congrArg some (hk v)
      all_goals rfl

/-! ### Assigning -/

theorem access?_relabel (name : String) :
    (env.relabel l).access? (l.name name) = (env.access? name).map (Symbol.relabel l) := by
  simp only [access?, resolve_relabel]
  cases env.resolve name with
  | none => rfl
  | some i => cases h : env.scope? i <;> simp [h]

theorem update_relabel (name : String) (x : Symbol) :
    (env.relabel l).update (l.name name) (x.relabel l) = (env.update name x).relabel l := by
  simp only [update, resolve_relabel]
  cases env.resolve name with
  | none => rfl
  | some i => exact env.modifyScope_relabel (fun a => a.bind_relabel l name x) i

end Environment

end Tremolo
