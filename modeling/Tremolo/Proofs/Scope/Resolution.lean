import Tremolo.Proofs.Scope.Operations
import Tremolo.Run.Names

/-! # Where names are read and written

A name is read by a walk that ends with a symbol and written by a walk that ends with a place.  Both
stop at the first scope in sight that binds the name, after any operations on the stack.  So a value
that is assigned goes where the name is read, and since it replaces a symbol that is there already, it
moves no other name: the walks see only the outlines of scopes (`resolve_eq_of_outlines`), and a write
leaves these alone (`DiffersOnlyAt`). -/

namespace Tremolo

theorem Table.contains_iff {α : Type} (table : Table α) (name : String) :
    table.contains name ↔ name ∈ table.names := by
  obtain ⟨entries⟩ := table
  simp only [contains, get?, names]
  induction entries with
  | nil => simp
  | cons entry rest ih =>
    rw [lookup_cons]
    by_cases hname : name = entry.1
    · simp [hname]
    · simp [hname, ih]

/-- Binding a name that is bound moves no name. -/
theorem Table.names_insert {α : Type} {table : Table α} {name : String} (h : table.contains name)
    (a : α) : (table.insert name a).names = table.names :=
  (names_bind name a table.entries).trans (if_pos ((table.contains_iff name).1 h))

/-- All of a scope but what its names are bound to. -/
def Scope.outline (a : Scope) : String × Nat × ScopeKind × Option ScopeId × List String :=
  (a.name, a.level, a.kind, a.parent, a.symbols.names)

namespace Environment

/-- The symbol that a name is bound to in the scope at a place. -/
def binding? (env : Environment) (i : ScopeId) (name : String) : Option Symbol :=
  (env.scope? i).bind (·.get? name)

/-- Two stacks are the same but for the binding of one name in one scope. -/
structure DiffersOnlyAt (env : Environment) (i : ScopeId) (name : String) (after : Environment) :
    Prop where
  current : after.current = env.current
  outlines : ∀ j, (after.scope? j).map Scope.outline = (env.scope? j).map Scope.outline
  bindings : ∀ j key, ¬ (j = i ∧ key = name) → after.binding? j key = env.binding? j key

variable {env after : Environment} {i : ScopeId} {name : String}

/-! ## Resolving -/

theorem lookup_eq_binding? (env : Environment) (name : String) :
    env.lookup name = (env.resolve name).bind (env.binding? · name) :=
  lookup_eq_resolve env name

theorem Walk.result?_eq_some {β : Type} {w : Walk β} {b : β} : w.result? = some b ↔ w = .found b := by
  cases w <;> simp [Walk.result?]

/-- A walk ends at a live scope, with what is said of that one. -/
theorem walkUpTo_spec {β : Type} {f : ScopeId → Scope → Option β} {limit : Nat} {id : ScopeId}
    {b : β} (h : env.walkUpTo f limit id = .found b) :
    ∃ j a, env.scope? j = some a ∧ f j a = some b := by
  induction limit generalizing id with
  | zero => cases h
  | succ limit ih =>
    simp only [walkUpTo] at h
    cases ha : env.scope? id with
    | none => simp [ha] at h
    | some a =>
      cases hf : f id a with
      | some c =>
        simp only [ha, hf, Walk.found.injEq] at h
        exact ⟨id, a, ha, h ▸ hf⟩
      | none =>
        -- Nothing is said of this scope, so the walk has ended further out.
        cases hp : a.parent with
        | none => simp [ha, hf, hp] at h
        | some parent =>
          simp only [ha, hf, hp] at h
          exact ih h

/-- A name is resolved where it is bound. -/
theorem contains_of_resolve (h : env.resolve name = some i) :
    ∃ a, env.scope? i = some a ∧ a.symbols.contains name := by
  unfold Environment.resolve Environment.search Environment.walk at h
  cases hcurrent : env.current with
  | none => simp [hcurrent, Walk.result?] at h
  | some id =>
    rw [hcurrent] at h
    obtain ⟨j, a, ha, hj⟩ := walkUpTo_spec (Walk.result?_eq_some.1 h)
    split at hj
    next hname =>
      cases hj
      exact ⟨a, ha, hname⟩
    next => cases hj

/-- A walk that sees only the outlines of scopes goes the same way where these are the same. -/
theorem walkUpTo_eq_of_outlines {β : Type} {f : ScopeId → Scope → Option β}
    (hf : ∀ j a b, a.outline = b.outline → f j a = f j b)
    (houtlines : ∀ j, (after.scope? j).map Scope.outline = (env.scope? j).map Scope.outline)
    (limit : Nat) (id : ScopeId) : after.walkUpTo f limit id = env.walkUpTo f limit id := by
  induction limit generalizing id with
  | zero => rfl
  | succ limit ih =>
    have hid := houtlines id
    simp only [walkUpTo]
    cases ha : env.scope? id with
    | none =>
      rw [ha, Option.map_none, Option.map_eq_none_iff] at hid
      rw [hid]
    | some a =>
      rw [ha] at hid
      obtain ⟨b, hb, hba⟩ := Option.map_eq_some_iff.1 hid
      have hparent : b.parent = a.parent := congrArg (·.2.2.2.1) hba
      simp only [hb, hf id b a hba, hparent]
      cases f id a with
      | some _ => rfl
      | none =>
        cases a.parent with
        | none => rfl
        | some parent => exact ih parent

/-- Where a name is resolved depends on the outlines of the scopes alone. -/
theorem resolve_eq_of_outlines (hcurrent : after.current = env.current)
    (houtlines : ∀ j, (after.scope? j).map Scope.outline = (env.scope? j).map Scope.outline)
    (name : String) :
    after.resolve name = env.resolve name := by
  have hbound : ∀ (j : ScopeId) a b, Scope.outline a = Scope.outline b →
      (if a.symbols.contains name then some j else none) =
        if b.symbols.contains name then some j else none := by
    intro j a b hab
    have hnames : a.symbols.names = b.symbols.names := congrArg (·.2.2.2.2) hab
    simp only [Table.contains_iff, hnames]
  unfold Environment.resolve Environment.search Environment.walk
  rw [hcurrent]
  cases env.current with
  | none => rfl
  | some id => exact congrArg Walk.result? (walkUpTo_eq_of_outlines hbound houtlines _ _)

/-! ## Writing -/

theorem binding?_update (h : env.resolve name = some i) (x : Symbol) (j : ScopeId) (key : String) :
    (env.update name x).binding? j key =
      if j = i ∧ key = name then some x else env.binding? j key := by
  obtain ⟨a, ha, -⟩ := contains_of_resolve h
  simp only [update, h, binding?, scope?_modifyScope]
  by_cases hj : i = j
  · subst hj
    simp [ha, Scope.get?, Table.get?_insert]
  · simp [hj, Ne.symm hj]

/-- Replacing the nearest binding of a name changes nothing else. -/
theorem differsOnlyAt_update (h : env.resolve name = some i) (x : Symbol) :
    env.DiffersOnlyAt i name (env.update name x) := by
  obtain ⟨a, ha, hname⟩ := contains_of_resolve h
  constructor
  · simp only [update, h, current_modifyScope]
  · intro j
    simp only [update, h, scope?_modifyScope]
    by_cases hj : i = j
    · -- The name is bound in this scope already, so it keeps its place among the names.
      subst hj
      simp [ha, Scope.outline, Table.names_insert hname]
    · simp [hj]
  · intro j key hother
    rw [binding?_update h, if_neg hother]

theorem DiffersOnlyAt.resolve_eq (h : env.DiffersOnlyAt i name after) (key : String) :
    after.resolve key = env.resolve key :=
  resolve_eq_of_outlines h.current h.outlines key

theorem lookup_update (h : env.resolve name = some i) (x : Symbol) :
    (env.update name x).lookup name = some x := by
  rw [lookup_eq_binding?, (differsOnlyAt_update h x).resolve_eq, h, Option.bind_some,
    binding?_update h, if_pos ⟨rfl, rfl⟩]

/-! ## Assigning -/

variable {value : TypedValue}

/-- An accepted value replaces that of the variable that is read under the name. -/
theorem assign_of_accepts {v : Variable} (h : env.lookup name = some (.variable v))
    (haccepts : v.type.accepts value) : env.assign name value =
      .stored (env.update name (.variable { v with value := some (v.storedAs value) })) := by
  simp only [assign, access?_eq_lookup, h, Variable.assign, haccepts, if_true]

theorem assign_ne_stored (h : ∀ v, env.lookup name = some (.variable v) → ¬ v.type.accepts value)
    (after : Environment) : env.assign name value ≠ .stored after := by
  intro hstored
  obtain ⟨i, a, v, w, hi, ha, hv, hw, -⟩ := assign_stored hstored
  have hlookup : env.lookup name = some (.variable v) := by
    simp only [lookup_eq_resolve, hi, ha, hv, Option.bind_some]
  simp [Variable.assign, h v hlookup] at hw

theorem step_assign_of_ne_stored (h : ∀ after, env.assign name value ≠ .stored after) :
    env.step (.assign name value) = env := by
  cases hassign : env.assign name value with
  | stored after => exact absurd hassign (h after)
  | unbound | notVariable | rejected => simp only [step, Operation.perform, hassign]

/-- A run in which nothing can be stored fails and keeps its machine. -/
theorem evalAssign_of_ne_stored {m : Machine Environment}
    (h : ∀ after, m.scopes.assign name value ≠ .stored after) (host : Host) :
    ∃ e, EvalM.assign name value host m = (.failed e, m) := by
  have hstore : ScopeStore.assign m.scopes name value = m.scopes.assign name value := rfl
  simp only [EvalM.assign, Bind.bind, EvalM.bind, EvalM.ask, hstore]
  cases hassign : m.scopes.assign name value with
  | stored after => exact absurd hassign (h after)
  | rejected e => exact ⟨e, rfl⟩
  | notVariable kind => exact ⟨_, rfl⟩
  | unbound => exact ⟨_, rfl⟩

/-- After any operations, a name is resolved in the first scope in sight that binds it, read there, and
written there.  Another symbol in its place moves no name and leaves every other binding of every scope
alone.  A value is assigned in this way if a variable is read under the name and accepts it; else the
assignment fails and nothing changes. -/
theorem resolution_agrees (operations : List Operation) (name : String) :
    let env := ofOperations operations
    (∃ path, env.Sight path ∧
      env.resolve name = (path.find? (·.2.symbols.contains name)).map (·.1)) ∧
    env.lookup name = (env.resolve name).bind (env.binding? · name) ∧
    env.access? name = (env.resolve name).bind (env.binding? · name) ∧
    (env.resolve name = none ↔ env.lookup name = none) ∧
    (∀ i x, env.resolve name = some i → env.DiffersOnlyAt i name (env.update name x) ∧
      (env.update name x).binding? i name = some x ∧ (env.update name x).lookup name = some x) ∧
    (∀ value v, env.lookup name = some (.variable v) → v.type.accepts value →
      env.assign name value =
        .stored (env.update name (.variable { v with value := some (v.storedAs value) }))) ∧
    ∀ value, (∀ v, env.lookup name = some (.variable v) → ¬ v.type.accepts value) →
      ofOperations (operations ++ [.assign name value]) = env ∧
      ∀ host m, m.scopes = env → ∃ e, EvalM.assign name value host m = (.failed e, m) := by
  intro env
  have henv : env.WellFormed := wellFormed_ofOperations operations
  refine ⟨?_, lookup_eq_binding? env name, rfl, ?_, fun i x hi => ?_, fun value v hv => ?_,
    fun value hrefused => ⟨?_, fun host m hm => ?_⟩⟩
  · obtain ⟨path, hpath⟩ := henv.sight
    exact ⟨path, hpath, hpath.resolve_eq henv name⟩
  · cases hresolve : env.resolve name with
    | none => simp [lookup_eq_binding?, hresolve]
    | some i =>
      obtain ⟨a, ha, hname⟩ := contains_of_resolve hresolve
      obtain ⟨x, hx⟩ := Option.isSome_iff_exists.1 hname
      have hbound : a.get? name = some x := hx
      simp [lookup_eq_binding?, hresolve, binding?, ha, hbound]
  · exact ⟨differsOnlyAt_update hi x, (binding?_update hi x i name).trans (if_pos ⟨rfl, rfl⟩),
      lookup_update hi x⟩
  · exact assign_of_accepts hv
  · rw [ofOperations, List.foldl_append]
    exact step_assign_of_ne_stored (assign_ne_stored hrefused)
  · exact evalAssign_of_ne_stored (hm ▸ assign_ne_stored hrefused) host

namespace Shadowing

/-- A number. -/
def number (n : Int64) : TypedValue :=
  ⟨.number, .int n⟩

/-- A variable that holds a number. -/
def holding (n : Int64) : Symbol :=
  .variable ⟨"x", .number, some (number n)⟩

/-- A block with a variable of the same name as one around it. -/
def operations : List Operation :=
  [.openGlobal, .insert (holding 1), .openScope "block" .block 0, .insert (holding 2)]

end Shadowing

open Shadowing in
theorem resolution_agrees_shadowed :
    (ofOperations operations).resolve "x" = some 1 ∧
      (ofOperations operations).assign "x" (number 3) =
        .stored ((ofOperations operations).update "x" (holding 3)) ∧
      ((ofOperations operations).update "x" (holding 3)).binding? 0 "x" = some (holding 1) ∧
      ofOperations (operations ++ [.assign "x" ⟨.string, .string "a"⟩]) = ofOperations operations := by
  have hlookup : (ofOperations operations).lookup "x" = some (holding 2) := rfl
  have hresolve : (ofOperations operations).resolve "x" = some 1 := rfl
  obtain ⟨-, -, -, -, hupdate, hstored, hrefused⟩ := resolution_agrees operations "x"
  refine ⟨hresolve, hstored (number 3) _ hlookup rfl, ?_, ?_⟩
  · rw [(hupdate 1 (holding 3) hresolve).1.bindings 0 "x" (by simp)]
    rfl
  · refine (hrefused _ fun v hv => ?_).1
    cases hlookup.symm.trans hv
    simp [ValueType.accepts, Value.isNumber]

end Environment

end Tremolo
