import Tremolo.Proofs.Scope.Discipline

/-! # Any use of the stack of scopes

Evaluation opens and closes scopes like brackets, but the operations themselves can be used in any order
and with any places: a parent or a scope to go back to may be long gone, or another scope may stand
there by now.

* `Environment.ofOperations` — the stack after any operations;
* `Environment.WellFormed` — what they all keep: enclosing scopes stand lower, one level further out;
* `Environment.Chain` — the scopes around a scope, which a walk outward passes through one by one.

A walk outward may end at its limit or at a place without a scope.  In a well-formed stack neither
happens (`Sight.walk_eq`). -/

namespace Tremolo

/-- Every name is bound once, to a symbol of that name. -/
structure Scope.Keyed (a : Scope) : Prop where
  nodup : a.symbols.names.Nodup
  named : ∀ key x, (key, x) ∈ a.symbols.entries → x.name = key

theorem Scope.keyed_fresh (name : String) (level : Nat) (kind : ScopeKind) (parent : Option ScopeId) :
    (Scope.fresh name level kind parent).Keyed :=
  ⟨List.nodup_nil, fun _ _ h => by cases h⟩

theorem Scope.Keyed.insert {a : Scope} (h : a.Keyed) {name : String} {x : Symbol} (hx : x.name = name) :
    Scope.Keyed { a with symbols := a.symbols.insert name x } := by
  constructor
  · exact Table.nodup_insert h.nodup name x
  · intro key y hy
    rcases Table.mem_insert hy with hnew | hold
    · cases hnew
      exact hx
    · exact h.named key y hold

namespace Environment

/-! ## Operations -/

/-- What can be done to a stack of scopes. -/
inductive Operation where
  | openGlobal
  | openScope (name : String) (kind : ScopeKind) (parent : ScopeId)
  | closeScope (restore : Option ScopeId)
  | insert (symbol : Symbol)
  | assign (name : String) (value : TypedValue)

/-- The scope at a place, which has to be live. -/
def scopeAt (id : ScopeId) : EStateM ScopeId Environment Scope :=
  fun env =>
    match env.scope? id with
    | some scope => .ok scope env
    | none => .error id env

/-- What an operation does to the stack.  It is refused at a place that is not live, and then what it
    has done so far stays done. -/
def Operation.perform : Operation → EStateM ScopeId Environment Unit
  | openGlobal => modify Environment.openGlobal
  | openScope name kind parent => do
    let outer ← scopeAt parent
    modify (·.push (.fresh name (outer.level + 1) kind (some parent)))
  | closeScope restore => modify (·.closeScope restore)
  | insert symbol => modify (·.insert symbol)
  | assign name value => fun env =>
    match env.assign name value with
    | .stored after => .ok () after
    | _ => .ok () env

/-- The stack that an operation leaves, also if it is refused. -/
def step (env : Environment) (operation : Operation) : Environment :=
  match operation.perform env with
  | .ok _ after => after
  | .error _ after => after

/-- The stack after any operations. -/
def ofOperations (operations : List Operation) : Environment :=
  operations.foldl step empty

section Performing

variable {env : Environment} {name : String} {kind : ScopeKind} {parent : ScopeId}

/-- A scope is opened as it is during a run. -/
theorem perform_openScope_of_some {after : Environment}
    (h : env.openScope? name kind parent = some after) :
    (Operation.openScope name kind parent).perform env = .ok () after := by
  obtain ⟨outer, houter, rfl⟩ := Option.map_eq_some_iff.1 h
  have hread : scopeAt parent env = .ok outer env := by simp only [scopeAt, houter]
  change EStateM.bind _ _ env = _
  simp only [EStateM.bind, hread]
  rfl

/-- The enclosing scope is read before anything is changed. -/
theorem perform_openScope_of_none (h : env.openScope? name kind parent = none) :
    (Operation.openScope name kind parent).perform env = .error parent env := by
  have hread : scopeAt parent env = .error parent env := by
    simp only [scopeAt, Option.map_eq_none_iff.1 h]
  change EStateM.bind _ _ env = _
  simp only [EStateM.bind, hread]

theorem step_of_ok {operation : Operation} {env' : Environment}
    (h : operation.perform env = .ok () env') : env.step operation = env' := by
  simp only [step, h]

theorem step_of_error {operation : Operation} {id : ScopeId} {env' : Environment}
    (h : operation.perform env = .error id env') : env.step operation = env' := by
  simp only [step, h]

end Performing

/-! ## Well-formed stacks -/

/-- A scope stands in its place: at level one without an enclosing scope, or above a live scope and one
    level further in. -/
inductive Placed (env : Environment) (i : ScopeId) (a : Scope) : Prop
  | outermost : a.parent = none → a.level = 1 → Placed env i a
  | enclosed {p : ScopeId} {outer : Scope} : a.parent = some p → p < i → env.scope? p = some outer →
      a.level = outer.level + 1 → Placed env i a

/-- What any use of a stack keeps. -/
structure WellFormed (env : Environment) : Prop where
  current : ∀ i, env.current = some i → i < env.depth
  placed : ∀ i a, env.scope? i = some a → env.Placed i a
  keyed : ∀ i a, env.scope? i = some a → a.Keyed

variable {env env' : Environment} {i : ScopeId} {a : Scope}

theorem Placed.mono (h : env.Placed i a)
    (hlower : ∀ p outer, p < i → env.scope? p = some outer →
      ∃ outer', env'.scope? p = some outer' ∧ outer'.level = outer.level) : env'.Placed i a := by
  cases h with
  | outermost hp hlevel => exact .outermost hp hlevel
  | enclosed hp hlt houter hlevel =>
    obtain ⟨outer', houter', hsame⟩ := hlower _ _ hlt houter
    exact .enclosed hp hlt houter' (by rw [hlevel, hsame])

theorem wellFormed_empty : empty.WellFormed := by
  have hnone : ∀ i, empty.scope? i = none := fun i => scope?_eq_none_of_le (Nat.zero_le i)
  constructor
  · intro i hi
    cases hi
  all_goals
    intro i a ha
    rw [hnone] at ha
    cases ha

/-- A new scope may stand on top if it is in its place there. -/
theorem WellFormed.push (h : env.WellFormed) (hplaced : env.Placed env.depth a) (hkeyed : a.Keyed) :
    (env.push a).WellFormed := by
  have hbelow : ∀ {j b}, env.scope? j = some b → (env.push a).scope? j = some b := by
    intro j b hb
    rw [scope?_push, if_neg (Nat.ne_of_lt (lt_depth_of_scope? hb)), hb]
  -- What is below the new scope is as it was, so whatever stood in its place still does.
  have hmono : ∀ {j b}, env.Placed j b → (env.push a).Placed j b := fun hb =>
    hb.mono fun p outer _ houter => ⟨outer, hbelow houter, rfl⟩
  constructor
  · intro j hj
    cases hj
    rw [depth_push]
    exact Nat.lt_succ_self _
  all_goals
    intro j b hb
    rw [scope?_push] at hb
    split at hb
  next hj =>
    cases hb
    exact hj ▸ hmono hplaced
  next => exact hmono (h.placed j b hb)
  next =>
    cases hb
    exact hkeyed
  next => exact h.keyed j b hb

/-- A scope may be changed if it stays in its place. -/
theorem WellFormed.modify (h : env.WellFormed) (id : ScopeId) {f : Scope → Scope}
    (hparent : ∀ a, (f a).parent = a.parent) (hlevel : ∀ a, (f a).level = a.level)
    (hkeyed : ∀ a, env.scope? id = some a → a.Keyed → (f a).Keyed) :
    (env.modifyScope id f).WellFormed := by
  have hmono : ∀ {j b}, env.Placed j b → (env.modifyScope id f).Placed j b := by
    intro j b hb
    apply hb.mono
    intro p outer _ houter
    rw [scope?_modifyScope]
    by_cases hp : id = p
    · exact ⟨f outer, by simp [hp, houter], hlevel outer⟩
    · exact ⟨outer, by simp [hp, houter], rfl⟩
  constructor
  · intro j hj
    simpa using h.current j hj
  all_goals
    intro j b hb
    rw [scope?_modifyScope] at hb
    split at hb
  next hj =>
    obtain ⟨c, hc, rfl⟩ := Option.map_eq_some_iff.1 hb
    cases hmono (h.placed j c hc) with
    | outermost hp hl => exact .outermost ((hparent c).trans hp) ((hlevel c).trans hl)
    | enclosed hp hlt houter hl =>
      exact .enclosed ((hparent c).trans hp) hlt houter ((hlevel c).trans hl)
  next => exact hmono (h.placed j b hb)
  next hj =>
    obtain ⟨c, hc, rfl⟩ := Option.map_eq_some_iff.1 hb
    exact hkeyed c (hj ▸ hc) (h.keyed j c hc)
  next => exact h.keyed j b hb

/-! ## Every operation keeps stacks well-formed -/

theorem WellFormed.insert (h : env.WellFormed) (x : Symbol) : (env.insert x).WellFormed := by
  unfold Environment.insert
  split
  next id hid =>
    exact h.modify id (fun _ => rfl) (fun _ => rfl) fun a _ ha => ha.insert rfl
  next => exact h

theorem WellFormed.openGlobal (h : env.WellFormed) : env.openGlobal.WellFormed := by
  have hpush : (env.push (.fresh "global" 1 .global none)).WellFormed :=
    h.push (.outermost rfl rfl) (Scope.keyed_fresh ..)
  exact ((hpush.insert _).insert _).insert _

theorem WellFormed.openScope? (h : env.WellFormed) {name : String} {kind : ScopeKind}
    {parent : ScopeId} (hopen : env.openScope? name kind parent = some env') : env'.WellFormed := by
  obtain ⟨outer, houter, rfl⟩ := Option.map_eq_some_iff.1 hopen
  exact h.push (.enclosed rfl (lt_depth_of_scope? houter) houter rfl) (Scope.keyed_fresh ..)

/-- Whichever scope is to be current next, it is only if it is still there. -/
theorem WellFormed.closeScope (h : env.WellFormed) (restore : Option ScopeId) :
    (env.closeScope restore).WellFormed := by
  have hold : ∀ {j b}, (env.closeScope restore).scope? j = some b →
      j < env.depth - 1 ∧ env.scope? j = some b := by
    intro j b hb
    rw [scope?_closeScope] at hb
    split at hb
    next hj => exact ⟨hj, hb⟩
    next => cases hb
  constructor
  · intro j hj
    rw [current_closeScope, Option.filter_eq_some_iff] at hj
    simpa using hj.2
  · intro j b hb
    obtain ⟨hj, hb⟩ := hold hb
    -- The enclosing scope stands lower still, so it is not the one that goes.
    apply (h.placed j b hb).mono
    intro p outer hp houter
    exact ⟨outer, by rw [scope?_closeScope, if_pos (Nat.lt_trans hp hj), houter], rfl⟩
  · intro j b hb
    exact h.keyed j b (hold hb).2

theorem WellFormed.assign (h : env.WellFormed) {name : String} {value : TypedValue}
    (hassign : env.assign name value = .stored env') : env'.WellFormed := by
  obtain ⟨id, b, v, w, -, hb, hv, hw, rfl⟩ := assign_stored hassign
  refine h.modify id (fun _ => rfl) (fun _ => rfl) fun c hc hkeyed => ?_
  rw [hb] at hc
  cases hc
  -- The variable keeps the name under which it is bound.
  apply hkeyed.insert
  exact (Variable.assign_ok hw).1.trans (hkeyed.named name _ (Table.mem_of_get? hv))

theorem WellFormed.step (h : env.WellFormed) (operation : Operation) :
    (env.step operation).WellFormed := by
  cases operation with
  | openGlobal => exact h.openGlobal
  | openScope name kind parent =>
    cases hopen : env.openScope? name kind parent with
    | none =>
      rw [step_of_error (perform_openScope_of_none hopen)]
      exact h
    | some after =>
      rw [step_of_ok (perform_openScope_of_some hopen)]
      exact h.openScope? hopen
  | closeScope restore => exact h.closeScope restore
  | insert symbol => exact h.insert symbol
  | assign name value =>
    simp only [Environment.step, Operation.perform]
    cases hassign : env.assign name value with
    | stored after => exact h.assign hassign
    | unbound | notVariable | rejected => exact h

theorem wellFormed_ofOperations (operations : List Operation) :
    (ofOperations operations).WellFormed := by
  have hfold : ∀ env : Environment, env.WellFormed → (operations.foldl step env).WellFormed := by
    induction operations with
    | nil => exact fun _ h => h
    | cons operation rest ih => exact fun env h => ih _ (h.step operation)
  exact hfold empty wellFormed_empty

/-! ## Chains -/

/-- A scope and those around it, from the inside out up to one that has no enclosing scope.  All of them
    are live. -/
inductive Chain (env : Environment) : ScopeId → List (ScopeId × Scope) → Prop
  | outermost {i : ScopeId} {a : Scope} : env.scope? i = some a → a.parent = none →
      Chain env i [(i, a)]
  | enclosed {i p : ScopeId} {a : Scope} {path : List (ScopeId × Scope)} : env.scope? i = some a →
      a.parent = some p → Chain env p path → Chain env i ((i, a) :: path)

variable {path : List (ScopeId × Scope)}

/-- The level of a scope is the length of its chain.  The induction is on the place, since enclosing
    scopes stand lower. -/
theorem WellFormed.chain (h : env.WellFormed) (ha : env.scope? i = some a) :
    ∃ path, env.Chain i path ∧ path.length = a.level := by
  induction i using Nat.strongRecOn generalizing a with
  | _ i ih =>
    cases h.placed i a ha with
    | outermost hp hlevel => exact ⟨_, .outermost ha hp, hlevel.symm⟩
    | enclosed hp hlt houter hlevel =>
      obtain ⟨path, hpath, hlength⟩ := ih _ hlt houter
      exact ⟨_, .enclosed ha hp hpath, by simp [hlength, hlevel]⟩

theorem WellFormed.parent_lt (h : env.WellFormed) (ha : env.scope? i = some a) {p : ScopeId}
    (hp : a.parent = some p) : p < i := by
  cases h.placed i a ha with
  | outermost hnone _ => simp [hp] at hnone
  | enclosed hp' hlt _ _ =>
    cases hp.symm.trans hp'
    exact hlt

theorem Chain.le (h : env.Chain i path) (henv : env.WellFormed) {j : ScopeId} {b : Scope}
    (hmem : (j, b) ∈ path) : j ≤ i := by
  induction h with
  | outermost _ _ =>
    cases List.mem_singleton.1 hmem
    exact Nat.le_refl _
  | enclosed ha hp _ ih =>
    rcases List.mem_cons.1 hmem with heq | hrest
    · cases heq
      exact Nat.le_refl _
    · exact Nat.le_trans (ih hrest) (Nat.le_of_lt (henv.parent_lt ha hp))

theorem Chain.live (h : env.Chain i path) {j : ScopeId} {b : Scope} (hmem : (j, b) ∈ path) :
    env.scope? j = some b := by
  induction h with
  | outermost ha _ =>
    cases List.mem_singleton.1 hmem
    exact ha
  | enclosed ha _ _ ih =>
    rcases List.mem_cons.1 hmem with heq | hrest
    · cases heq
      exact ha
    · exact ih hrest

theorem Chain.head (h : env.Chain i path) (ha : env.scope? i = some a) : path.head? = some (i, a) := by
  cases h with
  | outermost hb _ | enclosed hb _ _ =>
    rw [hb] at ha
    cases ha
    rfl

/-- How a walk ends that passes an outermost scope if it finds nothing. -/
def Walk.ofOption {β : Type} : Option β → Walk β
  | some b => found b
  | none => nothing

/-- A walk outward passes through the chain, and its limit does not run out on the way. -/
theorem Chain.walkUpTo_eq {β : Type} (h : env.Chain i path) (henv : env.WellFormed)
    (f : ScopeId → Scope → Option β) {limit : Nat} (hlimit : i < limit) :
    env.walkUpTo f limit i = .ofOption (path.findSome? fun place => f place.1 place.2) := by
  induction h generalizing limit with
  | @outermost i a ha hp =>
    cases limit with
    | zero => exact absurd hlimit (Nat.not_lt_zero i)
    | succ limit =>
      simp only [walkUpTo, ha, hp, List.findSome?_cons, List.findSome?_nil]
      cases f i a <;> rfl
  | @enclosed i p a path ha hp _ ih =>
    cases limit with
    | zero => exact absurd hlimit (Nat.not_lt_zero i)
    | succ limit =>
      -- The walk spends one step of its limit and goes on at least one place lower.
      have hlt := henv.parent_lt ha hp
      have hrest := ih (Nat.lt_of_lt_of_le hlt (Nat.le_of_lt_succ hlimit))
      simp only [walkUpTo, ha, hp, List.findSome?_cons, hrest]
      cases f i a <;> rfl

/-! ## What a stack answers -/

/-- The scopes in sight: the current one and those around it. -/
inductive Sight (env : Environment) : List (ScopeId × Scope) → Prop
  | nothing : env.current = none → Sight env []
  | here {i : ScopeId} {path : List (ScopeId × Scope)} : env.current = some i → env.Chain i path →
      Sight env path

theorem WellFormed.sight (h : env.WellFormed) : ∃ path, env.Sight path := by
  cases hcurrent : env.current with
  | none => exact ⟨[], .nothing hcurrent⟩
  | some i =>
    obtain ⟨a, ha⟩ := scope?_of_lt_depth (h.current i hcurrent)
    obtain ⟨path, hpath, -⟩ := h.chain ha
    exact ⟨path, .here hcurrent hpath⟩

theorem Sight.live (h : env.Sight path) {j : ScopeId} {b : Scope} (hmem : (j, b) ∈ path) :
    env.scope? j = some b := by
  cases h with
  | nothing => cases hmem
  | here _ hpath => exact hpath.live hmem

/-- A walk ends with what it finds or outside of all scopes, whatever it looks for. -/
theorem Sight.walk_eq {β : Type} (h : env.Sight path) (henv : env.WellFormed)
    (f : ScopeId → Scope → Option β) :
    env.walk f = .ofOption (path.findSome? fun place => f place.1 place.2) := by
  unfold Environment.walk
  cases h with
  | nothing hcurrent =>
    rw [hcurrent]
    rfl
  | here hcurrent hpath =>
    rw [hcurrent]
    exact hpath.walkUpTo_eq henv f (Nat.lt_succ_self _)

theorem Sight.search_eq {β : Type} (h : env.Sight path) (henv : env.WellFormed)
    (f : ScopeId → Scope → Option β) :
    env.search f = path.findSome? fun place => f place.1 place.2 := by
  rw [Environment.search, h.walk_eq henv]
  cases path.findSome? _ <;> rfl

theorem Sight.scope?_current (h : env.Sight path) (henv : env.WellFormed) :
    env.current.bind env.scope? = path.head?.map (·.2) := by
  cases h with
  | nothing hcurrent => simp [hcurrent]
  | here hcurrent hpath =>
    obtain ⟨a, ha⟩ := scope?_of_lt_depth (henv.current _ hcurrent)
    simp [hcurrent, ha, hpath.head ha]

/-- The answers of a stack, read off the scopes in sight. -/
structure Answers (env : Environment) (path : List (ScopeId × Scope)) : Prop where
  /-- No walk outward is cut off or comes to a place without a scope. -/
  walk : ∀ {β : Type} (f : ScopeId → Scope → Option β),
    env.walk f = .ofOption (path.findSome? fun place => f place.1 place.2)
  lookupHere : ∀ name, env.lookupHere name = path.head?.bind (·.2.get? name)
  lookup : ∀ name, env.lookup name = path.findSome? (·.2.get? name)
  resolve : ∀ name, env.resolve name = (path.find? (·.2.symbols.contains name)).map (·.1)
  inFunction : env.inFunction = path.any (·.2.kind = .function)
  /-- The variables of the current scope, each once. -/
  variablesHere : (env.variablesHere.map (·.1)).Nodup ∧ ∀ name value, (name, value) ∈ env.variablesHere ↔
    ∃ place v, path.head? = some place ∧ place.2.get? name = some (.variable v) ∧ v.value = value
  /-- What is assigned goes into the scope in which the name is resolved. -/
  assign : ∀ name value after, env.assign name value = .stored after → ∃ i a v w,
    path.find? (·.2.symbols.contains name) = some (i, a) ∧ a.get? name = some (.variable v) ∧
    v.assign value = .ok w ∧ after = env.modifyScope i (Scope.store name w)

theorem Sight.lookupHere_eq (h : env.Sight path) (henv : env.WellFormed) (name : String) :
    env.lookupHere name = path.head?.bind (·.2.get? name) := by
  have hscope := h.scope?_current henv
  unfold Environment.lookupHere
  cases hcurrent : env.current with
  | none =>
    rw [hcurrent] at hscope
    cases hhead : path.head? <;> simp_all
  | some i =>
    rw [hcurrent, Option.bind_some] at hscope
    simp only [hscope, Option.bind_map]
    rfl

theorem Sight.resolve_eq (h : env.Sight path) (henv : env.WellFormed) (name : String) :
    env.resolve name = (path.find? (·.2.symbols.contains name)).map (·.1) := by
  unfold Environment.resolve
  rw [h.search_eq henv, List.find?_eq_findSome?_guard, List.map_findSome?]
  congr 1
  funext place
  by_cases hname : place.2.symbols.contains name <;> simp [Option.guard, hname]

theorem Sight.inFunction_eq (h : env.Sight path) (henv : env.WellFormed) :
    env.inFunction = path.any (·.2.kind = .function) := by
  unfold Environment.inFunction
  rw [h.search_eq henv, List.isSome_findSome?]
  congr 1
  funext place
  by_cases hkind : place.2.kind = .function <;> simp [hkind]

/-- A variable is listed under the name that it is bound to. -/
theorem Sight.mem_variablesHere (h : env.Sight path) (henv : env.WellFormed) (name : String)
    (value : Option TypedValue) : (name, value) ∈ env.variablesHere ↔ ∃ place v,
      path.head? = some place ∧ place.2.get? name = some (.variable v) ∧ v.value = value := by
  unfold Environment.variablesHere
  rw [h.scope?_current henv]
  cases hhead : path.head? with
  | none => simp
  | some place =>
    have hkeyed := henv.keyed _ _ (h.live (List.mem_of_head? hhead))
    simp only [Option.map_some, List.mem_filterMap, Table.values, List.mem_map]
    constructor
    · intro hlisted
      obtain ⟨x, ⟨⟨key, _⟩, hmem, rfl⟩, hx⟩ := hlisted
      split at hx
      next v hv =>
        cases hx
        simp only at hv
        subst hv
        obtain rfl : v.name = key := hkeyed.named key _ hmem
        exact ⟨place, v, rfl, Table.get?_of_mem hkeyed.nodup hmem, rfl⟩
      next => cases hx
    · intro hbound
      obtain ⟨_, v, ⟨rfl⟩, hv, rfl⟩ := hbound
      have hmem := Table.mem_of_get? hv
      have hname : v.name = name := hkeyed.named name _ hmem
      exact ⟨.variable v, ⟨(name, .variable v), hmem, rfl⟩, by simp [hname]⟩

/-- What is listed of symbols under their names comes in the order of the names. -/
theorem sublist_names {α : Type} {f : Symbol → Option (String × α)}
    (hf : ∀ x entry, f x = some entry → entry.1 = x.name) {entries : List (String × Symbol)}
    (hnamed : ∀ key x, (key, x) ∈ entries → x.name = key) :
    (((entries.map (·.2)).filterMap f).map (·.1)).Sublist (entries.map (·.1)) := by
  induction entries with
  | nil => exact .slnil
  | cons entry rest ih =>
    have hrest := ih fun key x hx => hnamed key x (List.mem_cons_of_mem _ hx)
    obtain ⟨key, x⟩ := entry
    have hx := hnamed key x List.mem_cons_self
    simp only [List.map_cons, List.filterMap_cons]
    cases hentry : f x with
    | none => exact hrest.cons _
    | some entry =>
      rw [List.map_cons, hf x entry hentry, hx]
      exact hrest.cons_cons _

theorem Sight.nodup_variablesHere (h : env.Sight path) (henv : env.WellFormed) :
    (env.variablesHere.map (·.1)).Nodup := by
  unfold Environment.variablesHere
  rw [h.scope?_current henv]
  cases hhead : path.head? with
  | none => exact List.nodup_nil
  | some place =>
    have hkeyed := henv.keyed _ _ (h.live (List.mem_of_head? hhead))
    refine (sublist_names ?_ hkeyed.named).nodup hkeyed.nodup
    intro x entry hentry
    rcases x with v | _ | _ | _
    · cases hentry
      rfl
    all_goals cases hentry

theorem Sight.assign_stored (h : env.Sight path) (henv : env.WellFormed) {name : String}
    {value : TypedValue} (hassign : env.assign name value = .stored env') : ∃ i a v w,
      path.find? (·.2.symbols.contains name) = some (i, a) ∧ a.get? name = some (.variable v) ∧
      v.assign value = .ok w ∧ env' = env.modifyScope i (Scope.store name w) := by
  obtain ⟨i, a, v, w, hresolve, ha, hv, hw, hafter⟩ := Environment.assign_stored hassign
  rw [h.resolve_eq henv] at hresolve
  obtain ⟨⟨j, b⟩, hfind, rfl⟩ := Option.map_eq_some_iff.1 hresolve
  cases ha.symm.trans (h.live (List.mem_of_find?_eq_some hfind))
  exact ⟨j, a, v, w, hfind, hv, hw, hafter⟩

theorem Sight.answers (h : env.Sight path) (henv : env.WellFormed) : env.Answers path where
  walk := h.walk_eq henv
  lookupHere := h.lookupHere_eq henv
  lookup name := h.search_eq henv fun _ scope => scope.get? name
  resolve := h.resolve_eq henv
  inFunction := h.inFunction_eq henv
  variablesHere := ⟨h.nodup_variablesHere henv, h.mem_variablesHere henv⟩
  assign _ _ _ hassign := h.assign_stored henv hassign

/-! ## Refusals -/

theorem scope?_eq_none_iff (env : Environment) (id : ScopeId) :
    env.scope? id = none ↔ env.depth ≤ id :=
  Array.getElem?_eq_none_iff

theorem openScope?_eq_none_iff (env : Environment) (name : String) (kind : ScopeKind)
    (parent : ScopeId) :
    env.openScope? name kind parent = none ↔ env.depth ≤ parent := by
  rw [openScope?, Option.map_eq_none_iff, scope?_eq_none_iff]

theorem perform_openScope_eq_ok_iff (env : Environment) (name : String) (kind : ScopeKind)
    (parent : ScopeId) (after : Environment) :
    (Operation.openScope name kind parent).perform env = .ok () after ↔
      env.openScope? name kind parent = some after := by
  cases hopen : env.openScope? name kind parent with
  | none => simp [perform_openScope_of_none hopen]
  | some env' => simp [perform_openScope_of_some hopen]

/-- Only a parent that is not there is refused. -/
theorem perform_eq_error_iff (env : Environment) (operation : Operation) (id : ScopeId) :
    (∃ after, operation.perform env = .error id after) ↔
      ∃ name kind, operation = .openScope name kind id ∧ env.depth ≤ id := by
  cases operation with
  | openScope name kind parent =>
    have hdead := env.openScope?_eq_none_iff name kind parent
    constructor
    · rintro ⟨after, hrefused⟩
      cases hopen : env.openScope? name kind parent with
      | none =>
        rw [perform_openScope_of_none hopen] at hrefused
        cases hrefused
        exact ⟨name, kind, rfl, hdead.1 hopen⟩
      | some env' =>
        rw [perform_openScope_of_some hopen] at hrefused
        cases hrefused
    · rintro ⟨name, kind, ⟨⟩, hid⟩
      exact ⟨env, perform_openScope_of_none (hdead.2 hid)⟩
  | assign name value =>
    simp only [Operation.perform]
    split <;> simp
  | openGlobal | closeScope | insert =>
    constructor
    · rintro ⟨after, ⟨⟩⟩
    · rintro ⟨name, kind, ⟨⟩, -⟩

/-- Nothing has changed when an operation is refused. -/
theorem eq_of_perform_eq_error {operation : Operation} {id : ScopeId}
    (h : operation.perform env = .error id env') : env' = env := by
  obtain ⟨name, kind, rfl, hid⟩ := (env.perform_eq_error_iff operation id).1 ⟨env', h⟩
  rw [perform_openScope_of_none ((env.openScope?_eq_none_iff name kind id).2 hid)] at h
  cases h
  rfl

/-- After any operations, with whatever places they were given, the stack is well-formed, the level of a
    scope is the number of scopes on its chain, and what the stack answers is read off the chain of the
    current scope, all of it live.  Only a place that is not live is refused, and then nothing has
    changed. -/
theorem operations_keep_wellFormed (operations : List Operation) :
    let env := ofOperations operations
    env.WellFormed ∧
    (∀ i a, env.scope? i = some a → ∃ path, env.Chain i path ∧ path.length = a.level ∧
      ∀ j b, (j, b) ∈ path → j ≤ i ∧ env.scope? j = some b) ∧
    (∃ path, env.Sight path ∧ env.Answers path) ∧
    (∀ id, env.scope? id = none ↔ env.depth ≤ id) ∧
    (∀ name kind parent after, (Operation.openScope name kind parent).perform env = .ok () after ↔
      env.openScope? name kind parent = some after) ∧
    ∀ operation id, ((∃ after, operation.perform env = .error id after) ↔
        ∃ name kind, operation = .openScope name kind id ∧ env.depth ≤ id) ∧
      ∀ after, operation.perform env = .error id after →
        after = env ∧ ofOperations (operations ++ [operation]) = env := by
  intro env
  have henv : env.WellFormed := wellFormed_ofOperations operations
  refine ⟨henv, fun i a ha => ?_, ?_, env.scope?_eq_none_iff,
    env.perform_openScope_eq_ok_iff,
    fun operation id => ⟨env.perform_eq_error_iff operation id, fun after hrefused => ?_⟩⟩
  · obtain ⟨path, hpath, hlevel⟩ := henv.chain ha
    exact ⟨path, hpath, hlevel, fun j b hmem => ⟨hpath.le henv hmem, hpath.live hmem⟩⟩
  · obtain ⟨path, hpath⟩ := henv.sight
    exact ⟨path, hpath, hpath.answers henv⟩
  · obtain rfl := eq_of_perform_eq_error hrefused
    refine ⟨rfl, ?_⟩
    rw [ofOperations, List.foldl_append]
    exact step_of_error hrefused

end Environment

end Tremolo
