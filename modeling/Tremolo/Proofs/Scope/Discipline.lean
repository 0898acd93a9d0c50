import Tremolo.Proofs.Table
import Tremolo.Scope.Environment

/-! # The discipline of scopes

Evaluation opens and closes scopes like brackets.  Two notions say what that keeps:

* `Environment.Disciplined` — the topmost scope is current, enclosing scopes stand lower, and every
  function is held by the scope it was declared in;
* `Environment.Later` — one state of the stack has become another without changing its height: the
  scopes are the same ones, and their symbols are kept up to the values of variables.

Every operation that evaluation uses keeps the first and leads to the second.  The non-trivial
ingredient is `lookup_eq_resolve`: the walk that reads a name and the walk that writes it stop at the
same scope, so that an assignment never replaces anything but a variable. -/

namespace Tremolo

/-! ## Places -/

namespace Environment

theorem lt_depth_of_scope? {env : Environment} {i : ScopeId} {scope : Scope}
    (h : env.scope? i = some scope) : i < env.depth :=
  (Array.getElem?_eq_some_iff.1 h).1

theorem scope?_of_lt_depth {env : Environment} {i : ScopeId} (h : i < env.depth) :
    ∃ scope, env.scope? i = some scope :=
  ⟨env.scopes[i], Array.getElem?_eq_getElem h⟩

theorem scope?_eq_none_of_le {env : Environment} {i : ScopeId} (h : env.depth ≤ i) :
    env.scope? i = none :=
  Array.getElem?_eq_none h

theorem scope?_push (env : Environment) (scope : Scope) (i : ScopeId) :
    (env.push scope).scope? i = if i = env.depth then some scope else env.scope? i :=
  Array.getElem?_push

@[simp] theorem depth_push (env : Environment) (scope : Scope) :
    (env.push scope).depth = env.depth + 1 :=
  Array.size_push scope

@[simp] theorem current_push (env : Environment) (scope : Scope) :
    (env.push scope).current = some env.depth := rfl

theorem scope?_modifyScope (env : Environment) (id : ScopeId) (f : Scope → Scope) (i : ScopeId) :
    (env.modifyScope id f).scope? i = if id = i then (env.scope? i).map f else env.scope? i :=
  Array.getElem?_modify

@[simp] theorem depth_modifyScope (env : Environment) (id : ScopeId) (f : Scope → Scope) :
    (env.modifyScope id f).depth = env.depth :=
  Array.size_modify

@[simp] theorem current_modifyScope (env : Environment) (id : ScopeId) (f : Scope → Scope) :
    (env.modifyScope id f).current = env.current := rfl

theorem scope?_closeScope (env : Environment) (restore : Option ScopeId) (i : ScopeId) :
    (env.closeScope restore).scope? i = if i < env.depth - 1 then env.scope? i else none :=
  Array.getElem?_pop

@[simp] theorem depth_closeScope (env : Environment) (restore : Option ScopeId) :
    (env.closeScope restore).depth = env.depth - 1 :=
  Array.size_pop

theorem current_closeScope (env : Environment) (restore : Option ScopeId) :
    (env.closeScope restore).current = restore.filter (· < env.depth - 1) := by
  simp only [closeScope, Array.size_pop]
  rfl

/-- Closing a scope leaves those below it alone. -/
theorem scope?_closeScope_of_lt {env : Environment} {n i : Nat} (hdepth : env.depth = n + 1)
    (hi : i < n) (restore : Option ScopeId) : (env.closeScope restore).scope? i = env.scope? i := by
  rw [scope?_closeScope, if_pos (by rw [hdepth]; exact hi)]

theorem openScope?_eq {env : Environment} {parent : ScopeId} {outer : Scope}
    (h : env.scope? parent = some outer) (name : String) (kind : ScopeKind) :
    env.openScope? name kind parent =
      some (env.push (.fresh name (outer.level + 1) kind (some parent))) := by
  simp only [openScope?, h, Option.map_some]

end Environment

/-! ## Walking outward -/

namespace Environment

/-- Two walks that say something of the same scopes stop at the same one; so what the second finds
    can be read off the place that the first finds. -/
theorem walkUpTo_eq_bind {β : Type} (env : Environment) (f : ScopeId → Scope → Option β)
    (g : ScopeId → Scope → Option ScopeId)
    (hg : ∀ i scope, g i scope = if (f i scope).isSome then some i else none) (limit : Nat)
    (id : ScopeId) :
    (env.walkUpTo f limit id).result? =
      (env.walkUpTo g limit id).result?.bind fun i => (env.scope? i).bind (f i) := by
  induction limit generalizing id with
  | zero => rfl
  | succ limit ih =>
    simp only [walkUpTo]
    cases hs : env.scope? id with
    | none => rfl
    | some scope =>
      cases hf : f id scope with
      | some b => simp [hg, hf, hs, Walk.result?]
      | none =>
        -- Neither walk stops here, so both go on to the same enclosing scope.
        simp only [hg, hf, Option.isSome_none, Bool.false_eq_true, if_false]
        cases scope.parent with
        | none => rfl
        | some parent => exact ih parent

/-- Reading a name reads the scope in which the name is resolved. -/
theorem lookup_eq_resolve (env : Environment) (name : String) :
    env.lookup name = (env.resolve name).bind fun i => (env.scope? i).bind (·.get? name) := by
  simp only [lookup, resolve, search, walk]
  cases env.current with
  | none => rfl
  | some id =>
    exact walkUpTo_eq_bind env (fun _ scope => scope.get? name) _ (fun i scope => rfl) _ _

theorem access?_eq_lookup (env : Environment) (name : String) : env.access? name = env.lookup name :=
  (lookup_eq_resolve env name).symm

/-- A name that has a symbol is held by a live scope. -/
theorem lookup_spec {env : Environment} {name : String} {symbol : Symbol}
    (h : env.lookup name = some symbol) :
    ∃ i scope, env.resolve name = some i ∧ env.scope? i = some scope ∧
      scope.get? name = some symbol := by
  rw [lookup_eq_resolve, Option.bind_eq_some_iff] at h
  obtain ⟨i, hi, h⟩ := h
  obtain ⟨scope, hscope, hsymbol⟩ := Option.bind_eq_some_iff.1 h
  exact ⟨i, scope, hi, hscope, hsymbol⟩

end Environment

/-! ## States that follow from one another -/

/-- What evaluation may make of a symbol: a variable may get a value or another one. -/
inductive Symbol.Later : Symbol → Symbol → Prop
  | same (symbol : Symbol) : Later symbol symbol
  | stored {v w : Variable} : w.name = v.name → w.type = v.type →
      (v.value.isSome → w.value.isSome) → Later (.variable v) (.variable w)

/-- What evaluation may make of a scope: its symbols stay bound. -/
structure Scope.Later (a b : Scope) : Prop where
  name : b.name = a.name
  level : b.level = a.level
  kind : b.kind = a.kind
  parent : b.parent = a.parent
  symbol : ∀ name x, a.get? name = some x → ∃ y, b.get? name = some y ∧ x.Later y

/-- What evaluation may make of the stack: the same scopes are live and the same one is current. -/
structure Environment.Later (before after : Environment) : Prop where
  depth : after.depth = before.depth
  current : after.current = before.current
  scope : ∀ i a, before.scope? i = some a → ∃ b, after.scope? i = some b ∧ a.Later b

theorem Symbol.Later.trans {x y z : Symbol} (h₁ : x.Later y) (h₂ : y.Later z) : x.Later z := by
  cases h₁ with
  | same => exact h₂
  | stored hn ht hv =>
    cases h₂ with
    | same => exact .stored hn ht hv
    | stored hn' ht' hv' => exact .stored (hn'.trans hn) (ht'.trans ht) (fun h => hv' (hv h))

theorem Symbol.Later.function_eq {f : FunctionDef} {y : Symbol} (h : (Symbol.function f).Later y) :
    y = .function f := by
  cases h
  rfl

theorem Scope.Later.refl (a : Scope) : a.Later a :=
  ⟨rfl, rfl, rfl, rfl, fun _ x h => ⟨x, h, .same x⟩⟩

theorem Scope.Later.trans {a b c : Scope} (h₁ : a.Later b) (h₂ : b.Later c) : a.Later c := by
  refine ⟨h₂.name.trans h₁.name, h₂.level.trans h₁.level, h₂.kind.trans h₁.kind,
    h₂.parent.trans h₁.parent, fun name x hx => ?_⟩
  obtain ⟨y, hy, hxy⟩ := h₁.symbol name x hx
  obtain ⟨z, hz, hyz⟩ := h₂.symbol name y hy
  exact ⟨z, hz, hxy.trans hyz⟩

theorem Environment.Later.refl (env : Environment) : env.Later env :=
  ⟨rfl, rfl, fun _ a h => ⟨a, h, .refl a⟩⟩

theorem Environment.Later.trans {a b c : Environment} (h₁ : a.Later b) (h₂ : b.Later c) :
    a.Later c := by
  refine ⟨h₂.depth.trans h₁.depth, h₂.current.trans h₁.current, fun i x hx => ?_⟩
  obtain ⟨y, hy, hxy⟩ := h₁.scope i x hx
  obtain ⟨z, hz, hyz⟩ := h₂.scope i y hy
  exact ⟨z, hz, hxy.trans hyz⟩

/-- A function stays where it was declared. -/
theorem Environment.Later.function {before after : Environment} (h : before.Later after)
    {i : ScopeId} {a : Scope} {name : String} {f : FunctionDef} (ha : before.scope? i = some a)
    (hf : a.get? name = some (.function f)) :
    ∃ b, after.scope? i = some b ∧ b.get? name = some (.function f) := by
  obtain ⟨b, hb, hab⟩ := h.scope i a ha
  obtain ⟨y, hy, hfy⟩ := hab.symbol name _ hf
  exact ⟨b, hb, hfy.function_eq ▸ hy⟩

/-! ## Discipline -/

/-- A symbol is held under its own name, and a function by the scope it was declared in. -/
def Symbol.HeldAt (i : ScopeId) (key : String) (symbol : Symbol) : Prop :=
  symbol.name = key ∧ ∀ f, symbol = .function f → f.scope = i

/-- A scope fits its place in the stack. -/
structure Environment.Fits (env : Environment) (i : ScopeId) (scope : Scope) : Prop where
  /-- Only the bottom has no enclosing scope. -/
  bottom : scope.parent = none → i = 0 ∧ scope.level = 1
  /-- The enclosing scope is live and stands lower. -/
  enclosed : ∀ p, scope.parent = some p →
    p < i ∧ ∃ outer, env.scope? p = some outer ∧ scope.level = outer.level + 1
  /-- The scope of a call lies in the scope that holds the function. -/
  called : scope.kind = .function → ∃ p outer f, scope.parent = some p ∧
    env.scope? p = some outer ∧ outer.get? scope.name = some (.function f)
  held : ∀ key symbol, (key, symbol) ∈ scope.symbols.entries → symbol.HeldAt i key

/-- The stack as evaluation keeps it. -/
structure Environment.Disciplined (env : Environment) : Prop where
  occupied : 0 < env.depth
  top : env.current = some (env.depth - 1)
  fits : ∀ i scope, env.scope? i = some scope → env.Fits i scope

/-- A scope that fits keeps fitting while the scopes around it get later. -/
theorem Environment.Fits.mono {env env' : Environment} {i : ScopeId} {a : Scope} (h : env.Fits i a)
    (hlater : ∀ p outer, env.scope? p = some outer →
      p < i → ∃ outer', env'.scope? p = some outer' ∧ outer.Later outer') :
    env'.Fits i a := by
  refine ⟨h.bottom, fun p hp => ?_, fun hk => ?_, h.held⟩
  · obtain ⟨hlt, outer, houter, hlevel⟩ := h.enclosed p hp
    obtain ⟨outer', houter', hl⟩ := hlater p outer houter hlt
    exact ⟨hlt, outer', houter', hlevel.trans (by rw [hl.level])⟩
  · -- Variables may have changed around a call, but the function that was called has not.
    obtain ⟨p, outer, f, hp, houter, hf⟩ := h.called hk
    obtain ⟨outer', houter', hl⟩ := hlater p outer houter (h.enclosed p hp).1
    obtain ⟨y, hy, hfy⟩ := hl.symbol _ _ hf
    exact ⟨p, outer', f, hp, houter', hfy.function_eq ▸ hy⟩

/-- A scope that fits is replaced by a later one whose symbols are held rightly. -/
theorem Environment.Fits.later {env : Environment} {i : ScopeId} {a b : Scope} (h : env.Fits i a)
    (hab : a.Later b) (hheld : ∀ key symbol, (key, symbol) ∈ b.symbols.entries → symbol.HeldAt i key) :
    env.Fits i b := by
  refine ⟨?_, ?_, ?_, hheld⟩
  · rw [hab.parent, hab.level]; exact h.bottom
  · rw [hab.parent, hab.level]; exact h.enclosed
  · rw [hab.kind, hab.parent, hab.name]; exact h.called

theorem Environment.Disciplined.heldAt {env : Environment} (h : env.Disciplined) {i : ScopeId}
    {scope : Scope} {name : String} {symbol : Symbol} (hscope : env.scope? i = some scope)
    (hsymbol : scope.get? name = some symbol) : symbol.HeldAt i name :=
  (h.fits i scope hscope).held name symbol (Table.mem_of_get? hsymbol)

theorem Environment.Disciplined.scope?_current {env : Environment} (h : env.Disciplined) :
    ∃ scope, env.scope? (env.depth - 1) = some scope :=
  scope?_of_lt_depth (Nat.sub_lt h.occupied Nat.one_pos)

/-! ## Changing one scope -/

namespace Environment

theorem Later.modify {env : Environment} {id : ScopeId} {f : Scope → Scope}
    (hf : ∀ a, env.scope? id = some a → a.Later (f a)) : env.Later (env.modifyScope id f) := by
  refine ⟨env.depth_modifyScope id f, rfl, fun i a ha => ?_⟩
  rw [scope?_modifyScope]
  by_cases hi : id = i
  · subst hi
    exact ⟨f a, by simp [ha], hf a ha⟩
  · exact ⟨a, by simp [hi, ha], .refl a⟩

theorem Disciplined.modify {env : Environment} (h : env.Disciplined) {id : ScopeId}
    {f : Scope → Scope} (hf : ∀ a, env.scope? id = some a → a.Later (f a))
    (hheld : ∀ a key symbol, env.scope? id = some a → (key, symbol) ∈ (f a).symbols.entries →
      (key, symbol) ∈ a.symbols.entries ∨ symbol.HeldAt id key) :
    (env.modifyScope id f).Disciplined := by
  have hlater := Later.modify hf
  refine ⟨by simpa using h.occupied, by simpa using h.top, fun i b hb => ?_⟩
  rw [scope?_modifyScope] at hb
  -- What a scope needs of those around it survives, whichever of them was changed.
  have hmono : ∀ {a}, env.Fits i a → (env.modifyScope id f).Fits i a :=
    fun ha => ha.mono fun p outer houter _ => hlater.scope p outer houter
  split at hb
  next hi =>
    subst hi
    obtain ⟨a, ha, rfl⟩ := Option.map_eq_some_iff.1 hb
    refine (hmono (h.fits id a ha)).later (hf a ha) fun key symbol hmem => ?_
    exact (hheld a key symbol ha hmem).elim ((h.fits id a ha).held key symbol) fun hx => hx
  next => exact hmono (h.fits i b hb)

end Environment

/-! ## Declaring -/

theorem Scope.get?_insert (a : Scope) (symbol : Symbol) (name : String) :
    (a.insert symbol).get? name = if name = symbol.name then some symbol else a.get? name :=
  Table.get?_insert a.symbols symbol.name name symbol

/-- Binding a new name keeps the old ones. -/
theorem Scope.later_insert {a : Scope} {symbol : Symbol} (h : a.get? symbol.name = none) :
    a.Later (a.insert symbol) := by
  refine ⟨rfl, rfl, rfl, rfl, fun name x hx => ⟨x, ?_, .same x⟩⟩
  have hne : name ≠ symbol.name := by
    rintro rfl
    rw [h] at hx
    cases hx
  rw [Scope.get?_insert, if_neg hne, hx]

namespace Environment

theorem Disciplined.insert_eq {env : Environment} (h : env.Disciplined) (symbol : Symbol) :
    env.insert symbol = env.modifyScope (env.depth - 1) (·.insert symbol) := by
  simp only [Environment.insert, h.top]

theorem Disciplined.lookupHere_eq {env : Environment} (h : env.Disciplined) (name : String) :
    env.lookupHere name = (env.scope? (env.depth - 1)).bind (·.get? name) := by
  simp only [lookupHere, h.top]

variable {env : Environment} {symbol : Symbol}

theorem Disciplined.later_insertHere (h : env.Disciplined)
    (hnew : env.lookupHere symbol.name = none) (a : Scope)
    (ha : env.scope? (env.depth - 1) = some a) : a.Later (a.insert symbol) := by
  rw [h.lookupHere_eq, ha] at hnew
  exact Scope.later_insert hnew

theorem Disciplined.later_insert (h : env.Disciplined)
    (hnew : env.lookupHere symbol.name = none) : env.Later (env.insert symbol) := by
  rw [h.insert_eq]
  exact Later.modify (h.later_insertHere hnew)

theorem Disciplined.insert (h : env.Disciplined) (hnew : env.lookupHere symbol.name = none)
    (hscope : ∀ f, symbol = .function f → env.current = some f.scope) :
    (env.insert symbol).Disciplined := by
  rw [h.insert_eq]
  refine h.modify (h.later_insertHere hnew) fun a key x _ hmem => ?_
  rcases Table.mem_insert hmem with hx | hx
  · cases hx
    refine .inr ⟨rfl, fun f hf => ?_⟩
    have := hscope f hf
    rw [h.top] at this
    exact (Option.some.inj this).symm
  · exact .inl hx

end Environment

/-! ## Assigning -/

theorem Variable.assign_ok {v w : Variable} {value : TypedValue} (h : v.assign value = .ok w) :
    w.name = v.name ∧ w.type = v.type ∧ w.value = some (v.storedAs value) := by
  simp only [Variable.assign] at h
  split at h
  · cases h
    exact ⟨rfl, rfl, rfl⟩
  · cases h

/-- Puts a variable in the place of the symbol of a name. -/
def Scope.store (name : String) (v : Variable) (a : Scope) : Scope :=
  { a with symbols := a.symbols.insert name (.variable v) }

theorem Scope.later_store {a : Scope} {name : String} {v w : Variable} {value : TypedValue}
    (hv : a.get? name = some (.variable v)) (hw : v.assign value = .ok w) :
    a.Later (a.store name w) := by
  obtain ⟨hname, htype, hvalue⟩ := Variable.assign_ok hw
  refine ⟨rfl, rfl, rfl, rfl, fun key x hx => ?_⟩
  by_cases hkey : key = name
  · subst hkey
    rw [hv] at hx
    cases hx
    -- A variable is replaced by a variable, so nothing but a value can change.
    refine ⟨.variable w, ?_, .stored hname htype fun _ => by simp [hvalue]⟩
    exact (Table.get?_insert _ _ _ _).trans (if_pos rfl)
  · exact ⟨x, (Table.get?_insert _ _ _ _).trans ((if_neg hkey).trans hx), .same x⟩

namespace Environment

/-- An assignment that succeeds stores into the scope in which the name is resolved. -/
theorem assign_stored {env after : Environment} {name : String} {value : TypedValue}
    (h : env.assign name value = .stored after) :
    ∃ i a v w, env.resolve name = some i ∧ env.scope? i = some a ∧
      a.get? name = some (.variable v) ∧ v.assign value = .ok w ∧
      after = env.modifyScope i (Scope.store name w) := by
  simp only [assign, access?_eq_lookup] at h
  split at h
  next v hv =>
    obtain ⟨i, a, hi, ha, hva⟩ := lookup_spec hv
    split at h
    next w hw =>
      cases h
      exact ⟨i, a, v, w, hi, ha, hva, hw, by simp only [update, hi]; rfl⟩
    next => cases h
  next => cases h
  next => cases h

variable {env after : Environment} {name : String} {value : TypedValue}

theorem later_assign (h : env.assign name value = .stored after) : env.Later after := by
  obtain ⟨i, a, v, w, -, ha, hv, hw, rfl⟩ := assign_stored h
  refine Later.modify fun b hb => ?_
  rw [ha] at hb
  cases hb
  exact Scope.later_store hv hw

theorem Disciplined.assign (hd : env.Disciplined) (h : env.assign name value = .stored after) :
    after.Disciplined := by
  obtain ⟨i, a, v, w, -, ha, hv, hw, rfl⟩ := assign_stored h
  refine hd.modify (fun b hb => ?_) fun b key x hb hmem => ?_
  · rw [ha] at hb
    cases hb
    exact Scope.later_store hv hw
  · rcases Table.mem_insert hmem with hx | hx
    · cases hx
      refine .inr ⟨?_, fun f hf => by cases hf⟩
      exact (Variable.assign_ok hw).1.trans (hd.heldAt ha hv).1
    · exact .inl hx

end Environment

/-! ## Opening and closing -/

namespace Environment

variable {env after : Environment} {parent : ScopeId} {outer : Scope} {name : String}
  {kind : ScopeKind}

/-- A scope may be opened inside any live one; the scope of a call where the function is held. -/
theorem Disciplined.push (h : env.Disciplined) (houter : env.scope? parent = some outer)
    (hcall : kind = .function → ∃ f, outer.get? name = some (.function f)) :
    (env.push (.fresh name (outer.level + 1) kind (some parent))).Disciplined := by
  refine ⟨by simp, by simp, fun i scope hscope => ?_⟩
  have hbelow : ∀ p a, env.scope? p = some a →
      (env.push (.fresh name (outer.level + 1) kind (some parent))).scope? p = some a := by
    intro p a ha
    rw [scope?_push, if_neg (Nat.ne_of_lt (lt_depth_of_scope? ha)), ha]
  rw [scope?_push] at hscope
  split at hscope
  next hi =>
    -- The new scope is empty, so only its place has to be justified.
    cases hscope
    refine ⟨fun hp => (by cases hp), fun p hp => ?_, fun hk => ?_, fun key x hmem => (by cases hmem)⟩
    · cases hp
      exact ⟨hi ▸ lt_depth_of_scope? houter, outer, hbelow _ _ houter, rfl⟩
    · obtain ⟨f, hf⟩ := hcall hk
      exact ⟨parent, outer, f, rfl, hbelow _ _ houter, hf⟩
  next =>
    exact (h.fits i scope hscope).mono fun p a ha _ => ⟨a, hbelow p a ha, .refl a⟩

/-- What was done in a scope of its own is over once the scope is closed. -/
theorem Disciplined.later_close (h : env.Disciplined) {scope : Scope}
    (hlater : (env.push scope).Later after) : env.Later (after.closeScope env.current) := by
  have hdepth : after.depth = env.depth + 1 := by rw [hlater.depth, depth_push]
  refine ⟨by simp [hdepth], ?_, fun i a ha => ?_⟩
  · -- The scope to go back to lies below the one that is closed, so it is still live.
    have hlt : env.depth - 1 < env.depth := Nat.sub_lt h.occupied Nat.one_pos
    rw [current_closeScope, h.top, hdepth]
    simp [hlt]
  · have hi := lt_depth_of_scope? ha
    have hpush : (env.push scope).scope? i = some a := by
      rw [scope?_push, if_neg (Nat.ne_of_lt hi), ha]
    obtain ⟨b, hb, hab⟩ := hlater.scope i a hpush
    exact ⟨b, by rw [scope?_closeScope_of_lt hdepth hi, hb], hab⟩

theorem Disciplined.close (h : env.Disciplined) {scope : Scope}
    (hlater : (env.push scope).Later after) (hafter : after.Disciplined) :
    (after.closeScope env.current).Disciplined := by
  have hclosed := h.later_close hlater
  have hdepth : after.depth = env.depth + 1 := by rw [hlater.depth, depth_push]
  refine ⟨hclosed.depth ▸ h.occupied, ?_, fun i a ha => ?_⟩
  · rw [hclosed.current, hclosed.depth, h.top]
  · have hi : i < env.depth := by
      have := lt_depth_of_scope? ha
      rwa [depth_closeScope, hdepth] at this
    rw [scope?_closeScope_of_lt hdepth hi] at ha
    refine (hafter.fits i a ha).mono fun p outer houter hp => ⟨outer, ?_, .refl outer⟩
    rw [scope?_closeScope_of_lt hdepth (Nat.lt_trans hp hi), houter]

/-- A run starts with a disciplined stack. -/
theorem disciplined_openGlobal : Environment.empty.openGlobal.Disciplined := by
  have hbottom : (Environment.empty.push (.fresh "global" 1 .global none)).Disciplined := by
    refine ⟨by decide, rfl, fun i scope hscope => ?_⟩
    have hi : i < 1 := lt_depth_of_scope? hscope
    obtain rfl : i = 0 := Nat.lt_one_iff.1 hi
    cases hscope
    exact ⟨fun _ => ⟨rfl, rfl⟩, fun p hp => (by cases hp), fun hk => (by cases hk),
      fun key symbol hmem => (by cases hmem)⟩
  have htype : ∀ {env : Environment} (name : String), env.Disciplined →
      env.lookupHere name = none → (env.insert (.type name)).Disciplined :=
    fun name h hnew => h.insert hnew (by simp)
  exact htype _ (htype _ (htype _ hbottom rfl) rfl) rfl

/-! ## Inside a call -/

/-- A walk outward finds the same in another stack, if the live scopes stand there too and as far as the
    walk can see are the same. -/
theorem Disciplined.walkUpTo_congr {β : Type} {f : ScopeId → Scope → Option β} (h : env.Disciplined)
    (hsame : ∀ i a, env.scope? i = some a →
      ∃ b, after.scope? i = some b ∧ f i b = f i a ∧ b.parent = a.parent)
    {limit limit' : Nat} {i : ScopeId} (hi : i < env.depth) (hlimit : i < limit)
    (hlimit' : i < limit') : after.walkUpTo f limit' i = env.walkUpTo f limit i := by
  induction limit generalizing limit' i with
  | zero => exact absurd hlimit (Nat.not_lt_zero i)
  | succ limit ih =>
    cases limit' with
    | zero => exact absurd hlimit' (Nat.not_lt_zero i)
    | succ limit' =>
      obtain ⟨a, ha⟩ := scope?_of_lt_depth hi
      obtain ⟨b, hb, hf, hparent⟩ := hsame i a ha
      simp only [walkUpTo, ha, hb, hf, hparent]
      cases f i a with
      | some _ => rfl
      | none =>
        cases hp : a.parent with
        | none => rfl
        | some p =>
          -- The enclosing scope stands lower, so neither limit runs out.
          obtain ⟨hlt, -⟩ := (h.fits i a ha).enclosed p hp
          exact ih (Nat.lt_trans hlt hi) (Nat.lt_of_lt_of_le hlt (Nat.le_of_lt_succ hlimit))
            (Nat.lt_of_lt_of_le hlt (Nat.le_of_lt_succ hlimit'))

/-- Evaluation neither enters nor leaves a call for good. -/
theorem Later.inFunction (hlater : env.Later after) (h : after.Disciplined) :
    after.inFunction = env.inFunction := by
  have hlt : after.depth - 1 < after.depth := Nat.sub_lt h.occupied Nat.one_pos
  simp only [Environment.inFunction, Environment.search, Environment.walk, ← hlater.current, h.top]
  refine congrArg (fun walk : Walk Unit => walk.result?.isSome)
    (h.walkUpTo_congr (fun i b hb => ?_) hlt (Nat.lt_succ_self _) (Nat.lt_succ_self _)).symm
  obtain ⟨a, ha⟩ := scope?_of_lt_depth (hlater.depth ▸ lt_depth_of_scope? hb)
  obtain ⟨b', hb', hab⟩ := hlater.scope i a ha
  rw [hb] at hb'
  cases hb'
  exact ⟨a, ha, by rw [hab.kind], hab.parent.symm⟩

/-- A block is inside a call if what surrounds it is. -/
theorem Disciplined.inFunction_push_block (h : env.Disciplined) (name : String) (level : Nat) :
    (env.push (.fresh name level .block (some (env.depth - 1)))).inFunction = env.inFunction := by
  have hlt : env.depth - 1 < env.depth := Nat.sub_lt h.occupied Nat.one_pos
  have hbelow : ∀ i a, env.scope? i = some a →
      (env.push (.fresh name level .block (some (env.depth - 1)))).scope? i = some a := by
    intro i a ha
    rw [scope?_push, if_neg (Nat.ne_of_lt (lt_depth_of_scope? ha)), ha]
  -- The new scope is no call, so the walk goes on to the scope that was current.
  have hpush : (env.push (.fresh name level .block (some (env.depth - 1)))).inFunction =
      ((env.push (.fresh name level .block (some (env.depth - 1)))).walkUpTo
        (fun _ scope => if scope.kind = .function then some () else none) env.depth
        (env.depth - 1)).result?.isSome := by
    rw [inFunction, search, walk, current_push]
    dsimp only
    rw [walkUpTo, scope?_push, if_pos rfl]
    rfl
  rw [hpush, h.walkUpTo_congr (fun i a ha => ⟨a, hbelow i a ha, rfl, rfl⟩) hlt
    (Nat.lt_succ_self _) hlt, inFunction, search, walk, h.top]

theorem inFunction_push_function (env : Environment) (name : String) (level : Nat)
    (parent : Option ScopeId) :
    (env.push (.fresh name level .function parent)).inFunction = true := by
  simp [inFunction, search, walk, walkUpTo, Walk.result?, scope?_push, Scope.fresh]

/-- A run does not start inside a call. -/
theorem inFunction_openGlobal : Environment.empty.openGlobal.inFunction = false :=
  rfl

end Environment

end Tremolo
