import Tremolo.Proofs.Scope.Discipline
import Tremolo.Proofs.Scope.Simulation

/-! # Corresponding scopes

Two stacks of scopes may number the same scopes differently.  `Environment.Corresponds ρ s t` says
that the scopes which `ρ` pairs have the same contents up to that numbering: the same symbols, except
that a function carries the number of the scope that holds it, and enclosing scopes that are paired
again.  The walks outward on both sides then stop at paired scopes, so every name is bound alike, and
every operation keeps the correspondence. -/

namespace Tremolo

/-! ## Symbols and scopes -/

/-- The symbol as the scope at `j` would hold it. -/
def Symbol.movedTo (j : ScopeId) : Symbol → Symbol
  | .function f => .function { f with scope := j }
  | symbol => symbol

@[simp] theorem Symbol.name_movedTo (j : ScopeId) (x : Symbol) : (x.movedTo j).name = x.name := by
  cases x <;> rfl

theorem Symbol.movedTo_eq_self {j : ScopeId} {x : Symbol} (h : ∀ f, x = .function f → f.scope = j) :
    x.movedTo j = x := by
  rcases x with _ | _ | f | _
  · rfl
  · rfl
  · obtain rfl := h f rfl
    rfl
  · rfl

/-- Two scopes have the same contents, the second one standing at `j`. -/
structure Scope.Twin (ρ : ScopeId → ScopeId → Prop) (i j : ScopeId) (a b : Scope) : Prop where
  name : b.name = a.name
  level : b.level = a.level
  kind : b.kind = a.kind
  parent : Option.Rel (fun p q => ρ p q ∧ p < i ∧ q < j) a.parent b.parent
  symbols : b.symbols = a.symbols.map (Symbol.movedTo j)

theorem Scope.Twin.get? {ρ : ScopeId → ScopeId → Prop} {i j : ScopeId} {a b : Scope}
    (h : a.Twin ρ i j b) (name : String) : b.get? name = (a.get? name).map (Symbol.movedTo j) := by
  simp only [Scope.get?, h.symbols, Table.get?_map]

/-- Twins stay twins when one symbol is bound on both sides. -/
theorem Scope.Twin.bind {ρ : ScopeId → ScopeId → Prop} {i j : ScopeId} {a b : Scope}
    (h : a.Twin ρ i j b) (name : String) (x : Symbol) :
    Scope.Twin ρ i j { a with symbols := a.symbols.insert name x }
      { b with symbols := b.symbols.insert name (x.movedTo j) } := by
  refine ⟨h.name, h.level, h.kind, h.parent, ?_⟩
  rw [h.symbols, Table.insert_map]

/-- A scope that is its own twin in place has not been renamed. -/
theorem Scope.Twin.eq {ρ : ScopeId → ScopeId → Prop} {i : ScopeId} {a b : Scope}
    (h : a.Twin ρ i i b) (hρ : ∀ p q, ρ p q → p = q)
    (hheld : ∀ entry ∈ a.symbols.entries, ∀ f, entry.2 = .function f → f.scope = i) : a = b := by
  have hparent : a.parent = b.parent := by
    have hrel := h.parent
    generalize a.parent = p at hrel ⊢
    generalize b.parent = q at hrel ⊢
    cases hrel with
    | none => rfl
    | some hpq => rw [hρ _ _ hpq.1]
  have hsymbols : a.symbols = b.symbols := by
    rw [h.symbols]
    exact (Table.map_eq_self fun entry hentry =>
      Symbol.movedTo_eq_self (hheld entry hentry)).symm
  obtain ⟨name, level, kind, parent, symbols⟩ := a
  obtain ⟨name', level', kind', parent', symbols'⟩ := b
  obtain ⟨rfl, rfl, rfl⟩ : name' = name ∧ level' = level ∧ kind' = kind := ⟨h.name, h.level, h.kind⟩
  obtain ⟨rfl, rfl⟩ : parent = parent' ∧ symbols = symbols' := ⟨hparent, hsymbols⟩
  rfl

/-- Only the pairs below a scope matter to its twins. -/
theorem Scope.Twin.mono {ρ ρ' : ScopeId → ScopeId → Prop} {i j : ScopeId} {a b : Scope}
    (h : a.Twin ρ i j b) (hρ : ∀ p q, ρ p q → p < i → ρ' p q) : a.Twin ρ' i j b := by
  refine ⟨h.name, h.level, h.kind, ?_, h.symbols⟩
  have hparent := h.parent
  generalize a.parent = p at hparent ⊢
  generalize b.parent = q at hparent ⊢
  cases hparent with
  | none => exact .none
  | some hpq => exact .some ⟨hρ _ _ hpq.1 hpq.2.1, hpq.2⟩

/-! ## Stacks -/

namespace Environment

/-- The scopes that `ρ` pairs have the same contents. -/
structure Paired (ρ : ScopeId → ScopeId → Prop) (s t : Environment) : Prop where
  left_unique : ∀ {i i' j}, ρ i j → ρ i' j → i = i'
  right_unique : ∀ {i j j'}, ρ i j → ρ i j' → j = j'
  scope : ∀ {i j}, ρ i j → ∃ a b, s.scope? i = some a ∧ t.scope? j = some b ∧ a.Twin ρ i j b

/-- The current scopes are among those that `ρ` pairs. -/
structure Corresponds (ρ : ScopeId → ScopeId → Prop) (s t : Environment) : Prop
    extends Paired ρ s t where
  current : ∃ i j, s.current = some i ∧ t.current = some j ∧ ρ i j

variable {ρ : ScopeId → ScopeId → Prop} {s t : Environment}

/-! ## Looking outward -/

theorem Corresponds.walkUpTo {β γ : Type} {R : β → γ → Prop} (h : s.Corresponds ρ t)
    {f : ScopeId → Scope → Option β} {g : ScopeId → Scope → Option γ}
    (hfg : ∀ i j a b, ρ i j → s.scope? i = some a → t.scope? j = some b → a.Twin ρ i j b →
      Option.Rel R (f i a) (g j b))
    (limit limit' : Nat) (i j : ScopeId) (hij : ρ i j) (hi : i < limit) (hj : j < limit') :
    Option.Rel R (s.walkUpTo f limit i).result? (t.walkUpTo g limit' j).result? := by
  induction limit generalizing limit' i j with
  | zero => exact absurd hi (Nat.not_lt_zero i)
  | succ limit ih =>
    cases limit' with
    | zero => exact absurd hj (Nat.not_lt_zero j)
    | succ limit' =>
      obtain ⟨a, b, ha, hb, htwin⟩ := h.scope hij
      have hhere := hfg i j a b hij ha hb htwin
      have hparent := htwin.parent
      simp only [Environment.walkUpTo, ha, hb]
      generalize f i a = x at hhere ⊢
      generalize g j b = y at hhere ⊢
      cases hhere with
      | some hxy => exact .some hxy
      | none =>
        generalize a.parent = p at hparent ⊢
        generalize b.parent = q at hparent ⊢
        cases hparent with
        | none => exact .none
        | @some p q hpq =>
          -- Enclosing scopes stand lower on both sides, so neither limit runs out before the walk ends.
          exact ih limit' p q hpq.1 (Nat.lt_of_lt_of_le hpq.2.1 (Nat.le_of_lt_succ hi))
            (Nat.lt_of_lt_of_le hpq.2.2 (Nat.le_of_lt_succ hj))

theorem Corresponds.search {β γ : Type} {R : β → γ → Prop} (h : s.Corresponds ρ t)
    {f : ScopeId → Scope → Option β} {g : ScopeId → Scope → Option γ}
    (hfg : ∀ i j a b, ρ i j → s.scope? i = some a → t.scope? j = some b → a.Twin ρ i j b →
      Option.Rel R (f i a) (g j b)) :
    Option.Rel R (s.search f) (t.search g) := by
  obtain ⟨i, j, hi, hj, hij⟩ := h.current
  simp only [Environment.search, Environment.walk, hi, hj]
  exact h.walkUpTo hfg _ _ i j hij (Nat.lt_succ_self i) (Nat.lt_succ_self j)

/-- A symbol found on the left is found on the right in the paired scope. -/
theorem Corresponds.lookup (h : s.Corresponds ρ t) (name : String) :
    Option.Rel (fun x y => ∃ i j a, ρ i j ∧ s.scope? i = some a ∧ a.get? name = some x ∧ y = x.movedTo j)
      (s.lookup name) (t.lookup name) := by
  refine h.search fun i j a b hij ha hb htwin => ?_
  rw [htwin.get?]
  cases hx : a.get? name with
  | none => exact .none
  | some x => exact .some ⟨i, j, a, hij, ha, hx, rfl⟩

/-- A name is bound to one symbol on both sides, or to functions that their scopes hold as their
    own. -/
theorem Corresponds.sameBinding (h : s.Corresponds ρ t) (hs : s.Disciplined)
    {F : FunctionDef → FunctionDef → Prop}
    (hF : ∀ f a j, ρ f.scope j → s.scope? f.scope = some a → a.get? f.name = some (.function f) →
      F f { f with scope := j }) (name : String) :
    SameBinding F (s.lookup name) (t.lookup name) := by
  have hlookup := h.lookup name
  generalize s.lookup name = x at hlookup ⊢
  generalize t.lookup name = y at hlookup ⊢
  cases hlookup with
  | none => exact .unbound
  | @some x y hxy =>
    obtain ⟨i, j, a, hij, ha, hx, rfl⟩ := hxy
    rcases x with _ | _ | f | _
    · exact .plain (by simp)
    · exact .plain (by simp)
    · obtain ⟨hname, hscope⟩ := hs.heldAt ha hx
      obtain rfl := hscope f rfl
      have hown : f.name = name := hname
      exact .function (hF f a j hij ha (hown ▸ hx))
    · exact .plain (by simp)

theorem Corresponds.resolve (h : s.Corresponds ρ t) (name : String) :
    Option.Rel ρ (s.resolve name) (t.resolve name) := by
  refine h.search fun i j a b hij ha hb htwin => ?_
  have hcontains : b.symbols.contains name = a.symbols.contains name := by
    simp only [Table.contains, htwin.symbols, Table.get?_map, Option.isSome_map]
  rw [hcontains]
  cases a.symbols.contains name with
  | false => exact .none
  | true => exact .some hij

theorem Corresponds.inFunction (h : s.Corresponds ρ t) : s.inFunction = t.inFunction := by
  have hsearch : Option.Rel (fun (_ _ : Unit) => True)
      (s.search fun _ scope => if scope.kind = .function then some () else none)
      (t.search fun _ scope => if scope.kind = .function then some () else none) := by
    refine h.search fun i j a b _ _ _ htwin => ?_
    rw [htwin.kind]
    split
    · exact .some trivial
    · exact .none
  simp only [Environment.inFunction]
  generalize s.search _ = x at hsearch ⊢
  generalize t.search _ = y at hsearch ⊢
  cases hsearch <;> rfl

theorem Corresponds.lookupHere (h : s.Corresponds ρ t) (name : String) :
    (s.lookupHere name).isSome = (t.lookupHere name).isSome := by
  obtain ⟨i, j, hi, hj, hij⟩ := h.current
  obtain ⟨a, b, ha, hb, htwin⟩ := h.scope hij
  simp only [Environment.lookupHere, hi, hj, ha, hb, Option.bind_some, htwin.get?,
    Option.isSome_map]

theorem Corresponds.variablesHere (h : s.Corresponds ρ t) : s.variablesHere = t.variablesHere := by
  obtain ⟨i, j, hi, hj, hij⟩ := h.current
  obtain ⟨a, b, ha, hb, htwin⟩ := h.scope hij
  simp only [Environment.variablesHere, hi, hj, ha, hb, Option.bind_some, htwin.symbols,
    Table.values, Table.map, List.map_map, List.filterMap_map]
  congr 1
  funext entry
  obtain ⟨key, x⟩ := entry
  cases x <;> rfl

/-! ## Changing scopes -/

theorem Corresponds.modify (h : s.Corresponds ρ t) {i j : ScopeId} (hij : ρ i j)
    {f g : Scope → Scope}
    (hfg : ∀ a b, s.scope? i = some a → t.scope? j = some b → a.Twin ρ i j b →
      (f a).Twin ρ i j (g b)) :
    (s.modifyScope i f).Corresponds ρ (t.modifyScope j g) := by
  refine ⟨⟨h.left_unique, h.right_unique, fun {i' j'} hij' => ?_⟩, h.current⟩
  obtain ⟨a, b, ha, hb, htwin⟩ := h.scope hij'
  rw [scope?_modifyScope, scope?_modifyScope]
  by_cases hi : i = i'
  · subst hi
    obtain rfl := h.right_unique hij hij'
    exact ⟨f a, g b, by simp [ha], by simp [hb], hfg a b ha hb htwin⟩
  · -- No scope has two partners, so another pair is left alone on both sides.
    have hj : j ≠ j' := fun hj => hi (h.left_unique hij (hj ▸ hij'))
    exact ⟨a, b, by simp [hi, ha], by simp [hj, hb], htwin⟩

theorem Corresponds.insert (h : s.Corresponds ρ t) (x : Symbol) {j : ScopeId}
    (hj : t.current = some j) : (s.insert x).Corresponds ρ (t.insert (x.movedTo j)) := by
  obtain ⟨i, j', hi, hj', hij⟩ := h.current
  obtain rfl : j' = j := Option.some.inj (hj'.symm.trans hj)
  simp only [Environment.insert, hi, hj]
  refine h.modify hij fun a b _ _ htwin => ?_
  simp only [Scope.insert, Symbol.name_movedTo]
  exact htwin.bind x.name x

theorem Corresponds.assign (h : s.Corresponds ρ t) (name : String) (value : TypedValue) :
    Assignment.Alike (Corresponds ρ) (s.assign name value) (t.assign name value) := by
  have hlookup := h.lookup name
  have hresolve := h.resolve name
  simp only [Environment.assign, access?_eq_lookup]
  generalize s.lookup name = x at hlookup ⊢
  generalize t.lookup name = y at hlookup ⊢
  cases hlookup with
  | none => exact .unbound
  | @some x y hxy =>
    obtain ⟨i, j, a, -, -, -, rfl⟩ := hxy
    rcases x with v | _ | _ | _
    · simp only [Symbol.movedTo]
      cases v.assign value with
      | error e => exact .rejected
      | ok w =>
        refine .stored ?_
        -- Reading and writing stop at the same scopes, and these are paired.
        simp only [update]
        generalize s.resolve name = p at hresolve ⊢
        generalize t.resolve name = q at hresolve ⊢
        cases hresolve with
        | none => exact h
        | some hpq => exact h.modify hpq fun a b _ _ htwin => htwin.bind name (.variable w)
    · exact .notVariable
    · exact .notVariable
    · exact .notVariable

/-! ## Opening and closing -/

/-- The pairs of `ρ`, and one more. -/
def extend (ρ : ScopeId → ScopeId → Prop) (d e : ScopeId) (i j : ScopeId) : Prop :=
  ρ i j ∨ (i = d ∧ j = e)

theorem Paired.lt_depth (h : s.Paired ρ t) {i j : ScopeId} (hij : ρ i j) :
    i < s.depth ∧ j < t.depth := by
  obtain ⟨a, b, ha, hb, -⟩ := h.scope hij
  exact ⟨lt_depth_of_scope? ha, lt_depth_of_scope? hb⟩

/-- Scopes opened inside paired ones are paired. -/
theorem Paired.push (h : s.Paired ρ t) {i j : ScopeId} (hij : ρ i j) {a b : Scope}
    (ha : s.scope? i = some a) (hb : t.scope? j = some b) (name : String) (kind : ScopeKind) :
    (s.push (.fresh name (a.level + 1) kind (some i))).Corresponds (extend ρ s.depth t.depth)
      (t.push (.fresh name (b.level + 1) kind (some j))) := by
  -- The new places are above all paired ones, so the new pair clashes with none of them.
  have hlt := fun {p q} => h.lt_depth (i := p) (j := q)
  refine ⟨⟨?_, ?_, ?_⟩, ⟨s.depth, t.depth, rfl, rfl, .inr ⟨rfl, rfl⟩⟩⟩
  · rintro p p' q (hp | ⟨rfl, rfl⟩) (hp' | ⟨rfl, hq⟩)
    · exact h.left_unique hp hp'
    · exact absurd hq (Nat.ne_of_lt (hlt hp).2)
    · exact absurd rfl (Nat.ne_of_lt (hlt hp').2)
    · rfl
  · rintro p q q' (hq | ⟨rfl, rfl⟩) (hq' | ⟨hp, rfl⟩)
    · exact h.right_unique hq hq'
    · exact absurd hp (Nat.ne_of_lt (hlt hq).1)
    · exact absurd rfl (Nat.ne_of_lt (hlt hq').1)
    · rfl
  · rintro p q (hpq | ⟨rfl, rfl⟩)
    · obtain ⟨a', b', ha', hb', htwin⟩ := h.scope hpq
      refine ⟨a', b', ?_, ?_, htwin.mono fun _ _ hpq _ => .inl hpq⟩
      · rw [scope?_push, if_neg (Nat.ne_of_lt (hlt hpq).1), ha']
      · rw [scope?_push, if_neg (Nat.ne_of_lt (hlt hpq).2), hb']
    · obtain ⟨a', b', ha', hb', htwin⟩ := h.scope hij
      obtain rfl := Option.some.inj (ha.symm.trans ha')
      obtain rfl := Option.some.inj (hb.symm.trans hb')
      refine ⟨_, _, by rw [scope?_push, if_pos rfl], by rw [scope?_push, if_pos rfl], ?_⟩
      exact ⟨rfl, by simp [Scope.fresh, htwin.level], rfl, .some ⟨.inl hij, hlt hij⟩, rfl⟩

/-- Going back to fewer pairs, as long as their scopes are still there. -/
theorem Paired.retract {s' t' : Environment} {d e : ScopeId}
    (h : s.Paired (extend ρ d e) t) (hd : ∀ i j, ρ i j → i < d)
    (hs : ∀ i j, ρ i j → s'.scope? i = s.scope? i) (ht : ∀ i j, ρ i j → t'.scope? j = t.scope? j) :
    s'.Paired ρ t' := by
  refine ⟨fun hi hj => h.left_unique (.inl hi) (.inl hj),
    fun hi hj => h.right_unique (.inl hi) (.inl hj), fun {i j} hij => ?_⟩
  obtain ⟨a, b, ha, hb, htwin⟩ := h.scope (.inl hij)
  refine ⟨a, b, (hs i j hij).trans ha, (ht i j hij).trans hb, htwin.mono ?_⟩
  -- The pair that is given up stands above the scopes that stay, so it encloses none of them.
  rintro p q (hpq | ⟨rfl, -⟩) hp
  · exact hpq
  · exact absurd (hd i j hij) (Nat.lt_asymm hp)

end Environment

end Tremolo
