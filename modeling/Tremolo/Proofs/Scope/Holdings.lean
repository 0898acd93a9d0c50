import Tremolo.Proofs.Scope.Chronicle
import Tremolo.Proofs.Scope.Discipline

/-! # What scopes hold

A property of symbols that every symbol in every live scope has is kept by all operations on scopes, as
long as new symbols and newly assigned variables have it.  `Environment.Holds` says this of the stack.
A `Custody` says it of any store, which is all that a proof about evaluation needs; the one of a
chronicle speaks of every state on record. -/

namespace Tremolo

namespace Environment

/-- Every symbol in every live scope satisfies `P`. -/
def Holds (P : Symbol → Prop) (env : Environment) : Prop :=
  ∀ i a key x, env.scope? i = some a → (key, x) ∈ a.symbols.entries → P x

variable {P Q : Symbol → Prop} {env after : Environment}

theorem Holds.mono (h : env.Holds P) (hPQ : ∀ x, P x → Q x) : env.Holds Q :=
  fun i a key x ha hx => hPQ x (h i a key x ha hx)

theorem Holds.get? (h : env.Holds P) {i : ScopeId} {a : Scope} {name : String} {x : Symbol}
    (ha : env.scope? i = some a) (hx : a.get? name = some x) : P x :=
  h i a name x ha (Table.mem_of_get? hx)

theorem Holds.lookup (h : env.Holds P) {name : String} {x : Symbol} (hx : env.lookup name = some x) :
    P x := by
  obtain ⟨i, a, -, ha, hxa⟩ := lookup_spec hx
  exact h.get? ha hxa

theorem Holds.modify (h : env.Holds P) {id : ScopeId} {g : Scope → Scope}
    (hg : ∀ a key x, env.scope? id = some a → (key, x) ∈ (g a).symbols.entries →
      (key, x) ∈ a.symbols.entries ∨ P x) : (env.modifyScope id g).Holds P := by
  intro i b key x hb hx
  rw [scope?_modifyScope] at hb
  by_cases hi : id = i
  · subst hi
    simp only [if_true] at hb
    obtain ⟨a, ha, rfl⟩ := Option.map_eq_some_iff.1 hb
    cases hg a key x ha hx with
    | inl hold => exact h id a key x ha hold
    | inr hnew => exact hnew
  · simp only [hi, if_false] at hb
    exact h i b key x hb hx

theorem Holds.insert (h : env.Holds P) {x : Symbol} (hx : P x) : (env.insert x).Holds P := by
  unfold Environment.insert
  split
  · refine h.modify fun a key y _ hy => ?_
    cases Table.mem_insert hy with
    | inl hnew =>
      cases hnew
      exact .inr hx
    | inr hold => exact .inl hold
  · exact h

/-- An assignment replaces a variable by one with the new value, and nothing else. -/
theorem Holds.assign (h : env.Holds P) {name : String} {value : TypedValue}
    (hafter : env.assign name value = .stored after)
    (hvalue : ∀ v w, P (.variable v) → v.assign value = .ok w → P (.variable w)) : after.Holds P := by
  obtain ⟨i, a, v, w, -, ha, hv, hw, rfl⟩ := assign_stored hafter
  have hnew : P (.variable w) := hvalue v w (h.get? ha hv) hw
  refine h.modify fun b key x _ hx => ?_
  cases Table.mem_insert hx with
  | inl heq =>
    cases heq
    exact .inr hnew
  | inr hold => exact .inl hold

theorem Holds.push (h : env.Holds P) (name : String) (level : Nat) (kind : ScopeKind)
    (parent : Option ScopeId) : (env.push (.fresh name level kind parent)).Holds P := by
  intro i a key x ha hx
  rw [scope?_push] at ha
  by_cases hi : i = env.depth
  · simp only [hi, if_true, Option.some.injEq] at ha
    subst ha
    cases hx
  · simp only [hi, if_false] at ha
    exact h i a key x ha hx

theorem Holds.open (h : env.Holds P) {name : String} {kind : ScopeKind} {parent : ScopeId}
    (hafter : env.openScope? name kind parent = some after) : after.Holds P := by
  obtain ⟨outer, -, rfl⟩ := Option.map_eq_some_iff.1 hafter
  exact h.push name (outer.level + 1) kind (some parent)

theorem Holds.close (h : env.Holds P) (restore : Option ScopeId) :
    (env.closeScope restore).Holds P := by
  intro i a key x ha hx
  rw [scope?_closeScope] at ha
  split at ha
  · exact h i a key x ha hx
  · cases ha

/-- A run starts with the builtin types alone. -/
theorem holds_openGlobal (h : ∀ name ∈ TokenKind.typeWords, P (.type name)) :
    empty.openGlobal.Holds P := by
  have hnone : empty.Holds P := by
    intro i a key x ha
    cases ha
  have hnumber : P (.type "NUMBER") := h _ (by decide)
  have hstring : P (.type "STRING") := h _ (by decide)
  have hvar : P (.type "VAR") := h _ (by decide)
  exact (((hnone.push "global" 1 .global none).insert hnumber).insert hstring).insert hvar

theorem Holds.variablesHere (h : env.Holds P) {name : String} {value : Option TypedValue}
    (hmem : (name, value) ∈ env.variablesHere) : ∃ v, P (.variable v) ∧ v.value = value := by
  unfold Environment.variablesHere at hmem
  split at hmem
  next a ha =>
    obtain ⟨i, -, hi⟩ := Option.bind_eq_some_iff.1 ha
    obtain ⟨x, hx, hxv⟩ := List.mem_filterMap.1 hmem
    obtain ⟨⟨key, _⟩, hentry, rfl⟩ := List.mem_map.1 hx
    split at hxv
    next v heq =>
      cases hxv
      exact ⟨v, heq ▸ h i a key _ hi hentry, rfl⟩
    next => cases hxv
  next => cases hmem

end Environment

/-! ## Any store -/

/-- A way to say of a store that everything it holds satisfies a property, such that evaluation can keep
    it. -/
structure Custody (σ : Type) [ScopeStore σ] where
  Holds : (Symbol → Prop) → σ → Prop
  mono : ∀ {P Q s}, Holds P s → (∀ x, P x → Q x) → Holds Q s
  lookup : ∀ {P s name x}, Holds P s → ScopeStore.lookup s name = some x → P x
  insert : ∀ {P s x}, Holds P s → P x → Holds P (ScopeStore.insert s x)
  assign : ∀ {P s t name value}, Holds P s → ScopeStore.assign s name value = .stored t →
    (∀ v w, P (.variable v) → v.assign value = .ok w → P (.variable w)) → Holds P t
  openScope : ∀ {P s t name kind parent}, Holds P s →
    ScopeStore.openScope? s name kind parent = some t → Holds P t
  closeScope : ∀ {P s}, Holds P s → ∀ restore, Holds P (ScopeStore.closeScope s restore)
  variablesHere : ∀ {P s name value}, Holds P s → (name, value) ∈ ScopeStore.variablesHere s →
    ∃ v, P (.variable v) ∧ v.value = value

/-- What the stack holds. -/
def Environment.custody : Custody Environment where
  Holds := Environment.Holds
  mono h hPQ := h.mono hPQ
  lookup h hx := h.lookup hx
  insert h hx := h.insert hx
  assign h hafter hvalue := h.assign hafter hvalue
  openScope h hopen := h.open hopen
  closeScope h restore := h.close restore
  variablesHere h hmem := h.variablesHere hmem

/-- What a store holds in each of the states on record. -/
def Custody.chronicle {σ : Type} [ScopeStore σ] (custody : Custody σ) : Custody (Chronicle σ) where
  Holds P c := ∀ s ∈ c.states, custody.Holds P s
  mono h hPQ s hs := custody.mono (h s hs) hPQ
  lookup h hx := custody.lookup (h _ List.mem_cons_self) hx
  insert h hx := List.forall_mem_cons.2 ⟨custody.insert (h _ List.mem_cons_self) hx, h⟩
  assign {P c d name value} h hd hvalue := by
    change c.assign name value = .stored d at hd
    rw [Chronicle.assign_eq] at hd
    cases hnow : ScopeStore.assign c.now name value with
    | stored s =>
      rw [hnow] at hd
      cases hd
      exact List.forall_mem_cons.2 ⟨custody.assign (h _ List.mem_cons_self) hnow hvalue, h⟩
    | unbound | notVariable | rejected =>
      rw [hnow] at hd
      cases hd
  openScope h hopen := by
    obtain ⟨s, hs, rfl⟩ := Option.map_eq_some_iff.1 hopen
    exact List.forall_mem_cons.2 ⟨custody.openScope (h _ List.mem_cons_self) hs, h⟩
  closeScope h restore :=
    List.forall_mem_cons.2 ⟨custody.closeScope (h _ List.mem_cons_self) restore, h⟩
  variablesHere h hmem := custody.variablesHere (h _ List.mem_cons_self) hmem

end Tremolo
