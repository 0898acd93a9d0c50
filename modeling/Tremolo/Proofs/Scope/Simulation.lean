import Tremolo.Scope.Store

/-! # Stores that no program can tell apart

A `Simulation` says what two stores of scopes must have in common so that every program runs alike
over them.  A `Translation` says this of two programs that differ in the lists of statements in them, so
that the functions in the two stores differ too.

The relation between two stores depends on a *world*: what is known of the scopes that are live at a
point of the run.  Entering a scope moves to a new world, from which every state that can be reached
inside the scope leads back to the old one when the scope is left. -/

namespace Tremolo

variable {σ τ υ : Type}

/-! ## Related answers of two stores -/

/-- Two functions with the same code. -/
structure FunctionDef.SameCode (f g : FunctionDef) : Prop where
  name : f.name = g.name
  params : f.params = g.params
  body : f.body = g.body

/-- Two functions that are the same but for their bodies, which are related. -/
structure FunctionDef.Alike (B : List Stmt → List Stmt → Prop) (f g : FunctionDef) : Prop where
  name : f.name = g.name
  params : f.params = g.params
  body : B f.body g.body

/-- What a name is bound to on two sides: the same symbol, or functions related by `F`. -/
inductive SameBinding (F : FunctionDef → FunctionDef → Prop) : Option Symbol → Option Symbol → Prop
  | unbound : SameBinding F none none
  | plain {x} : (∀ f, x ≠ .function f) → SameBinding F (some x) (some x)
  | function {f g} : F f g → SameBinding F (some (.function f)) (some (.function g))

theorem SameBinding.mono {F F' : FunctionDef → FunctionDef → Prop} {x y : Option Symbol}
    (h : SameBinding F x y) (hF : ∀ f g, F f g → F' f g) : SameBinding F' x y := by
  cases h with
  | unbound => exact .unbound
  | plain hx => exact .plain hx
  | function hfg => exact .function (hF _ _ hfg)

namespace Assignment

/-- An assignment goes the same way on two sides. -/
inductive Alike (R : σ → τ → Prop) : Assignment σ → Assignment τ → Prop
  | unbound : Alike R .unbound .unbound
  | notVariable {kind} : Alike R (.notVariable kind) (.notVariable kind)
  | rejected {e} : Alike R (.rejected e) (.rejected e)
  | stored {s t} : R s t → Alike R (.stored s) (.stored t)

theorem Alike.refl (x : Assignment σ) : Alike Eq x x := by
  cases x with
  | unbound => exact .unbound
  | notVariable => exact .notVariable
  | rejected => exact .rejected
  | stored => exact .stored rfl

theorem Alike.imp {R R' : σ → τ → Prop} {x : Assignment σ} {y : Assignment τ} (h : Alike R x y)
    (hR : ∀ s t, x = .stored s → y = .stored t → R s t → R' s t) : Alike R' x y := by
  cases h with
  | unbound => exact .unbound
  | notVariable => exact .notVariable
  | rejected => exact .rejected
  | stored hst => exact .stored (hR _ _ rfl rfl hst)

/-- The same assignment in a store around the one that is assigned in. -/
def map (f : σ → υ) : Assignment σ → Assignment υ
  | .unbound => .unbound
  | .notVariable kind => .notVariable kind
  | .rejected e => .rejected e
  | .stored s => .stored (f s)

theorem Alike.map_left {R : υ → τ → Prop} {f : σ → υ} {x : Assignment σ} {y : Assignment τ}
    (h : Alike (fun s t => R (f s) t) x y) : Alike R (x.map f) y := by
  cases h with
  | unbound => exact .unbound
  | notVariable => exact .notVariable
  | rejected => exact .rejected
  | stored hst => exact .stored hst

theorem Alike.of_map_left {R : υ → τ → Prop} {f : σ → υ} {x : Assignment σ} {y : Assignment τ}
    (h : Alike R (x.map f) y) : Alike (fun s t => R (f s) t) x y := by
  cases x with
  | unbound | notVariable | rejected | stored =>
    cases h
    constructor
    all_goals assumption

theorem Alike.map_right {R : σ → υ → Prop} {g : τ → υ} {x : Assignment σ} {y : Assignment τ}
    (h : Alike (fun s t => R s (g t)) x y) : Alike R x (y.map g) := by
  cases h with
  | unbound => exact .unbound
  | notVariable => exact .notVariable
  | rejected => exact .rejected
  | stored hst => exact .stored hst

end Assignment

variable [ScopeStore σ] [ScopeStore τ]

/-- A scope can be opened on both sides, and whatever happens in it leads to states that are related
    by `back` when it is closed. -/
def Enters {World : Type} (Rel : World → σ → τ → Prop) (back : σ → τ → Prop) (s : σ) (t : τ)
    (name : String) (kind : ScopeKind) (i j : ScopeId) : Prop :=
  ∃ v s' t', ScopeStore.openScope? s name kind i = some s' ∧
    ScopeStore.openScope? t name kind j = some t' ∧ Rel v s' t' ∧
    ∀ s'' t'', Rel v s'' t'' → back (ScopeStore.closeScope s'' (ScopeStore.current s))
      (ScopeStore.closeScope t'' (ScopeStore.current t))

/-! ## Simulations -/

/-- What two stores have in common as far as evaluation can see, if the bodies of the functions in them are
    related by `B`. -/
structure Translation (B : List Stmt → List Stmt → Prop) (σ τ : Type) [ScopeStore σ] [ScopeStore τ] where
  World : Type
  Rel : World → σ → τ → Prop
  block : ∀ {w s t}, Rel w s t → ∃ i j, ScopeStore.current s = some i ∧
    ScopeStore.current t = some j ∧ Enters Rel (Rel w) s t "block" .block i j
  lookupHere : ∀ {w s t}, Rel w s t → ∀ name,
    (ScopeStore.lookupHere s name).isSome = (ScopeStore.lookupHere t name).isSome
  /-- A function found now can be called at every later state of the same world. -/
  lookup : ∀ {w s t}, Rel w s t → ∀ name, SameBinding
    (fun f g => f.Alike B g ∧ ∃ v, Rel v s t ∧ ∀ s' t', Rel v s' t' →
      Rel w s' t' ∧ Enters Rel (Rel v) s' t' f.name .function f.scope g.scope)
    (ScopeStore.lookup s name) (ScopeStore.lookup t name)
  bindVariable : ∀ {w s t}, Rel w s t → ∀ v : Variable, ScopeStore.lookupHere s v.name = none →
    Rel w (ScopeStore.insert s (.variable v)) (ScopeStore.insert t (.variable v))
  bindFunction : ∀ {w s t}, Rel w s t → ∀ name params body body' i j, B body body' →
    ScopeStore.lookupHere s name = none → ScopeStore.current s = some i →
    ScopeStore.current t = some j →
    Rel w (ScopeStore.insert s (.function ⟨name, params, body, i⟩))
      (ScopeStore.insert t (.function ⟨name, params, body', j⟩))
  assign : ∀ {w s t}, Rel w s t → ∀ name value,
    Assignment.Alike (Rel w) (ScopeStore.assign s name value) (ScopeStore.assign t name value)
  inFunction : ∀ {w s t}, Rel w s t → ScopeStore.inFunction s = ScopeStore.inFunction t
  variablesHere : ∀ {w s t}, Rel w s t → ScopeStore.variablesHere s = ScopeStore.variablesHere t

/-- What two stores have in common as far as a program can see. -/
abbrev Simulation (σ τ : Type) [ScopeStore σ] [ScopeStore τ] : Type 1 :=
  Translation Eq σ τ

variable {B : List Stmt → List Stmt → Prop}

/-- Types and native functions can be declared on both sides. -/
def Translation.AdmitsHeader (sim : Translation B σ τ) : Prop :=
  ∀ w s t symbol, sim.Rel w s t → (∀ f, symbol ≠ .function f) →
    ScopeStore.lookupHere s symbol.name = none →
    sim.Rel w (ScopeStore.insert s symbol) (ScopeStore.insert t symbol)

/-! ## Stores around others -/

/-- A store that consists of another one and something that evaluation does not see: every operation on
    it is the operation on the store inside. -/
structure Overlay (υ σ : Type) [ScopeStore υ] [ScopeStore σ] where
  inner : υ → σ
  current : ∀ c, ScopeStore.current c = ScopeStore.current (inner c)
  openScope? : ∀ c name kind parent, (ScopeStore.openScope? c name kind parent).map inner =
    ScopeStore.openScope? (inner c) name kind parent
  closeScope : ∀ c restore,
    inner (ScopeStore.closeScope c restore) = ScopeStore.closeScope (inner c) restore
  insert : ∀ c symbol, inner (ScopeStore.insert c symbol) = ScopeStore.insert (inner c) symbol
  lookupHere : ∀ c name, ScopeStore.lookupHere c name = ScopeStore.lookupHere (inner c) name
  lookup : ∀ c name, ScopeStore.lookup c name = ScopeStore.lookup (inner c) name
  assign : ∀ c name value, (ScopeStore.assign c name value).map inner =
    ScopeStore.assign (inner c) name value
  inFunction : ∀ c, ScopeStore.inFunction c = ScopeStore.inFunction (inner c)
  variablesHere : ∀ c, ScopeStore.variablesHere c = ScopeStore.variablesHere (inner c)

namespace Overlay

variable [ScopeStore υ] (o : Overlay υ σ)

theorem enters {World : Type} {Rel : World → σ → τ → Prop} {w : World} {c : υ} {t : τ} {name : String}
    {kind : ScopeKind} {i j : ScopeId} (h : Enters Rel (Rel w) (o.inner c) t name kind i j) :
    Enters (fun w c t => Rel w (o.inner c) t) (fun c t => Rel w (o.inner c) t) c t name kind i j := by
  obtain ⟨v, s, t', hs, ht, hst, hback⟩ := h
  rw [← o.openScope?] at hs
  obtain ⟨c', hc, rfl⟩ := Option.map_eq_some_iff.1 hs
  refine ⟨v, c', t', hc, ht, hst, fun c'' t'' h' => ?_⟩
  simp only [o.closeScope, o.current]
  exact hback _ _ h'

/-- What surrounds a store makes no difference. -/
def simulation (sim : Translation B σ τ) : Translation B υ τ where
  World := sim.World
  Rel w c t := sim.Rel w (o.inner c) t
  block {w c t} h := by
    obtain ⟨i, j, hi, hj, henter⟩ := sim.block h
    exact ⟨i, j, (o.current c).trans hi, hj, o.enters henter⟩
  lookupHere {w c t} h name := by
    rw [o.lookupHere]
    exact sim.lookupHere h name
  lookup {w c t} h name := by
    rw [o.lookup]
    refine (sim.lookup h name).mono fun f g hfg => ?_
    obtain ⟨hcode, v, hv, hlater⟩ := hfg
    exact ⟨hcode, v, hv, fun c' t' h' => ⟨(hlater _ _ h').1, o.enters (hlater _ _ h').2⟩⟩
  bindVariable {w c t} h v hnew := by
    rw [o.insert]
    exact sim.bindVariable h v (o.lookupHere c v.name ▸ hnew)
  bindFunction {w c t} h name params body body' i j hbody hnew hi hj := by
    rw [o.insert]
    exact sim.bindFunction h name params body body' i j hbody (o.lookupHere c name ▸ hnew)
      (o.current c ▸ hi) hj
  assign {w c t} h name value := by
    apply Assignment.Alike.of_map_left
    rw [o.assign]
    exact sim.assign h name value
  inFunction {w c t} h := (o.inFunction c).trans (sim.inFunction h)
  variablesHere {w c t} h := (o.variablesHere c).trans (sim.variablesHere h)

theorem simulation_admitsHeader {sim : Translation B σ τ} (h : sim.AdmitsHeader) :
    (o.simulation sim).AdmitsHeader := by
  intro w c t symbol hct hplain hnew
  change sim.Rel w (o.inner (ScopeStore.insert c symbol)) _
  rw [o.insert]
  exact h w _ _ symbol hct hplain (o.lookupHere c symbol.name ▸ hnew)

end Overlay

end Tremolo
