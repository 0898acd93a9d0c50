import Mathlib.Data.List.Forall2
import Tremolo.Proofs.Scope.Simulation

/-! # Stores that remember

A store that keeps, beside its state, every state it was in before.  Evaluation can change scopes only
through the operations of a store, and here each of them that changes something puts the state it
leaves on record; so a run over a `Chronicle` tells every state that the same run passes through.

A simulation between two stores carries over to their chronicles, and then relates all recorded states
one by one. -/

namespace Tremolo

/-- A state and the states before it, the latest first. -/
structure Chronicle (σ : Type) where
  now : σ
  past : List σ

namespace Chronicle

variable {σ τ : Type}

/-- Goes on to another state. -/
def advance (c : Chronicle σ) (s : σ) : Chronicle σ :=
  ⟨s, c.now :: c.past⟩

/-- All states on record, the latest first. -/
def states (c : Chronicle σ) : List σ :=
  c.now :: c.past

variable [ScopeStore σ] [ScopeStore τ]

/-- What an assignment does to the chronicle. -/
def assign (c : Chronicle σ) (name : String) (value : TypedValue) : Assignment (Chronicle σ) :=
  match ScopeStore.assign c.now name value with
  | .unbound => .unbound
  | .notVariable kind => .notVariable kind
  | .rejected e => .rejected e
  | .stored after => .stored (c.advance after)

theorem assign_eq (c : Chronicle σ) (name : String) (value : TypedValue) :
    c.assign name value = (ScopeStore.assign c.now name value).map c.advance :=
  rfl

instance : ScopeStore (Chronicle σ) where
  empty := ⟨ScopeStore.empty, []⟩
  current c := ScopeStore.current c.now
  openGlobal c := c.advance (ScopeStore.openGlobal c.now)
  openScope? c name kind parent := (ScopeStore.openScope? c.now name kind parent).map c.advance
  closeScope c restore := c.advance (ScopeStore.closeScope c.now restore)
  insert c symbol := c.advance (ScopeStore.insert c.now symbol)
  lookupHere c := ScopeStore.lookupHere c.now
  lookup c := ScopeStore.lookup c.now
  assign := assign
  inFunction c := ScopeStore.inFunction c.now
  variablesHere c := ScopeStore.variablesHere c.now

end Chronicle

/-! ## Watching two stores -/

section Watching

variable {σ τ : Type} [ScopeStore σ] [ScopeStore τ] (sim : Simulation σ τ)

/-- The present states are related in a world, and each pair of past states in some world. -/
structure Simulation.Watched (w : sim.World) (c : Chronicle σ) (d : Chronicle τ) : Prop where
  now : sim.Rel w c.now d.now
  past : List.Forall₂ (fun s t => ∃ v, sim.Rel v s t) c.past d.past

variable {sim} {w : sim.World} {c : Chronicle σ} {d : Chronicle τ}

theorem Simulation.Watched.states (h : sim.Watched w c d) :
    List.Forall₂ (fun s t => ∃ v, sim.Rel v s t) c.states d.states :=
  .cons ⟨w, h.now⟩ h.past

theorem Simulation.Watched.advance (h : sim.Watched w c d) {v : sim.World} {s : σ} {t : τ}
    (hst : sim.Rel v s t) : sim.Watched v (c.advance s) (d.advance t) :=
  ⟨hst, h.states⟩

theorem Simulation.Watched.enters (h : sim.Watched w c d) {name : String} {kind : ScopeKind}
    {i j : ScopeId} (henter : Enters sim.Rel (sim.Rel w) c.now d.now name kind i j) :
    Enters sim.Watched (sim.Watched w) c d name kind i j := by
  obtain ⟨v, s, t, hs, ht, hst, hback⟩ := henter
  refine ⟨v, c.advance s, d.advance t, ?_, ?_, h.advance hst, fun c' d' h' => ?_⟩
  · exact Option.map_eq_some_iff.2 ⟨s, hs, rfl⟩
  · exact Option.map_eq_some_iff.2 ⟨t, ht, rfl⟩
  · exact h'.advance (hback _ _ h'.now)

/-- The simulation between the chronicles of two stores. -/
def Simulation.chronicle (sim : Simulation σ τ) : Simulation (Chronicle σ) (Chronicle τ) where
  World := sim.World
  Rel := sim.Watched
  block h := by
    obtain ⟨i, j, hi, hj, henter⟩ := sim.block h.now
    exact ⟨i, j, hi, hj, h.enters henter⟩
  lookupHere h := sim.lookupHere h.now
  lookup h name := by
    refine (sim.lookup h.now name).mono fun f g hfg => ?_
    obtain ⟨hcode, v, hv, hlater⟩ := hfg
    refine ⟨hcode, v, ⟨hv, h.past⟩, fun c' d' h' => ?_⟩
    obtain ⟨hw, henter⟩ := hlater _ _ h'.now
    exact ⟨⟨hw, h'.past⟩, h'.enters henter⟩
  bindVariable h v hnew := h.advance (sim.bindVariable h.now v hnew)
  bindFunction h name params body body' i j hbody hnew hi hj :=
    h.advance (sim.bindFunction h.now name params body body' i j hbody hnew hi hj)
  assign {w c d} h name value := by
    change Assignment.Alike _ (c.assign name value) (d.assign name value)
    rw [Chronicle.assign_eq, Chronicle.assign_eq]
    have hassign := (sim.assign h.now name value).imp fun s t _ _ hst => h.advance hst
    exact hassign.map_right.map_left
  inFunction h := sim.inFunction h.now
  variablesHere h := sim.variablesHere h.now

theorem Simulation.chronicle_admitsHeader (hheader : sim.AdmitsHeader) :
    sim.chronicle.AdmitsHeader :=
  fun w _ _ symbol h hplain hnew => h.advance (hheader w _ _ symbol h.now hplain hnew)

/-! ## Watching one store -/

/-- Evaluation sees only the present state. -/
def Chronicle.overlay : Overlay (Chronicle σ) σ where
  inner := Chronicle.now
  current _ := rfl
  openScope? c name kind parent := by
    change ((ScopeStore.openScope? c.now name kind parent).map c.advance).map Chronicle.now = _
    rw [Option.map_map]
    exact Option.map_id'
  closeScope _ _ := rfl
  insert _ _ := rfl
  lookupHere _ _ := rfl
  lookup _ _ := rfl
  assign c name value := by
    change (c.assign name value).map Chronicle.now = _
    rw [Chronicle.assign_eq]
    cases ScopeStore.assign c.now name value <;> rfl
  inFunction _ := rfl
  variablesHere _ := rfl

/-- Keeping a chronicle on one side only makes no difference. -/
def Simulation.chronicleLeft (sim : Simulation σ τ) : Simulation (Chronicle σ) τ :=
  Chronicle.overlay.simulation sim

theorem Simulation.chronicleLeft_admitsHeader (hheader : sim.AdmitsHeader) :
    sim.chronicleLeft.AdmitsHeader :=
  Chronicle.overlay.simulation_admitsHeader hheader

end Watching

end Tremolo
