import Tremolo.Proofs.Run.Simulation
import Tremolo.Proofs.Scope.Chronicle

/-! # States that a run passes through

* `Machine.after` — the machine after any number of runs;
* `Machine.visited` — every state of the scopes from the moment a program starts to its end, as a
  chronicle of the run tells it;
* `Simulation.run_agree`, `Simulation.visited_agree` — runs over stores that are alike end alike,
  and so do all states on the way. -/

namespace Tremolo

variable {σ τ : Type} [ScopeStore σ] [ScopeStore τ]

namespace Machine

/-- The machine after some runs, each with its fuel, its program and its host. -/
def after (earlier : List (Nat × Program × Host)) : Machine σ :=
  earlier.foldl (fun m run => (m.execute run.1 run.2.1 run.2.2).2) initial

/-- A machine that has nothing on record yet. -/
def fresh (scopes : σ) : Machine σ :=
  ⟨scopes, .empty, #[], #[], #[]⟩

/-- The end of a program's body, before the global scope is closed. -/
def run (fuel : Nat) (p : Program) (host : Host) (m : Machine σ) : Outcome Execution × Machine σ :=
  evalProgram fuel p host (fresh (ScopeStore.openGlobal m.scopes))

theorem execute_eq (fuel : Nat) (p : Program) (host : Host) (m : Machine σ) :
    m.execute fuel p host =
      ((m.run fuel p host).1, { (m.run fuel p host).2 with
        scopes := ScopeStore.closeScope (m.run fuel p host).2.scopes
          (ScopeStore.current m.scopes) }) :=
  rfl

/-- What holds of the first machine and survives every run holds after any runs. -/
theorem after_invariant {I : Machine σ → Prop} (hinitial : I initial)
    (hrun : ∀ m fuel p host, I m → I (m.execute fuel p host).2)
    (earlier : List (Nat × Program × Host)) : I (after earlier) := by
  have hfold : ∀ m, I m →
      I (earlier.foldl (fun m run => (m.execute run.1 run.2.1 run.2.2).2) m) := by
    induction earlier with
    | nil => exact fun _ hm => hm
    | cons run rest ih => exact fun m hm => ih _ (hrun m run.1 run.2.1 run.2.2 hm)
  exact hfold initial hinitial

/-- The run of a program with a chronicle of its scopes, up to where the global scope is closed. -/
def watch (fuel : Nat) (p : Program) (host : Host) (m : Machine σ) :
    Outcome Execution × Machine (Chronicle σ) :=
  evalProgram fuel p host (fresh ⟨ScopeStore.openGlobal m.scopes, []⟩)

/-- The states that the scopes are in while a program runs, the latest first. -/
def visited (fuel : Nat) (p : Program) (host : Host) (m : Machine σ) : List σ :=
  (m.watch fuel p host).2.scopes.states

end Machine

/-- Two machines have the same on record. -/
structure Machine.SameRecords (m : Machine σ) (n : Machine τ) : Prop where
  natives : m.natives = n.natives
  trace : m.trace = n.trace
  shown : m.shown = n.shown
  calls : m.calls = n.calls

/-- Computations that match do so on machines with nothing on record, and then their records are the
    same. -/
theorem Translation.agree_of_simulates {B : List Stmt → List Stmt → Prop} (sim : Translation B σ τ)
    {α β : Type} {Q : α → β → Prop} {x : EvalM σ α} {y : EvalM τ β} {w : sim.World} {s : σ} {t : τ}
    {host : Host} (hst : sim.Rel w s t)
    (hxy : EvalM.Simulates host host
      (sim.Pairs (Tally.since host (fun _ => True) (Machine.fresh s) (Machine.fresh t) rfl) w) Q x y) :
    Agree (fun m n => sim.Rel w m.scopes n.scopes ∧ m.SameRecords n) Q (x host (Machine.fresh s))
      (y host (Machine.fresh t)) := by
  have hagree := hxy (Machine.fresh s) (Machine.fresh t)
    ⟨hst, trivial, rfl, .refl .., .refl .., .refl ..⟩
  refine hagree.mono ?_
  rintro m n ⟨hmn, -, hnatives, htrace, hshown, hcalls⟩
  exact ⟨hmn, hnatives, htrace.eq, hshown.eq, hcalls.eq⟩

namespace Simulation

theorem fresh_agree (sim : Simulation σ τ) (hheader : sim.AdmitsHeader) {w : sim.World} {s : σ}
    {t : τ} (hst : sim.Rel w s t) (fuel : Nat) (p : Program) (host : Host) :
    Agree (fun m n => sim.Rel w m.scopes n.scopes ∧ m.SameRecords n) Eq
      (evalProgram fuel p host (Machine.fresh s)) (evalProgram fuel p host (Machine.fresh t)) :=
  sim.agree_of_simulates hst (sim.evalProgram_simulates _ (Tally.since_admitsEcho host _ _ _ _) hheader
    (Tally.since_admitsNatives host (Machine.fresh s) (Machine.fresh t) rfl) rfl fuel p)

variable (sim : Simulation σ τ) {w : sim.World} {m : Machine σ} {n : Machine τ}
  (hheader : sim.AdmitsHeader)
  (hopen : sim.Rel w (ScopeStore.openGlobal m.scopes) (ScopeStore.openGlobal n.scopes))
  (fuel : Nat) (p : Program) (host : Host)

include hheader hopen

/-- A program runs alike, with the same records. -/
theorem run_agree :
    Agree (fun m n => sim.Rel w m.scopes n.scopes ∧ m.SameRecords n) Eq (m.run fuel p host)
      (n.run fuel p host) :=
  sim.fresh_agree hheader hopen fuel p host

/-- The states on the way are related one by one. -/
theorem visited_agree :
    List.Forall₂ (fun s t => ∃ v, sim.Rel v s t) (m.visited fuel p host) (n.visited fuel p host) :=
  (sim.chronicle.fresh_agree (chronicle_admitsHeader hheader) (w := w) ⟨hopen, .nil⟩ fuel p
    host).machine.1.states

/-- A run goes the same way with a chronicle and without. -/
theorem watch_agree :
    Agree (fun c n => sim.Rel w c.scopes.now n.scopes ∧ c.SameRecords n) Eq (m.watch fuel p host)
      (n.run fuel p host) :=
  sim.chronicleLeft.fresh_agree (chronicleLeft_admitsHeader hheader) (w := w)
    (s := ⟨ScopeStore.openGlobal m.scopes, []⟩) hopen fuel p host

end Simulation

end Tremolo
