import Tremolo.Proofs.Run.Discipline
import Tremolo.Run.Evaluator

/-! # Runs of one evaluator do not see each other

Between runs an evaluator holds no scopes (`Evaluator.Idle`), and a run looks at nothing else of what
the last one left.  So every run is that of a new evaluator with the configuration then in force.
Objects that native functions make are numbered from the start of the run, so the reports agree even
on these. -/

namespace Tremolo

/-- Of what is there before, a run sees the scopes alone. -/
theorem Machine.execute_congr {σ : Type} [ScopeStore σ] {m n : Machine σ}
    (h : m.scopes = n.scopes) (fuel : Nat) (p : Program) (host : Host) :
    m.execute fuel p host = n.execute fuel p host := by
  simp only [Machine.execute, h]

namespace Evaluator

/-- The runs among requests, each with the configuration that is in force by then. -/
def runs (config : Config) : List Request → List (Config × Nat × Program)
  | [] => []
  | .configure config :: rest => runs config rest
  | .execute fuel p :: rest => (config, fuel, p) :: runs config rest

/-- The evaluator resolves modules in the registry and is in no scope. -/
structure Idle (registry : Registry) (e : Evaluator) : Prop where
  registry : e.host.registry = registry
  scopes : e.machine.scopes = .empty

variable {registry : Registry} {e : Evaluator}

theorem idle_ofRegistry (registry : Registry) : Idle registry (ofRegistry registry) :=
  ⟨rfl, rfl⟩

theorem Idle.withConfig (h : Idle registry e) (config : Config) :
    Idle registry (e.withConfig config) :=
  ⟨h.registry, h.scopes⟩

theorem Idle.execute (h : Idle registry e) (fuel : Nat) (p : Program) :
    Idle registry (e.execute fuel p).2 :=
  ⟨h.registry, Machine.execute_scopes h.scopes fuel p e.host⟩

/-- A new evaluator reports the same. -/
theorem Idle.execute_eq (h : Idle registry e) (fuel : Nat) (p : Program) :
    e.execute fuel p = ((ofRegistry registry).withConfig e.host.config).execute fuel p := by
  have hhost : ((ofRegistry registry).withConfig e.host.config).host = e.host := by
    rw [← h.registry]
    rfl
  have hmachine := Machine.execute_congr
    (n := ((ofRegistry registry).withConfig e.host.config).machine) h.scopes fuel p e.host
  simp only [Evaluator.execute, hhost, hmachine]

theorem Idle.serve_eq (h : Idle registry e) (requests : List Request) :
    e.serve requests = (runs e.host.config requests).map fun run =>
      ((ofRegistry registry).withConfig run.1).execute run.2.1 run.2.2 := by
  induction requests generalizing e with
  | nil => rfl
  | cons request rest ih =>
    cases request with
    | configure config => exact ih (h.withConfig config)
    | execute fuel p =>
      -- The run replaces the machine alone: the configuration in force stays in force.
      exact List.cons_eq_cons.2 ⟨h.execute_eq fuel p, ih (h.execute fuel p)⟩

theorem Idle.serve_idle (h : Idle registry e) (requests : List Request) :
    ∀ step ∈ e.serve requests, Idle registry step.2 := by
  rw [h.serve_eq]
  intro step hstep
  obtain ⟨run, -, rfl⟩ := List.mem_map.1 hstep
  exact ((idle_ofRegistry registry).withConfig run.1).execute run.2.1 run.2.2

/-- Every run on an evaluator, whatever was asked of it before, is that of a new evaluator with the
    same registry and configuration, and leaves no scope behind. -/
theorem serve_isolated (registry : Registry) (requests : List Request) :
    ((ofRegistry registry).serve requests = (runs {} requests).map fun run =>
      ((ofRegistry registry).withConfig run.1).execute run.2.1 run.2.2) ∧
    ∀ step ∈ (ofRegistry registry).serve requests,
      step.2.machine.scopes.depth = 0 ∧ step.2.machine.scopes.current = none := by
  have hidle := idle_ofRegistry registry
  refine ⟨hidle.serve_eq requests, fun step hstep => ?_⟩
  rw [(hidle.serve_idle requests step hstep).scopes]
  exact ⟨rfl, rfl⟩

end Evaluator

end Tremolo
