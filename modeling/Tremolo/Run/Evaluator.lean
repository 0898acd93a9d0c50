import Tremolo.Run.Eval

/-! # Evaluators

An evaluator runs one program after another on one machine.  Its configuration may be replaced in
between.

* `Evaluator.execute` — one run, and what it reports;
* `Evaluator.serve` — any number of requests, in order. -/

namespace Tremolo

/-- A machine that is used for one run after another, and what these runs are given. -/
structure Evaluator where
  host : Host
  machine : Machine Environment

namespace Evaluator

def ofRegistry (registry : Registry) : Evaluator :=
  ⟨⟨registry, {}⟩, .initial⟩

def withConfig (e : Evaluator) (config : Config) : Evaluator :=
  { e with host := { e.host with config := config } }

structure Report where
  outcome : Outcome Execution
  trace : Array (String × TypedValue)
  shown : String

def execute (e : Evaluator) (fuel : Nat) (p : Program) : Report × Evaluator :=
  let (outcome, machine) := e.machine.execute fuel p e.host
  (⟨outcome, machine.trace, machine.shownText⟩, { e with machine := machine })

inductive Request where
  | configure (config : Config)
  | execute (fuel : Nat) (p : Program)

/-- Meets requests in order.  For each run this gives its report and the evaluator as it is then. -/
def serve (e : Evaluator) : List Request → List (Report × Evaluator)
  | [] => []
  | .configure config :: rest => (e.withConfig config).serve rest
  | .execute fuel p :: rest => e.execute fuel p :: (e.execute fuel p).2.serve rest

end Evaluator

end Tremolo
