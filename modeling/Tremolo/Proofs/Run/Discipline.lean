import Mathlib
import Tremolo.Proofs.Run.Visited
import Tremolo.Proofs.Scope.Holdings

/-! # Runs keep the discipline of scopes

Every state of the stack that a run passes through is disciplined, every evaluation leaves the stack
as high as it was with the same scope current, however it ends, and the failures that guard against
the contrary cannot happen.

The invariant is carried through the evaluator as a simulation of the stack by itself
(`Simulation.disciplined`); the states that a run passes through are those that a chronicle of it
records (`Machine.visited`). -/

namespace Tremolo

/-! ## Which native functions are declared -/

namespace Environment

/-- All native functions that the live scopes hold satisfy `E`. -/
def ExternalsIn (E : ExternalFunction → Prop) (env : Environment) : Prop :=
  env.Holds fun x => ∀ f, x = .external f → E f

variable {E : ExternalFunction → Prop} {env : Environment}

theorem ExternalsIn.mono (h : env.ExternalsIn E) {E' : ExternalFunction → Prop}
    (hE : ∀ f, E f → E' f) : env.ExternalsIn E' :=
  Holds.mono h fun _ hx f hf => hE f (hx f hf)

theorem ExternalsIn.assign (h : env.ExternalsIn E) {after : Environment} {name : String}
    {value : TypedValue} (hafter : env.assign name value = .stored after) : after.ExternalsIn E :=
  Holds.assign h hafter fun _ _ _ _ => by simp

theorem externalsIn_openGlobal (E : ExternalFunction → Prop) : empty.openGlobal.ExternalsIn E :=
  holds_openGlobal fun _ _ => by simp

/-! ## The invariant -/

/-- What evaluation keeps of the state `before`. -/
structure Kept (E : ExternalFunction → Prop) (before now : Environment) : Prop where
  disciplined : now.Disciplined
  later : before.Later now
  externals : now.ExternalsIn E

variable {before now : Environment}

theorem Kept.refl (h : env.Disciplined) (hE : env.ExternalsIn E) : env.Kept E env :=
  ⟨h, .refl env, hE⟩

theorem Kept.after (h : before.Later env) (hkept : env.Kept E now) : before.Kept E now :=
  ⟨hkept.disciplined, h.trans hkept.later, hkept.externals⟩

theorem Kept.insert (h : before.Kept E now) {x : Symbol} (hnew : now.lookupHere x.name = none)
    (hscope : ∀ f, x = .function f → now.current = some f.scope)
    (hx : ∀ f, x = .external f → E f) : before.Kept E (now.insert x) :=
  ⟨h.disciplined.insert hnew hscope, h.later.trans (h.disciplined.later_insert hnew),
    Holds.insert h.externals hx⟩

theorem Kept.assign (h : before.Kept E now) {after : Environment} {name : String}
    {value : TypedValue} (hafter : now.assign name value = .stored after) :
    before.Kept E after :=
  ⟨h.disciplined.assign hafter, h.later.trans (later_assign hafter), h.externals.assign hafter⟩

theorem Kept.push (h : before.Kept E now) {name : String} {kind : ScopeKind} {i : ScopeId}
    {outer : Scope} (houter : now.scope? i = some outer)
    (hcall : kind = .function → ∃ f, outer.get? name = some (.function f)) :
    (now.push (.fresh name (outer.level + 1) kind (some i))).Kept E
      (now.push (.fresh name (outer.level + 1) kind (some i))) :=
  .refl (h.disciplined.push houter hcall) (Holds.push h.externals _ _ _ _)

/-- Whatever happened in a scope, leaving it leads back. -/
theorem Kept.close (h : before.Kept E now) {scope : Scope} {last : Environment}
    (hlast : (now.push scope).Kept E last) : before.Kept E (last.closeScope now.current) :=
  ⟨h.disciplined.close hlast.later hlast.disciplined,
    h.later.trans (h.disciplined.later_close hlast.later), Holds.close hlast.externals _⟩

theorem Kept.enters (h : before.Kept E now) {name : String} {kind : ScopeKind} {i : ScopeId}
    {outer : Scope} (houter : now.scope? i = some outer)
    (hcall : kind = .function → ∃ f, outer.get? name = some (.function f)) :
    Enters (fun (w : Environment) s t => s = t ∧ w.Kept E s) (fun s t => s = t ∧ before.Kept E s)
      now now name kind i i := by
  have hopen : now.openScope? name kind i = _ := openScope?_eq houter name kind
  refine ⟨_, _, _, hopen, hopen, ⟨rfl, h.push houter hcall⟩, ?_⟩
  rintro s _ ⟨rfl, hs⟩
  exact ⟨rfl, h.close hs⟩

/-- A function that was found once stays where it was found. -/
theorem Kept.function (h : before.Kept E now) {name : String} {f : FunctionDef}
    (hf : now.lookup name = some (.function f)) {after : Environment} (hafter : now.Kept E after) :
    before.Kept E after ∧ ∃ outer, after.scope? f.scope = some outer ∧
      ∃ g, outer.get? f.name = some (.function g) := by
  obtain ⟨i, a, -, ha, hfa⟩ := lookup_spec hf
  obtain ⟨hname, hscope⟩ := h.disciplined.heldAt ha hfa
  obtain rfl := hscope f rfl
  obtain ⟨b, hb, hfb⟩ := hafter.later.function ha hfa
  exact ⟨hafter.after h.later, b, hb, f, by rw [← hfb, ← hname]; rfl⟩

end Environment

open Environment in
/-- The stack simulates itself: evaluation keeps the discipline. -/
def Simulation.disciplined (E : ExternalFunction → Prop) : Simulation Environment Environment where
  World := Environment
  Rel w s t := s = t ∧ w.Kept E s
  block := by
    rintro w s _ ⟨rfl, h⟩
    obtain ⟨outer, houter⟩ := h.disciplined.scope?_current
    exact ⟨_, _, h.disciplined.top, h.disciplined.top, h.enters houter (by simp)⟩
  lookupHere := by
    rintro w s _ ⟨rfl, -⟩ name
    rfl
  lookup := by
    rintro w s _ ⟨rfl, h⟩ name
    change SameBinding _ (s.lookup name) (s.lookup name)
    cases hx : s.lookup name with
    | none => exact .unbound
    | some x =>
      rcases x with _ | _ | f | _
      · exact .plain (by simp)
      · exact .plain (by simp)
      · -- From now on the function is known to stay where it was found.
        refine .function ⟨⟨rfl, rfl, rfl⟩, s, ⟨rfl, .refl h.disciplined h.externals⟩, ?_⟩
        rintro s' _ ⟨rfl, h'⟩
        obtain ⟨hback, outer, houter, hcall⟩ := h.function hx h'
        exact ⟨⟨rfl, hback⟩, h'.enters houter fun _ => hcall⟩
      · exact .plain (by simp)
  bindVariable := by
    rintro w s _ ⟨rfl, h⟩ v hnew
    exact ⟨rfl, h.insert hnew (by simp) (by simp)⟩
  bindFunction := by
    rintro w s _ ⟨rfl, h⟩ name params body _ i j rfl hnew hi hj
    obtain rfl := Option.some.inj (hi.symm.trans hj)
    exact ⟨rfl, h.insert hnew (by rintro f ⟨⟩; exact hi) (by simp)⟩
  assign := by
    rintro w s _ ⟨rfl, h⟩ name value
    exact (Assignment.Alike.refl (s.assign name value)).imp fun s' t' hs _ heq => ⟨heq, h.assign hs⟩
  inFunction := by
    rintro w s _ ⟨rfl, -⟩
    rfl
  variablesHere := by
    rintro w s _ ⟨rfl, -⟩
    rfl

theorem Simulation.disciplined_admitsHeader :
    (Simulation.disciplined fun _ => True).AdmitsHeader := by
  rintro w s _ symbol ⟨rfl, h⟩ hplain hnew
  exact ⟨rfl, h.insert hnew (fun f hf => absurd hf (hplain f)) (fun _ _ => trivial)⟩

/-! ## Evaluation at a disciplined state -/

/-- A computation that started at `before` leaves the stack as high as it was, with the same scope
    current and the same native functions bound, and has met no dead scope. -/
structure Machine.Balanced {α : Type} (before : Machine Environment)
    (run : Outcome α × Machine Environment) : Prop where
  depth : run.2.scopes.depth = before.scopes.depth
  current : run.2.scopes.current = before.scopes.current
  natives : run.2.natives = before.natives
  alive : ∀ id, run.1 ≠ .deadScope id

/-- Whatever is evaluated here is balanced, and what guards against the contrary does not fail. -/
structure Machine.Safe (host : Host) (m : Machine Environment) : Prop where
  scope : EvalM.currentScope host m = (.done (m.scopes.depth - 1), m)
  declared : ∀ name f, m.scopes.lookup name = some (.function f) → f.scope < m.scopes.depth
  callable : ∀ name f, m.scopes.lookup name = some (.external f) →
    ∃ callable, EvalM.boundNative f.name host m = (.done callable, m)
  expr : ∀ fuel e, m.Balanced (evalExpr fuel e host m)
  stmt : ∀ fuel s, m.Balanced (evalStmt fuel s host m)
  call : ∀ fuel name args,
    m.Balanced (EvalM.call (evalExpr fuel) (evalStmt fuel) name args host m)

namespace Machine

variable {m : Machine Environment} {host : Host}

theorem balanced_of_simulates {α : Type} {E : ExternalFunction → Prop} {x : EvalM Environment α}
    (hm : m.scopes.Disciplined) (hE : m.scopes.ExternalsIn E)
    (hx : EvalM.Simulates host host ((Simulation.disciplined E).Pairs
      (Tally.since host (· = m.natives) m m rfl) m.scopes) Eq x x) : m.Balanced (x host m) := by
  obtain ⟨houtcome, ⟨-, hkept⟩, hnatives, -⟩ :=
    hx m m ⟨⟨rfl, .refl hm hE⟩, rfl, rfl, .refl .., .refl .., .refl ..⟩
  exact ⟨hkept.later.depth, hkept.later.current, hnatives, houtcome.not_deadScope⟩

theorem currentScope_eq (hm : m.scopes.Disciplined) :
    EvalM.currentScope host m = (.done (m.scopes.depth - 1), m) := by
  have htop : ScopeStore.current m.scopes = some (m.scopes.depth - 1) := hm.top
  simp only [EvalM.currentScope, bind, EvalM.bind, EvalM.ask, htop, pure, EvalM.pure]

theorem safe_of_disciplined (hm : m.scopes.Disciplined)
    (hE : m.scopes.ExternalsIn fun f => (m.natives.get? f.name).isSome) : m.Safe host where
  scope := currentScope_eq hm
  declared name f hf := by
    obtain ⟨i, a, -, ha, hfa⟩ := Environment.lookup_spec hf
    rw [(hm.heldAt ha hfa).2 f rfl]
    exact Environment.lt_depth_of_scope? ha
  callable name f hf := by
    obtain ⟨callable, hc⟩ := Option.isSome_iff_exists.1 (Environment.Holds.lookup hE hf f rfl)
    exact ⟨callable, by simp only [EvalM.boundNative, hc]⟩
  expr fuel e := balanced_of_simulates hm hE (Simulation.evalExpr_simulates _ _ fuel _ e)
  stmt fuel s := balanced_of_simulates hm hE (Simulation.evalStmt_simulates _ _ fuel _ s)
  call fuel name args := balanced_of_simulates hm hE
    (Simulation.call_simulates _ _ (Simulation.evalExpr_simulates _ _ fuel)
      (Simulation.evalStmt_simulates _ _ fuel) name args)

end Machine

/-! ## The states of a run -/

/-- All states on record are disciplined, and their native functions are bound. -/
def Machine.Recorded (m : Machine (Chronicle Environment)) : Prop :=
  ∀ env ∈ m.scopes.states,
    env.Disciplined ∧ env.ExternalsIn fun f => (m.natives.get? f.name).isSome

namespace Machine.Recorded

open EvalM

theorem insert {m : Machine (Chronicle Environment)} (h : m.Recorded) {x : Symbol}
    {natives : Table NativeFunction} (hnew : m.scopes.now.lookupHere x.name = none)
    (hplain : ∀ f, x ≠ .function f)
    (hnatives : ∀ name, (m.natives.get? name).isSome → (natives.get? name).isSome)
    (hx : ∀ f, x = .external f → (natives.get? f.name).isSome) :
    ({ m with scopes := ScopeStore.insert m.scopes x, natives := natives } :
      Machine (Chronicle Environment)).Recorded := by
  -- Names of native functions are added and never removed, so older states keep theirs.
  have hold : ∀ env ∈ m.scopes.states,
      env.Disciplined ∧ env.ExternalsIn fun f => (natives.get? f.name).isSome :=
    fun env henv => ⟨(h env henv).1, (h env henv).2.mono fun f => hnatives f.name⟩
  intro env henv
  rcases List.mem_cons.1 henv with rfl | henv
  · obtain ⟨hnow, hexternals⟩ := hold m.scopes.now (List.mem_cons_self ..)
    exact ⟨hnow.insert hnew fun f hf => absurd hf (hplain f),
      Environment.Holds.insert hexternals hx⟩
  · exact hold env henv

theorem header (host : Host) (header : Header) :
    Keeps host Recorded (declareHeader header) := by
  refine declareHeader_keeps header (fun m name _ hm hnew => ?_)
    fun m f callable _ _ _ _ _ _ _ _ hm hnew => ?_
  · exact hm.insert (x := .type name) hnew (by simp) (fun _ h => h) (by simp)
  · refine hm.insert (x := .external f) hnew (by simp) (fun name hname => ?_) ?_
    · rw [Table.get?_insert]
      split
      · rfl
      · exact hname
    · rintro _ ⟨⟩
      rw [Table.get?_insert, if_pos rfl]
      rfl

theorem body (host : Host) (fuel : Nat) (body : List Stmt) :
    Keeps host Recorded (evalBody fuel body) := by
  intro m hm
  obtain ⟨hnow, hexternals⟩ := hm m.scopes.now (List.mem_cons_self ..)
  -- The body binds no native function, so those bound at its start can stand in the invariant.
  let sim := (Simulation.disciplined fun f => (m.natives.get? f.name).isSome).chronicle
  have hpast : List.Forall₂ (fun s t => ∃ v,
      (Simulation.disciplined fun f => (m.natives.get? f.name).isSome).Rel v s t)
      m.scopes.past m.scopes.past := by
    refine List.forall₂_same.2 fun env henv => ⟨env, rfl, ?_⟩
    obtain ⟨hd, hE⟩ := hm env (List.mem_cons_of_mem _ henv)
    exact .refl hd hE
  -- A chronicle that simulates itself has equal states on record, each of them kept in some world.
  obtain ⟨-, hwatched, hnatives, -⟩ := sim.evalBody_simulates
    (w := m.scopes.now) (Tally.since host (· = m.natives) m m rfl) (Tally.since_admitsEcho host _ _ _ _)
    fuel body m m
    ⟨⟨⟨rfl, .refl hnow hexternals⟩, hpast⟩, rfl, rfl, .refl .., .refl .., .refl ..⟩
  intro env henv
  rw [hnatives]
  obtain ⟨v, -, hkept⟩ := List.forall₂_same.1 (hwatched.states) env henv
  exact ⟨hkept.disciplined, hkept.externals⟩

theorem program (host : Host) (fuel : Nat) (p : Program) :
    Keeps host Recorded (evalProgram fuel p) := by
  have hrest : Keeps host Recorded
      (do let results ← evalBody fuel p.body
          return ⟨results, ← ask ScopeStore.variablesHere⟩ :
        EvalM (Chronicle Environment) Execution) :=
    (body host fuel p.body).bind fun _ => Keeps.bind (fun _ hm => hm) fun _ _ hm => hm
  obtain ⟨head, stmts⟩ := p
  cases head with
  | none => exact hrest
  | some h => exact (header host h).bind fun _ => hrest

end Machine.Recorded

/-! ## Runs from beginning to end -/

namespace Machine

variable {m : Machine Environment} (hm : m.scopes = .empty) (fuel : Nat) (p : Program) (host : Host)

include hm

theorem opened_kept : Environment.empty.openGlobal.Kept (fun _ => True)
    (ScopeStore.openGlobal m.scopes) := by
  rw [hm]
  exact .refl Environment.disciplined_openGlobal (Environment.externalsIn_openGlobal _)

/-- A run leaves no scope behind. -/
theorem execute_scopes : (m.execute fuel p host).2.scopes = .empty := by
  obtain ⟨-, hkept⟩ := ((Simulation.disciplined _).run_agree (n := m)
    Simulation.disciplined_admitsHeader ⟨rfl, opened_kept hm⟩ fuel p host).machine.1
  rw [execute_eq]
  -- The body ends with the global scope alone on the stack.
  generalize m.run fuel p host = run at hkept
  have hsize : run.2.scopes.scopes.size = 1 := hkept.later.depth
  have hpop : run.2.scopes.scopes.pop = #[] := Array.eq_empty_of_size_eq_zero (by simp [hsize])
  change run.2.scopes.closeScope m.scopes.current = .empty
  rw [hm, Environment.closeScope, hpop]
  rfl

theorem watch_outcome : (m.watch fuel p host).1 = (m.execute fuel p host).1 :=
  ((Simulation.disciplined _).watch_agree (n := m) Simulation.disciplined_admitsHeader
    ⟨rfl, opened_kept hm⟩ fuel p host).outcome.eq

theorem watch_natives : (m.watch fuel p host).2.natives = (m.execute fuel p host).2.natives :=
  ((Simulation.disciplined _).watch_agree (n := m) Simulation.disciplined_admitsHeader
    ⟨rfl, opened_kept hm⟩ fuel p host).machine.2.natives

theorem execute_alive (id : ScopeId) : (m.execute fuel p host).1 ≠ .deadScope id :=
  ((Simulation.disciplined _).run_agree (n := m) Simulation.disciplined_admitsHeader
    ⟨rfl, opened_kept hm⟩ fuel p host).outcome.not_deadScope id

theorem visited_recorded {env : Environment} (henv : env ∈ m.visited fuel p host) :
    env.Disciplined ∧
      env.ExternalsIn fun f => ((m.execute fuel p host).2.natives.get? f.name).isSome := by
  rw [← watch_natives hm]
  refine Recorded.program host fuel p _ (fun env henv => ?_) env henv
  obtain rfl := List.mem_singleton.1 henv
  rw [hm]
  exact ⟨Environment.disciplined_openGlobal, Environment.externalsIn_openGlobal _⟩

end Machine

theorem Machine.after_scopes (earlier : List (Nat × Program × Host)) :
    (after earlier : Machine Environment).scopes = .empty :=
  after_invariant (I := fun m => m.scopes = Environment.empty) rfl
    (fun _ fuel p host hm => execute_scopes hm fuel p host) earlier

/-- A value for a parameter is never refused. -/
theorem Variable.withValue_var (name : String) (value : TypedValue) :
    Variable.withValue name .var value = .ok ⟨name, .var, some value⟩ :=
  rfl

/-- The arguments of a function of the script always have the types that are asked for. -/
theorem checkArguments_var (function : String) (position : Nat) (params : List String)
    (values : List TypedValue) :
    checkArguments function position (params.map fun _ => .var) values = .ok () := by
  induction params generalizing position values with
  | nil => rfl
  | cons param params ih =>
    cases values with
    | nil => rfl
    | cons value values => exact ih (position + 1) values

/-- In every state that a run passes through the scopes are disciplined and evaluation is safe; the run
    meets no dead scope and leaves none behind.  Parameters take every value, so neither binding them nor
    checking arguments against them fails. -/
theorem execute_keeps_discipline (earlier : List (Nat × Program × Host)) (fuel : Nat) (p : Program)
    (host : Host) :
    let start : Machine Environment := .after earlier
    let run := start.execute fuel p host
    ((start.watch fuel p host).1 = run.1 ∧ run.2.scopes = .empty ∧ ∀ id, run.1 ≠ .deadScope id) ∧
    (∀ env ∈ start.visited fuel p host, env.Disciplined ∧
      ∀ m : Machine Environment, m.scopes = env → m.natives = run.2.natives → m.Safe host) ∧
    (∀ name value, ∃ v, Variable.withValue name .var value = .ok v) ∧
    ∀ function position (params : List String) values,
      checkArguments function position (params.map fun _ => .var) values = .ok () := by
  intro start run
  have hstart : start.scopes = .empty := Machine.after_scopes earlier
  refine ⟨⟨?_, ?_, ?_⟩, fun env henv => ?_, fun name value => ?_, checkArguments_var⟩
  · exact Machine.watch_outcome hstart fuel p host
  · exact Machine.execute_scopes hstart fuel p host
  · exact Machine.execute_alive hstart fuel p host
  · obtain ⟨hdisciplined, hexternals⟩ := Machine.visited_recorded hstart fuel p host henv
    refine ⟨hdisciplined, fun m hscopes hnatives => Machine.safe_of_disciplined ?_ ?_⟩
    · rw [hscopes]
      exact hdisciplined
    · rw [hscopes, hnatives]
      exact hexternals
  · exact ⟨_, Variable.withValue_var name value⟩

/-- A program that fails in a block inside a call. -/
def Failing.program : Program :=
  ⟨none, [.define "f" [] [.block [.expr (.var "y")]], .expr (.call "f" [])]⟩

/-- The state in which it fails. -/
def Failing.deepest : Environment :=
  ⟨#[⟨"global", 1, .global, none, ⟨[("NUMBER", .type "NUMBER"), ("STRING", .type "STRING"),
      ("VAR", .type "VAR"), ("f", .function ⟨"f", [], [.block [.expr (.var "y")]], 0⟩)]⟩⟩,
    ⟨"f", 2, .function, some 0, .empty⟩, ⟨"block", 3, .block, some 1, .empty⟩], some 2⟩

open Failing in
theorem execute_keeps_discipline_failing :
    deepest ∈ (Machine.after []).visited 9 program ⟨.empty, ⟨true, false⟩⟩ ∧
      deepest.Disciplined ∧ (Machine.fresh deepest).Safe ⟨.empty, ⟨true, false⟩⟩ := by
  have hvisited : deepest ∈ (Machine.after []).visited 9 program ⟨.empty, ⟨true, false⟩⟩ :=
    List.mem_of_getElem? (i := 2) (by cbv)
  have hnatives : ((Machine.after [] : Machine Environment).execute 9 program
      ⟨.empty, ⟨true, false⟩⟩).2.natives = .empty := by cbv
  obtain ⟨hdisciplined, hsafe⟩ :=
    (execute_keeps_discipline [] 9 program ⟨.empty, ⟨true, false⟩⟩).2.1 deepest hvisited
  exact ⟨hvisited, hdisciplined, hsafe (Machine.fresh deepest) rfl hnatives.symm⟩

end Tremolo
