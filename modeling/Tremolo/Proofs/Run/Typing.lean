import Mathlib
import Tremolo.Native.Host
import Tremolo.Proofs.Run.LawfulRuns

/-! # Values are as their types say

Scripts are typed while they run, so what is shown here is not that no type error occurs but that no
value ever disagrees with its type: neither a variable in any state that a run passes through, nor a
value that is computed, passed or returned on the way, nor one that the run reports. -/

namespace Tremolo

/-- Whatever is computed at the machine is sound. -/
structure Machine.Typed (types : String → Prop) (host : Host) (m : Machine Environment) : Prop where
  expr : ∀ fuel e v, (evalExpr fuel e host m).1 = .done v → v.Sound types
  expressed : ∀ fuel s v, (evalStmt fuel s host m).1 = .done (.normal (some v)) → v.Sound types
  returned : ∀ fuel s v, (evalStmt fuel s host m).1 = .done (.returned v) → v.Sound types
  arguments : ∀ fuel function formals args values,
    (EvalM.arguments (evalExpr fuel) function formals args host m).1 = .done values →
      ∀ v ∈ values, v.Sound types

theorem Machine.Lawful.typed {o : Outset} {m : Machine Environment}
    (h : m.Lawful Environment.custody o) (host : Host) : m.Typed o.program.NamesType host := by
  refine ⟨?_, ?_, ?_, ?_⟩
  · intro fuel e v hv
    exact ((h.ended_expr host fuel e).result v hv).toSound
  · intro fuel s v hv
    exact ((h.ended_stmt host fuel s).result _ hv v rfl).toSound
  · intro fuel s v hv
    exact TypedValue.Genuine.toSound ((h.ended_stmt host fuel s).result _ hv)
  · intro fuel function formals args values hvalues v hv
    obtain ⟨hallowed, -⟩ := (h.ended_arguments host fuel function formals args).result values hvalues
    exact (hallowed v hv).toSound

/-- In every state that a run passes through, variables have declared types and hold values of them, and
    whatever is computed there is as its type says.  So is everything that is put on record or
    reported. -/
theorem execute_type_sound (earlier : List (Nat × Program × Host)) (fuel : Nat) (p : Program)
    (host : Host) :
    let start : Machine Environment := .after earlier
    let run := start.execute fuel p host
    (∀ env ∈ start.visited fuel p host,
      env.Holds (fun symbol => ∀ v, symbol = .variable v → v.Sound p.NamesType) ∧
      ∀ m : Machine Environment, m.scopes = env → m.natives = run.2.natives →
        m.Typed p.NamesType host) ∧
    (∀ entry ∈ run.2.trace, entry.2.Sound p.NamesType) ∧
    (∀ call ∈ run.2.calls, ∀ arg ∈ call.args, arg.Sound p.NamesType) ∧
    ∀ x, run.1 = .done x → (∀ v ∈ x.results, v.Sound p.NamesType) ∧
      ∀ name v, (name, some v) ∈ x.globals → v.Sound p.NamesType := by
  intro start run
  have hrun : LawfulRun _ _ run := Machine.execute_lawful (Machine.after_scopes earlier) fuel p host
  refine ⟨fun env henv => ⟨?_, ?_⟩, fun entry hentry => ?_, fun call hcall arg harg => ?_,
    fun x hx => ⟨fun v hv => ?_, fun name v hv => ?_⟩⟩
  · refine (hrun.states env henv).mono fun symbol hsymbol v hv => ?_
    subst hv
    exact Variable.Genuine.toSound hsymbol
  · intro m hscopes hnatives
    subst hscopes
    exact (hrun.resumed henv hnatives).typed host
  · exact (hrun.trace entry hentry).toSound
  · obtain ⟨k, hk⟩ := Array.mem_iff_getElem?.1 hcall
    exact ((hrun.calls k call hk).genuine arg harg).toSound
  · exact ((hrun.done x hx).1 v hv).toSound
  · exact ((hrun.done x hx).2 name v hv).toSound

/-- A host that makes sounds. -/
def Player.host : Host :=
  ⟨.register .empty (.ofFunctions "audio"
    [Native.loadSound "load" (some 1), Native.soundTitle "title" (some 1)]), ⟨true, false⟩⟩

/-- A program that keeps a sound in a variable of any type. -/
def Player.program : Program :=
  ⟨some ⟨["SOUND"], [⟨"audio", [⟨"load", ["STRING"], some "SOUND"⟩,
      ⟨"title", ["SOUND"], some "STRING"⟩]⟩]⟩,
    [.declare "VAR" ["s"], .assign "s" (.call "load" [.string "a"]), .expr (.call "title" [.var "s"])]⟩

def Player.sound : TypedValue :=
  ⟨.named "SOUND", .native (.made 0 "a")⟩

def Player.run : Outcome Execution × Machine Environment :=
  (Machine.after []).execute 9 program host

def Player.globals : Scope :=
  ⟨"global", 1, .global, none, ⟨[("NUMBER", .type "NUMBER"), ("STRING", .type "STRING"),
    ("VAR", .type "VAR"), ("SOUND", .type "SOUND"),
    ("load", .external ⟨"load", [.string], .named "SOUND"⟩),
    ("title", .external ⟨"title", [.named "SOUND"], .string⟩),
    ("s", .variable ⟨"s", .var, some sound⟩)]⟩⟩

/-- The scopes at its end. -/
def Player.last : Environment :=
  ⟨#[globals], some 0⟩

def Player.machine : Machine Environment :=
  { run.2 with scopes := last }

theorem Player.last_visited : last ∈ (Machine.after []).visited 9 program host :=
  List.mem_of_getElem? (i := 0) (by cbv)

open Player in
theorem execute_type_sound_player :
    last ∈ (Machine.after []).visited 9 program host ∧
      (⟨"s", .var, some sound⟩ : Variable).Sound program.NamesType ∧
      machine.Typed program.NamesType host ∧
      run.2.trace = #[("s", sound)] ∧ sound.Sound program.NamesType ∧
      run.1 = .done ⟨[⟨.string, .string "a"⟩], [("s", some sound)]⟩ ∧
      (⟨.string, .string "a"⟩ : TypedValue).Sound program.NamesType := by
  have hs : last.lookup "s" = some (.variable ⟨"s", .var, some sound⟩) := by cbv
  have htrace : run.2.trace = #[("s", sound)] := by cbv
  have hdone : run.1 = .done ⟨[⟨.string, .string "a"⟩], [("s", some sound)]⟩ := by cbv
  obtain ⟨hstates, htraced, -, hresults⟩ := execute_type_sound [] 9 program host
  obtain ⟨hholds, htyped⟩ := hstates last last_visited
  refine ⟨last_visited, hholds.lookup hs _ rfl, htyped machine rfl rfl, htrace, ?_, hdone, ?_⟩
  · exact htraced ("s", sound) (htrace ▸ Array.mem_singleton.2 rfl)
  · exact (hresults _ hdone).1 _ (by simp)

end Tremolo
