import Mathlib
import Tremolo.Proofs.Run.Discipline
import Tremolo.Proofs.Run.Upkeep
import Tremolo.Proofs.Scope.Frame

/-! # Evaluation keeps to its frame

Whatever blocks, loops and calls do in between, and wherever they fail, the scopes that were there
before are still there with the entries they had: a statement adds names to the current scope only if
it is itself a declaration, and an expression adds none.

The invariant is `Environment.Framed` from the state in which the evaluation began.  A scope that is
opened on the way is a new beginning, from which everything may grow. -/

namespace Tremolo

/-- The statement adds names to the scope that it is executed in. -/
def Stmt.Declares : Stmt → Prop
  | .declare _ _ | .define _ _ _ => True
  | _ => False

open Environment in
/-- A scope that is opened is a new beginning, and closing it leads back into the frame. -/
theorem Environment.Framed.opens {before : Environment} {grows : Prop} {m : Machine Environment}
    (hbefore : before.Occupied) (hm : before.Framed grows m.scopes)
    {inside : Environment × Prop → Prop} (hinside : ∀ inner, inside (inner, True)) (name : String)
    (kind : ScopeKind) (parent : ScopeId) :
    m.Opens (fun w n => w.1.Occupied ∧ w.1.Framed w.2 n.scopes) inside
      (fun n => before.Occupied ∧ before.Framed grows n.scopes) name kind parent := by
  intro scopes hopen
  obtain ⟨outer, -, hpush⟩ := Option.map_eq_some_iff.1 hopen
  subst hpush
  refine ⟨(_, True), hinside _, ⟨occupied_push _ _, .refl True _⟩, fun n hn => ⟨hbefore, ?_⟩⟩
  exact hm.trans (hn.2.close (hm.occupied hbefore))

open Environment in
/-- Evaluation stays in the frame of the state in which it began. -/
def Upkeep.framed (host : Host) : Upkeep Environment host where
  World := Environment × Prop
  Inv w m := w.1.Occupied ∧ w.1.Framed w.2 m.scopes
  Binds w _ := w.2
  May w s := s.Declares → w.2
  Inner _ := True
  inner _ _ _ := trivial
  declares hgrows _ _ _ := hgrows trivial
  bind hm hgrows hnew := ⟨hm.1, hm.2.trans ((Framed.insert hnew).mono fun _ => hgrows)⟩
  define hm hgrows hnew _ := ⟨hm.1, hm.2.trans ((Framed.insert hnew).mono fun _ => hgrows trivial)⟩
  assign hm hstored := ⟨hm.1, by
    rw [EvalM.record_scopes]
    exact hm.2.trans (Framed.assign hstored)⟩
  invoke _ _ _ hm := hm
  block hm _ := hm.2.opens hm.1 (fun _ _ _ _ => trivial) _ _ _
  call {w _ _ _} hm _ :=
    ⟨w, hm, fun _ hn => ⟨hn, hn.2.opens hn.1 (fun _ => ⟨fun _ _ _ => trivial, fun _ _ => trivial⟩) _ _ _⟩⟩

namespace EvalM

/-- The computation stays in the frame of `before`, however it ends. -/
def Stays {α : Type} (host : Host) (before : Environment) (grows : Prop)
    (x : EvalM Environment α) : Prop :=
  Upholds host (fun m => before.Framed grows m.scopes) (fun _ _ => True) (fun _ => True) x

/-- Expressions add no names, and statements only if they are declarations. -/
theorem eval_stays (host : Host) (fuel : Nat) :
    (∀ before grows e, before.Occupied → Stays host before grows (evalExpr fuel e)) ∧
    ∀ before grows s, before.Occupied → (s.Declares → grows) →
      Stays host before grows (evalStmt fuel s) := by
  obtain ⟨hexpr, hstmt⟩ := (Upkeep.framed host).eval_keeps fuel
  refine ⟨fun before grows e hbefore m hm => ?_, fun before grows s hbefore hs m hm => ?_⟩
  · exact .of_kept (hexpr (before, grows) e m ⟨hbefore, hm⟩).kept.2
  · exact .of_kept (hstmt (before, grows) s hs m ⟨hbefore, hm⟩).kept.2

theorem evalBody_stays (host : Host) {before : Environment} (hbefore : before.Occupied) (fuel : Nat)
    {body : List Stmt} {grows : Prop} (hbody : ∀ s ∈ body, s.Declares → grows) :
    Stays host before grows (evalBody fuel body) := by
  obtain ⟨-, hstmt⟩ := (Upkeep.framed host).eval_keeps fuel
  have hecho : ∀ value m, (Upkeep.framed host).Inv (before, grows) m →
      (Upkeep.framed host).Inv (before, grows) (echo value host m).2 := by
    intro value m hm
    refine ⟨hm.1, ?_⟩
    rw [echo_scopes]
    exact hm.2
  have hkeeps := Upkeep.evalBody_keeps hecho fuel fun s hs => hstmt (before, grows) s (hbody s hs)
  exact fun m hm => .of_kept (hkeeps m ⟨hbefore, hm⟩).kept.2

end EvalM

/-- In every state that a run passes through, a statement changes nothing outside its frame, however it
    ends: it adds names to the current scope only if it is a declaration.  An expression adds none. -/
theorem evaluation_framed (earlier : List (Nat × Program × Host)) (fuel : Nat) (p : Program)
    (host : Host) :
    let start : Machine Environment := .after earlier
    ∀ env ∈ start.visited fuel p host, ∀ m : Machine Environment, m.scopes = env → ∀ rest,
      (∀ s : Stmt, env.Framed s.Declares (evalStmt rest s host m).2.scopes) ∧
      ∀ e : Expr, env.Framed False (evalExpr rest e host m).2.scopes := by
  rintro start env henv m rfl rest
  have hvisited := Machine.visited_recorded (Machine.after_scopes earlier) fuel p host henv
  have hoccupied := hvisited.1.isOccupied
  obtain ⟨hexpr, hstmt⟩ := EvalM.eval_stays host rest
  refine ⟨fun s => ?_, fun e => ?_⟩
  · exact (hstmt m.scopes s.Declares s hoccupied id m (.refl _ _)).kept
  · exact (hexpr m.scopes False e hoccupied m (.refl _ _)).kept

open Failing in
theorem evaluation_framed_failing :
    deepest ∈ (Machine.after []).visited 9 program ⟨.empty, ⟨true, false⟩⟩ ∧
      deepest.Framed (Stmt.Declares (.declare "VAR" ["x", "x"]))
        (evalStmt 9 (.declare "VAR" ["x", "x"]) ⟨.empty, ⟨true, false⟩⟩ (.fresh deepest)).2.scopes ∧
      deepest.Framed False
        (evalExpr 9 (.call "f" []) ⟨.empty, ⟨true, false⟩⟩ (.fresh deepest)).2.scopes := by
  have hvisited : deepest ∈ (Machine.after []).visited 9 program ⟨.empty, ⟨true, false⟩⟩ :=
    List.mem_of_getElem? (i := 2) (by cbv)
  obtain ⟨hstmt, hexpr⟩ := evaluation_framed [] 9 program ⟨.empty, ⟨true, false⟩⟩ deepest hvisited
    (.fresh deepest) rfl 9
  exact ⟨hvisited, hstmt _, hexpr _⟩

end Tremolo
