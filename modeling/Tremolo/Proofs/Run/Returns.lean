import Mathlib
import Tremolo.Native.Host
import Tremolo.Proofs.Run.Sited

/-! # Where `return` is allowed

A `return` is allowed if the current scope lies inside a call.  The scopes decide this anew each time,
but the answer is written in the program (`return_check_is_static`). -/

namespace Tremolo

namespace Machine

open EvalM

variable {m : Machine Environment} (hm : m.scopes = .empty) {host : Host}
  (hregistry : host.registry.FailsAsNative) (fuel : Nat) {p q : Program}

include hm in
theorem fresh_sited (p : Program) : (fresh ⟨ScopeStore.openGlobal m.scopes, []⟩ :
    Machine (Journal Environment)).Sited p Environment.empty.openGlobal := by
  refine ⟨opened_kept hm, ?_, ?_, ?_⟩
  · change (ScopeStore.openGlobal m.scopes).Holds _
    rw [hm]
    exact Environment.holds_openGlobal fun _ _ => by simp [Symbol.BodyIn]
  · intro name f hf
    cases hf
  · intro v hv
    cases hv

include hm in
theorem journal_execute (p : Program) (host : Host) :
    (m.journal fuel p host).1 = (m.execute fuel p host).1 ∧
      (m.journal fuel p host).2.SameRecords (m.execute fuel p host).2 := by
  obtain ⟨houtcome, -, hrecords⟩ := (Simulation.disciplined _).journal_agree (n := m)
    Simulation.disciplined_admitsHeader ⟨rfl, opened_kept hm⟩ fuel p host
  exact ⟨houtcome.eq, hrecords.natives, hrecords.trace, hrecords.shown, hrecords.calls⟩

theorem top_reports {s : Stmt} (hs : s ∈ p.body) :
    Reports host p Environment.empty.openGlobal (Flow.ReturnsOnly false) (journalStmt fuel false s) :=
  (journal_reports fuel).2 false _ s Environment.inFunction_openGlobal (Program.mem_places hs)

include hregistry in
/-- A program whose statements are among the top-level ones of `p`. -/
theorem program_reports (hq : ∀ s ∈ q.body, s ∈ p.body) :
    Reports host p Environment.empty.openGlobal (fun _ => True)
      (evalProgramWith (journalStmt fuel false) q) :=
  evalProgramWith_reports hregistry fun s hs => top_reports fuel (hq s hs)

include hm hregistry in
/-- No top-level statement returns, wherever it is reached. -/
theorem top_ne_returned {front back : List Stmt} {s : Stmt} (hp : p.body = front ++ s :: back)
    {x : Execution} {n : Machine Environment} (hrun : m.run fuel ⟨p.header, front⟩ host = (.done x, n))
    (value : TypedValue) : (evalStmt fuel s host n).1 ≠ .done (.returned value) := by
  -- The statement is taken together with those before it, with a journal and without.
  have hreports : Reports host p Environment.empty.openGlobal (Flow.ReturnsOnly false)
      (evalProgramWith (journalStmt fuel false) ⟨p.header, front⟩ >>= fun _ =>
        journalStmt fuel false s) := by
    refine (program_reports hregistry fuel fun t ht => ?_).bind fun _ _ => top_reports fuel ?_
    · rw [hp]
      exact List.mem_append_left _ ht
    · simp [hp]
  have hupheld := hreports _ (fresh_sited hm p)
  have houtcome := ((Simulation.disciplined _).journalThen_agree (n := m)
    Simulation.disciplined_admitsHeader ⟨rfl, opened_kept hm⟩ fuel ⟨p.header, front⟩ host s).outcome.eq
  unfold Machine.run at hrun
  rw [bind_done hrun] at houtcome
  intro hreturned
  -- Outside of functions a result that returns is ruled out.
  have hinside : Flow.ReturnsOnly false (.returned value) :=
    hupheld.result _ (houtcome.trans hreturned)
  cases hinside

end Machine

/-- Whenever a run evaluates a statement, the current scope lies inside a call exactly if the statement
    stands in the body of a function.  So a run that fails because of a stray `return` has just visited
    a `return` that stands in no function, a program without such a `return` does not fail in this way,
    and no top-level statement returns. -/
theorem return_check_is_static (earlier : List (Nat × Program × Host)) (fuel : Nat) (p : Program)
    (host : Host) (hregistry : host.registry.FailsAsNative) :
    let start : Machine Environment := .after earlier
    let run := start.execute fuel p host
    let journal := start.journal fuel p host
    (journal.1 = run.1 ∧ journal.2.SameRecords run.2) ∧
    (∀ visit ∈ journal.2.scopes.visits,
      (visit.inside, visit.stmt) ∈ p.places ∧ visit.scopes.inFunction = visit.inside) ∧
    (run.1 = .failed .returnOutsideFunction → ∃ visit rest value,
      journal.2.scopes.visits = visit :: rest ∧ visit.inside = false ∧ visit.stmt = .ret value) ∧
    ((∀ value, (false, .ret value) ∉ p.places) → run.1 ≠ .failed .returnOutsideFunction) ∧
    ∀ front s back x n, p.body = front ++ s :: back →
      start.run fuel ⟨p.header, front⟩ host = (.done x, n) →
      ∀ value, (evalStmt fuel s host n).1 ≠ .done (.returned value) := by
  intro start run journal
  have hstart : start.scopes = .empty := Machine.after_scopes earlier
  have hsame := Machine.journal_execute hstart fuel p host
  have hupheld : Upheld (Machine.Sited p Environment.empty.openGlobal) Blamed (fun _ => True) journal :=
    Machine.program_reports hregistry fuel (fun _ hs => hs) _ (Machine.fresh_sited hstart p)
  obtain ⟨hsited, -, hfailure⟩ := hupheld
  have hblamed : run.1 = .failed .returnOutsideFunction → ∃ visit rest value,
      journal.2.scopes.visits = visit :: rest ∧ visit.inside = false ∧ visit.stmt = .ret value :=
    fun h => hfailure _ (hsame.1.trans h) rfl
  refine ⟨hsame, fun visit hvisit => ?_, hblamed, fun hreturns hfailed => ?_, ?_⟩
  · exact ⟨(hsited.visits visit hvisit).stands, (hsited.visits visit hvisit).known⟩
  · obtain ⟨visit, rest, value, hvisits, hinside, hstmt⟩ := hblamed hfailed
    have hmem : visit ∈ journal.2.scopes.visits := by simp [hvisits]
    have hstands := (hsited.visits visit hmem).stands
    rw [hinside, hstmt] at hstands
    exact hreturns value hstands
  · intro front s back x n hp hrun value
    exact Machine.top_ne_returned hstart hregistry fuel hp hrun value

/-- A module with one function, which fails if it gets no argument. -/
def Stray.host : Host :=
  ⟨.register .empty (.ofFunctions "copy" [Native.argument "same" (some 1) 0]), ⟨true, false⟩⟩

def Stray.guarded : Stmt :=
  .ret (some (.call "same" [.var "x"]))

/-- A program with a `return` in a block in a function, and another one in a block outside. -/
def Stray.program : Program :=
  ⟨some ⟨[], [⟨"copy", [⟨"same", ["NUMBER"], some "NUMBER"⟩]⟩]⟩,
    [.define "f" ["x"] [.when (.bool true) [guarded]], .expr (.call "f" [.int 1]),
      .block [.ret none]]⟩

def Stray.visits : List (Visit Environment) :=
  ((Machine.after []).journal 9 program host).2.scopes.visits

theorem Stray.failsAsNative : host.registry.FailsAsNative := by
  intro name module hmodule function f hf serial args e he
  simp only [host, Registry.resolve?, Registry.register, Table.get?_insert] at hmodule
  split at hmodule
  · cases hmodule
    simp only [NativeModule.function?, NativeModule.ofFunctions, List.foldl, NativeModule.register,
      Table.get?_insert] at hf
    split at hf
    · cases hf
      simp only [Native.argument, NativeFunction.plain] at he
      split at he
      · cases he
      · cases he
        exact ⟨_, _, rfl⟩
    · cases hf
  · cases hmodule

open Stray in
theorem return_check_is_static_stray :
    ((Machine.after [] : Machine Environment).execute 9 program host).1 =
      .failed .returnOutsideFunction ∧
    (∃ visit ∈ visits, visit.stmt = guarded ∧ visit.scopes.inFunction = true) ∧
    ∃ visit rest value, visits = visit :: rest ∧ visit.stmt = .ret value ∧
      visit.scopes.inFunction = false := by
  have hfailed : ((Machine.after [] : Machine Environment).execute 9 program host).1 =
      .failed .returnOutsideFunction := by cbv
  have hguarded : (visits.map fun visit => (visit.inside, visit.stmt))[2]? = some (true, guarded) := by
    cbv
  obtain ⟨-, hvisits, hblamed, -⟩ := return_check_is_static [] 9 program host failsAsNative
  refine ⟨hfailed, ?_, ?_⟩
  · rw [List.getElem?_map, Option.map_eq_some_iff] at hguarded
    obtain ⟨visit, hvisit, hplace⟩ := hguarded
    obtain ⟨hinside, hstmt⟩ := Prod.mk.injEq .. ▸ hplace
    have hmem := List.mem_of_getElem? hvisit
    exact ⟨visit, hmem, hstmt, (hvisits visit hmem).2.trans hinside⟩
  · obtain ⟨visit, rest, value, hlatest, hinside, hstmt⟩ := hblamed hfailed
    have hmem : visit ∈ visits := by
      unfold visits
      rw [hlatest]
      exact List.mem_cons_self
    exact ⟨visit, rest, value, hlatest, hstmt, (hvisits visit hmem).2.trans hinside⟩

end Tremolo
