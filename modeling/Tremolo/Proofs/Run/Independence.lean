import Mathlib
import Tremolo.Native.Host
import Tremolo.Proofs.Run.Declarations
import Tremolo.Proofs.Run.Frame
import Tremolo.Proofs.Run.Fuel

/-! # Statements that do not see each other

A statement that is no declaration leaves the scopes of a program as the header made them, because there
is no global variable that it could assign (`Environment.Framed.eq_of_constant`).  What it adds to the
records is seen by native functions alone, and pure ones do not look.  So each statement of a sequence
runs as it does on its own. -/

namespace Tremolo

/-! ## Pure native functions -/

/-- All functions of the module are pure. -/
def NativeModule.Pure (module : NativeModule) : Prop :=
  ∀ name f, module.function? name = some f → f.Pure

/-- All functions of all modules are pure. -/
def Registry.Pure (registry : Registry) : Prop :=
  ∀ name module, registry.resolve? name = some module → module.Pure

theorem NativeFunction.Pure.of_arguments {name description : String} {arity : Option Nat}
    {f : List Value → Except Error Value} :
    (⟨name, description, arity, fun _ => f⟩ : NativeFunction).Pure :=
  fun _ _ _ => rfl

theorem NativeModule.Pure.register {module : NativeModule} (h : module.Pure) {f : NativeFunction}
    (hf : f.Pure) : (module.register f).Pure := by
  intro name g hg
  rw [NativeModule.function?, NativeModule.register, Table.get?_insert] at hg
  split at hg
  · cases hg
    exact hf
  · exact h name g hg

theorem NativeModule.ofFunctions_pure (name : String) {functions : List NativeFunction}
    (h : ∀ f ∈ functions, f.Pure) : (ofFunctions name functions).Pure := by
  have hfold : ∀ module : NativeModule, module.Pure → (functions.foldl register module).Pure := by
    induction functions with
    | nil => exact fun _ hmodule => hmodule
    | cons f rest ih =>
      obtain ⟨hf, hrest⟩ := List.forall_mem_cons.1 h
      exact fun _ hmodule => ih hrest _ (hmodule.register hf)
  exact hfold (empty name) fun _ _ hf => by cases hf

theorem Registry.empty_pure : empty.Pure :=
  fun _ _ h => by cases h

theorem Registry.Pure.register {registry : Registry} (h : registry.Pure) {module : NativeModule}
    (hmodule : module.Pure) : (registry.register module).Pure := by
  intro name found hfound
  rw [Registry.resolve?, Registry.register, Table.get?_insert] at hfound
  split at hfound
  · cases hfound
    exact hmodule
  · exact h name found hfound

/-- The modules that every script can use are pure. -/
theorem Registry.bundled_pure : bundled.Pure := by
  have hmath : Native.math.Pure := NativeModule.ofFunctions_pure "math" (by
    simp only [List.forall_mem_cons]
    exact ⟨.of_arguments, .of_arguments, .of_arguments, .of_arguments, by simp⟩)
  have htext : Native.text.Pure := NativeModule.ofFunctions_pure "text" (by
    simp only [List.forall_mem_cons]
    exact ⟨.of_arguments, .of_arguments, .of_arguments, .of_arguments, by simp⟩)
  exact (empty_pure.register hmath).register htext

/-! ## Scopes without variables -/

theorem EntriesFramed.eq_of_constant {old now : List (String × Symbol)}
    (h : EntriesFramed False old now) (hold : ∀ entry ∈ old, ∀ v, entry.2 ≠ .variable v) :
    now = old := by
  induction h with
  | @added new hnew =>
    by_contra hne
    exact hnew hne
  | kept hxy _ ih =>
    obtain ⟨hfirst, hrest⟩ := List.forall_mem_cons.1 hold
    rw [ih hrest]
    -- An entry can only be replaced if it is a variable.
    cases hxy with
    | same => rfl
    | stored => exact absurd rfl (hfirst _)

namespace Environment

/-- No live scope holds a variable. -/
def Constant (env : Environment) : Prop :=
  env.Holds fun x => ∀ v, x ≠ .variable v

/-- Without variables and without declarations nothing can change. -/
theorem Framed.eq_of_constant {before after : Environment} (h : before.Framed False after)
    (hbefore : before.Constant) : after = before := by
  have hscopes : ∀ i, after.scope? i = before.scope? i := by
    intro i
    cases hi : before.scope? i with
    | none =>
      have hdepth : before.depth ≤ i := Array.getElem?_eq_none_iff.1 hi
      exact Array.getElem?_eq_none_iff.2 (h.depth.trans_le hdepth)
    | some a =>
      obtain ⟨b, hb, hab⟩ := h.scope i a hi
      have hentries := (hab.symbols.mono fun hgrows => hgrows.1).eq_of_constant
        fun entry hentry => hbefore i a entry.1 entry.2 hi hentry
      obtain ⟨name, level, kind, parent, ⟨entries⟩⟩ := b
      obtain ⟨rfl, rfl, rfl, rfl, -⟩ := hab
      rw [hb]
      congr
  obtain ⟨scopes, current⟩ := after
  obtain rfl : current = before.current := h.current
  congr
  exact Array.ext_getElem? hscopes

end Environment

/-! ## One statement -/

/-- A machine in which a statement can change nothing but the records. -/
structure Machine.Ready (m : Machine Environment) : Prop where
  disciplined : m.scopes.Disciplined
  constant : m.scopes.Constant
  pure : ∀ name f, m.natives.get? name = some f → f.Pure

/-- Two machines that differ in their records alone. -/
structure Machine.SameState (m n : Machine Environment) : Prop where
  scopes : n.scopes = m.scopes
  natives : n.natives = m.natives

/-- Nothing follows a computation without a result. -/
theorem EvalM.bind_of_not_done {σ α : Type} {x : EvalM σ α} {k : α → EvalM σ α} {host : Host}
    {m : Machine σ} (h : ∀ a, (x host m).1 ≠ .done a) : (x >>= k) host m = x host m := by
  change EvalM.bind x k host m = x host m
  unfold EvalM.bind
  generalize x host m = r at h
  obtain ⟨outcome, n⟩ := r
  cases outcome with
  | done a => exact absurd rfl (h a)
  | failed | deadScope | outOfFuel => rfl

section Statements

variable {m n : Machine Environment} (hm : m.Ready)

include hm

/-- Whatever is on record, a statement ends alike, adds the same to the record and changes nothing
    else. -/
theorem Machine.Ready.evalBody_alike (host : Host) (fuel : Nat) (hmn : m.SameState n) {s : Stmt}
    (hs : ¬ s.Declares) :
    (evalBody fuel [s] host n).1 = (evalBody fuel [s] host m).1 ∧
      m.SameState (evalBody fuel [s] host n).2 ∧
      AddedAlike m.trace n.trace (evalBody fuel [s] host m).2.trace
        (evalBody fuel [s] host n).2.trace := by
  have hkept : m.scopes.Kept (fun _ => True) m.scopes :=
    .refl hm.disciplined fun _ _ _ _ _ _ _ _ => trivial
  obtain ⟨houtcome, -, -, hnatives, htrace⟩ := (Simulation.disciplined fun _ => True).evalBody_simulates
    (w := m.scopes) (Tally.unnumbered host hm.pure m n) (Tally.unnumbered_admitsEcho host hm.pure m n)
    fuel [s] m n ⟨⟨hmn.scopes.symm, hkept⟩, rfl, hmn.natives, .refl ..⟩
  -- The simulation compares the records.  That the scopes stay as they are is a matter of the frame.
  have hdeclares : ∀ t ∈ [s], t.Declares → False := by simpa using hs
  have hstays := EvalM.evalBody_stays host hm.disciplined.isOccupied fuel hdeclares n
    (hmn.scopes ▸ .refl _ _)
  exact ⟨houtcome.eq.symm, ⟨hstays.kept.eq_of_constant hm.constant, hnatives⟩, htrace⟩

/-! ## Several statements -/

/-- Run on its own from `m`, the statement gives these values and puts these assignments on record. -/
structure Stmt.Gives (host : Host) (fuel : Nat) (m : Machine Environment) (s : Stmt)
    (run : List TypedValue × List (String × TypedValue)) : Prop where
  values : (evalBody fuel [s] host m).1 = .done run.1
  trace : (evalBody fuel [s] host m).2.trace.toList = run.2

variable (htrace : m.trace = #[]) {host : Host} {fuel : Nat} {body : List Stmt}

include htrace

/-- Statements that each complete on their own complete one after the other. -/
theorem Machine.Ready.evalBody_of_gives {runs : List (List TypedValue × List (String × TypedValue))}
    (hbody : ∀ s ∈ body, ¬ s.Declares) (hruns : List.Forall₂ (Stmt.Gives host fuel m) body runs)
    (hmn : m.SameState n) :
    ∃ n', evalBody fuel body host n = (.done (runs.flatMap (·.1)), n') ∧ m.SameState n' ∧
      n'.trace.toList = n.trace.toList ++ runs.flatMap (·.2) := by
  -- The record grows with each statement, so the rest starts from another machine in the same state.
  induction hruns generalizing n with
  | nil => exact ⟨n, rfl, hmn, by simp⟩
  | @cons s run rest runs hfirst _ ih =>
    obtain ⟨hs, hrest⟩ := List.forall_mem_cons.1 hbody
    obtain ⟨houtcome, hsame, added, hadded, hadded'⟩ := hm.evalBody_alike host fuel hmn hs
    obtain ⟨n', hn', hsame', htrace'⟩ := ih hrest hsame
    have hdone : evalBody fuel [s] host n = (.done run.1, (evalBody fuel [s] host n).2) :=
      Prod.ext (houtcome.trans hfirst.values) rfl
    refine ⟨n', ?_, hsame', ?_⟩
    · rw [← List.singleton_append, evalBody_append, EvalM.bind_done hdone, EvalM.bind_done hn']
      rfl
    · have hrun : run.2 = added.toList := by
        rw [← hfirst.trace, hadded, htrace, Array.empty_append]
      rw [htrace', hadded', Array.toList_append, List.flatMap_cons, hrun, List.append_assoc]

/-- The first statement that does not complete on its own decides. -/
theorem Machine.Ready.evalBody_of_not_gives
    {runs : List (List TypedValue × List (String × TypedValue))} {front back : List Stmt} {s : Stmt}
    (hfront : ∀ s ∈ front, ¬ s.Declares) (hruns : List.Forall₂ (Stmt.Gives host fuel m) front runs)
    (hs : ¬ s.Declares) (hends : ∀ values, (evalBody fuel [s] host m).1 ≠ .done values) :
    (evalBody fuel (front ++ s :: back) host m).1 = (evalBody fuel [s] host m).1 := by
  obtain ⟨n, hn, hsame, -⟩ := hm.evalBody_of_gives htrace hfront hruns ⟨rfl, rfl⟩
  obtain ⟨houtcome, -⟩ := hm.evalBody_alike host fuel hsame hs
  rw [← houtcome] at hends ⊢
  have hback : evalBody fuel (s :: back) host n = evalBody fuel [s] host n := by
    rw [← List.singleton_append, evalBody_append]
    exact EvalM.bind_of_not_done hends
  rw [← hback] at hends ⊢
  rw [evalBody_append, EvalM.bind_done hn, EvalM.bind_of_not_done hends]

end Statements

theorem exists_forall₂_iff {α β : Type} {R : α → β → Prop} {as : List α} :
    (∃ bs, List.Forall₂ R as bs) ↔ ∀ a ∈ as, ∃ b, R a b := by
  induction as with
  | nil => simp
  | cons a as ih =>
    rw [List.forall_mem_cons, ← ih]
    constructor
    · rintro ⟨_, _ | ⟨hfirst, hrest⟩⟩
      exact ⟨⟨_, hfirst⟩, _, hrest⟩
    · rintro ⟨⟨b, hfirst⟩, bs, hrest⟩
      exact ⟨b :: bs, .cons hfirst hrest⟩

/-- All statements complete on their own, or there is a first one that does not. -/
theorem Stmt.gives_or_first (host : Host) (fuel : Nat) (m : Machine Environment) (body : List Stmt) :
    (∃ runs, List.Forall₂ (Gives host fuel m) body runs) ∨
    ∃ front s back runs, body = front ++ s :: back ∧ List.Forall₂ (Gives host fuel m) front runs ∧
      ∀ values, (evalBody fuel [s] host m).1 ≠ .done values := by
  induction body with
  | nil => exact .inl ⟨[], .nil⟩
  | cons s rest ih =>
    by_cases hs : ∃ values, (evalBody fuel [s] host m).1 = .done values
    · obtain ⟨values, hvalues⟩ := hs
      rcases ih with ⟨runs, hruns⟩ | ⟨front, t, back, runs, rfl, hruns, ht⟩
      · exact .inl ⟨(values, _) :: runs, .cons ⟨hvalues, rfl⟩ hruns⟩
      · exact .inr ⟨s :: front, t, back, (values, _) :: runs, rfl, .cons ⟨hvalues, rfl⟩ hruns, ht⟩
    · exact .inr ⟨[], s, rest, [], rfl, .nil, not_exists.1 hs⟩

/-- With more fuel a statement gives the same. -/
theorem Stmt.Gives.of_le {host : Host} {fuel fuel' : Nat} {m : Machine Environment} {s : Stmt}
    {run : List TypedValue × List (String × TypedValue)} (h : s.Gives host fuel m run)
    (hfuel : fuel ≤ fuel') : s.Gives host fuel' m run := by
  have heq : evalBody fuel' [s] host m = evalBody fuel [s] host m :=
    EvalM.evalBody_below hfuel [s] host m (by rw [h.values]; nofun)
  exact ⟨heq ▸ h.values, heq ▸ h.trace⟩

/-! ## Programs -/

namespace Machine

/-- The program succeeds with these results, and with these assignments on record. -/
def Succeeds (m : Machine Environment) (p : Program) (host : Host) (results : List TypedValue)
    (trace : List (String × TypedValue)) : Prop :=
  ∃ globals shown, m.Ends p host (.ok ⟨results, globals⟩) trace shown

/-- The program fails with this error. -/
def Fails (m : Machine Environment) (p : Program) (host : Host) (e : Error) : Prop :=
  ∃ trace shown, m.Ends p host (.error e) trace shown

/-! ### Behind the header -/

theorem ready_openGlobal : (fresh Environment.empty.openGlobal).Ready where
  disciplined := Environment.disciplined_openGlobal
  constant := Environment.holds_openGlobal fun _ _ => by simp
  pure _ _ hf := by cases hf

theorem Ready.insert {m : Machine Environment} (h : m.Ready) {x : Symbol}
    {natives : Table NativeFunction} (hnew : m.scopes.lookupHere x.name = none)
    (hvariable : ∀ v, x ≠ .variable v) (hfunction : ∀ f, x ≠ .function f)
    (hpure : ∀ name f, natives.get? name = some f → f.Pure) :
    Ready { m with scopes := ScopeStore.insert m.scopes x, natives := natives } where
  disciplined := h.disciplined.insert hnew fun f hf => absurd hf (hfunction f)
  constant := Environment.Holds.insert h.constant hvariable
  pure := hpure

theorem ready_header {host : Host} (hpure : host.registry.Pure) (header : Header) :
    EvalM.Keeps host (fun m => m.Ready ∧ m.trace = #[]) (EvalM.declareHeader header) := by
  refine EvalM.declareHeader_keeps header ?_ ?_
  · rintro m name - ⟨hm, htrace⟩ hnew
    exact ⟨hm.insert (x := .type name) hnew (by simp) (by simp) hm.pure, htrace⟩
  · rintro m f callable use - signature - module hmodule hprovided - ⟨hm, htrace⟩ hnew
    refine ⟨hm.insert (x := .external f) hnew (by simp) (by simp) fun name g hg => ?_, htrace⟩
    rw [Table.get?_insert] at hg
    split at hg
    · cases hg
      exact hpure use.name module hmodule signature.name callable (provided_ok hprovided).1
    · exact hm.pure name g hg

/-- The header fails whatever follows it, or all that follows starts from the same machine. -/
theorem run_header_cases {m : Machine Environment} (hm : m.scopes = .empty) {host : Host}
    (hpure : host.registry.Pure) (header : Option Header) :
    (∃ e, ∀ fuel body, (m.run fuel ⟨header, body⟩ host).1 = .failed e) ∨
    ∃ n : Machine Environment, n.Ready ∧ n.trace = #[] ∧
      ∀ fuel body, m.run fuel ⟨header, body⟩ host = evalRest fuel body host n := by
  have hstart : fresh (ScopeStore.openGlobal m.scopes) = fresh Environment.empty.openGlobal := by
    rw [hm]
    rfl
  unfold run
  rw [hstart]
  cases header with
  | none => exact .inr ⟨_, ready_openGlobal, rfl, fun _ _ => rfl⟩
  | some header =>
    have hkept := ready_header hpure header _ ⟨ready_openGlobal, rfl⟩
    obtain ⟨n, hdone | ⟨e, hfailed⟩⟩ := EvalM.declareHeader_ends header host .empty
    · rw [hdone] at hkept
      exact .inr ⟨n, hkept.1, hkept.2, fun _ _ => EvalM.bind_done hdone⟩
    · refine .inl ⟨e, fun fuel body => ?_⟩
      have hrest : evalProgram fuel ⟨some header, body⟩ host (fresh Environment.empty.openGlobal) =
          (.failed e, n) := EvalM.bind_failed hfailed
      rw [hrest]

section Rest

variable {fuel : Nat} {body : List Stmt} {host : Host} {start n : Machine Environment}

/-! A program ends as its statements do, and adds nothing to the record. -/

theorem evalRest_done {x : Execution} :
    (evalRest fuel body host n).1 = .done x ↔ (evalBody fuel body host n).1 = .done x.results ∧
      ScopeStore.variablesHere (evalBody fuel body host n).2.scopes = x.globals := by
  simp only [evalRest, bind, EvalM.bind]
  obtain ⟨results, globals⟩ := x
  rcases evalBody fuel body host n with ⟨_ | _ | _ | _, n'⟩ <;>
    simp [EvalM.ask, pure, EvalM.pure]

theorem evalRest_failed {e : Error} :
    (evalRest fuel body host n).1 = .failed e ↔ (evalBody fuel body host n).1 = .failed e := by
  simp only [evalRest, bind, EvalM.bind]
  rcases evalBody fuel body host n with ⟨_ | _ | _ | _, n'⟩ <;>
    simp [EvalM.ask, pure, EvalM.pure]

theorem evalRest_trace : (evalRest fuel body host n).2.trace = (evalBody fuel body host n).2.trace := by
  simp only [evalRest, bind, EvalM.bind]
  rcases evalBody fuel body host n with ⟨_ | _ | _ | _, n'⟩ <;> rfl

variable {header : Option Header}
  (hrun : ∀ fuel body, start.run fuel ⟨header, body⟩ host = evalRest fuel body host n)

include hrun

theorem succeeds_iff {results : List TypedValue} {trace : List (String × TypedValue)} :
    start.Succeeds ⟨header, body⟩ host results trace ↔
      ∃ fuel, (evalBody fuel body host n).1 = .done results ∧
        (evalBody fuel body host n).2.trace.toList = trace := by
  simp only [Succeeds, Ends, execute_eq, hrun, evalRest_trace, Outcome.ofExcept, evalRest_done]
  constructor
  · rintro ⟨globals, shown, fuel, ⟨houtcome, -⟩, htrace, -⟩
    exact ⟨fuel, houtcome, htrace⟩
  · rintro ⟨fuel, houtcome, htrace⟩
    exact ⟨_, _, fuel, ⟨houtcome, rfl⟩, htrace, rfl⟩

theorem fails_iff {e : Error} :
    start.Fails ⟨header, body⟩ host e ↔ ∃ fuel, (evalBody fuel body host n).1 = .failed e := by
  simp only [Fails, Ends, execute_eq, hrun, Outcome.ofExcept, evalRest_failed]
  constructor
  · rintro ⟨trace, shown, fuel, houtcome, -⟩
    exact ⟨fuel, houtcome⟩
  · rintro ⟨fuel, houtcome⟩
    exact ⟨_, _, fuel, houtcome, rfl, rfl⟩

theorem succeeds_singleton_iff {s : Stmt} {run : List TypedValue × List (String × TypedValue)} :
    start.Succeeds ⟨header, [s]⟩ host run.1 run.2 ↔ ∃ fuel, s.Gives host fuel n run := by
  rw [succeeds_iff hrun]
  exact exists_congr fun fuel => ⟨fun h => ⟨h.1, h.2⟩, fun h => ⟨h.values, h.trace⟩⟩

/-- Statements that each succeed with some fuel all succeed with enough of it. -/
theorem gives_of_succeeds {runs : List (List TypedValue × List (String × TypedValue))}
    (h : List.Forall₂ (fun s run => start.Succeeds ⟨header, [s]⟩ host run.1 run.2) body runs) :
    ∃ enough, ∀ fuel, enough ≤ fuel → List.Forall₂ (Stmt.Gives host fuel n) body runs := by
  induction h with
  | nil => exact ⟨0, fun _ _ => .nil⟩
  | cons hfirst _ ih =>
    obtain ⟨first, hgives⟩ := (succeeds_singleton_iff hrun).1 hfirst
    obtain ⟨enough, hrest⟩ := ih
    refine ⟨max first enough, fun fuel hfuel => .cons (hgives.of_le ?_) (hrest fuel ?_)⟩
    · exact (Nat.le_max_left _ _).trans hfuel
    · exact (Nat.le_max_right _ _).trans hfuel

variable (hn : n.Ready) (htrace : n.trace = #[]) (hbody : ∀ s ∈ body, ¬ s.Declares)

include hn htrace hbody

theorem succeeds_iff_each {results : List TypedValue} {trace : List (String × TypedValue)} :
    start.Succeeds ⟨header, body⟩ host results trace ↔
      ∃ runs : List (List TypedValue × List (String × TypedValue)),
        List.Forall₂ (fun s run => start.Succeeds ⟨header, [s]⟩ host run.1 run.2) body runs ∧
        results = runs.flatMap (·.1) ∧ trace = runs.flatMap (·.2) := by
  constructor
  · intro h
    obtain ⟨fuel, houtcome, hrecord⟩ := (succeeds_iff hrun).1 h
    rcases Stmt.gives_or_first host fuel n body with
      ⟨runs, hruns⟩ | ⟨front, s, back, runs, rfl, hruns, hs⟩
    · obtain ⟨n', hdone, -, hadded⟩ := hn.evalBody_of_gives htrace hbody hruns ⟨rfl, rfl⟩
      rw [hdone] at houtcome hrecord
      cases houtcome
      refine ⟨runs, hruns.imp fun s run hgives => ?_, rfl, ?_⟩
      · exact (succeeds_singleton_iff hrun).2 ⟨fuel, hgives⟩
      · rw [← hrecord, hadded, htrace, List.nil_append]
    · obtain ⟨hfront, hback⟩ := List.forall_mem_append.1 hbody
      rw [hn.evalBody_of_not_gives htrace hfront hruns (List.forall_mem_cons.1 hback).1 hs] at houtcome
      exact absurd houtcome (hs results)
  · rintro ⟨runs, hruns, rfl, rfl⟩
    obtain ⟨fuel, hgives⟩ := gives_of_succeeds hrun hruns
    obtain ⟨n', hdone, -, hadded⟩ :=
      hn.evalBody_of_gives htrace hbody (hgives fuel (Nat.le_refl _)) ⟨rfl, rfl⟩
    refine (succeeds_iff hrun).2 ⟨fuel, ?_⟩
    rw [hdone]
    exact ⟨rfl, by rw [hadded, htrace, List.nil_append]⟩

theorem fails_iff_first {e : Error} :
    start.Fails ⟨header, body⟩ host e ↔
      ∃ front s back, body = front ++ s :: back ∧
        (∀ t ∈ front, ∃ results trace, start.Succeeds ⟨header, [t]⟩ host results trace) ∧
        start.Fails ⟨header, [s]⟩ host e := by
  constructor
  · intro h
    obtain ⟨fuel, houtcome⟩ := (fails_iff hrun).1 h
    rcases Stmt.gives_or_first host fuel n body with
      ⟨runs, hruns⟩ | ⟨front, s, back, runs, rfl, hruns, hs⟩
    · obtain ⟨n', hdone, -⟩ := hn.evalBody_of_gives htrace hbody hruns ⟨rfl, rfl⟩
      rw [hdone] at houtcome
      cases houtcome
    · obtain ⟨hfront, hback⟩ := List.forall_mem_append.1 hbody
      rw [hn.evalBody_of_not_gives htrace hfront hruns (List.forall_mem_cons.1 hback).1 hs] at houtcome
      refine ⟨front, s, back, rfl, fun t ht => ?_, (fails_iff hrun).2 ⟨fuel, houtcome⟩⟩
      obtain ⟨run, hgives⟩ := exists_forall₂_iff.1 ⟨runs, hruns⟩ t ht
      exact ⟨run.1, run.2, (succeeds_singleton_iff hrun).2 ⟨fuel, hgives⟩⟩
  · rintro ⟨front, s, back, rfl, hfront, hfails⟩
    obtain ⟨hdeclares, hback⟩ := List.forall_mem_append.1 hbody
    have hruns : ∃ runs, List.Forall₂ (fun t (run : List TypedValue × List (String × TypedValue)) =>
        start.Succeeds ⟨header, [t]⟩ host run.1 run.2) front runs :=
      exists_forall₂_iff.2 fun t ht => Prod.exists.2 (hfront t ht)
    obtain ⟨runs, hruns⟩ := hruns
    obtain ⟨enough, hgives⟩ := gives_of_succeeds hrun hruns
    obtain ⟨last, hlast⟩ := (fails_iff hrun).1 hfails
    -- With enough fuel for all of them the last one still fails.
    have heq : evalBody (max enough last) [s] host n = evalBody last [s] host n :=
      EvalM.evalBody_below (Nat.le_max_right _ _) [s] host n (by rw [hlast]; nofun)
    refine (fails_iff hrun).2 ⟨max enough last, ?_⟩
    rw [hn.evalBody_of_not_gives htrace hdeclares (hgives _ (Nat.le_max_left _ _))
      (List.forall_mem_cons.1 hback).1 (by rw [heq, hlast]; nofun), heq, hlast]

end Rest

section Refused

variable {start : Machine Environment} {header : Option Header} {host : Host} {e : Error}
  (hfailed : ∀ fuel body, (start.run fuel ⟨header, body⟩ host).1 = .failed e)

include hfailed

theorem not_succeeds_of_refused {body : List Stmt} {results : List TypedValue}
    {trace : List (String × TypedValue)} : ¬ start.Succeeds ⟨header, body⟩ host results trace := by
  rintro ⟨globals, shown, fuel, houtcome, -⟩
  rw [execute_eq, hfailed] at houtcome
  cases houtcome

theorem fails_iff_of_refused {body : List Stmt} {e' : Error} :
    start.Fails ⟨header, body⟩ host e' ↔ e' = e := by
  constructor
  · rintro ⟨trace, shown, fuel, houtcome, -⟩
    rw [execute_eq, hfailed] at houtcome
    cases houtcome
    rfl
  · rintro rfl
    exact ⟨_, _, 0, hfailed 0 body, rfl, rfl⟩

end Refused

end Machine

/-- Top-level statements that declare nothing run one after the other as each of them does on its own, if
    native functions are pure.  They succeed exactly if each succeeds, and then their results and the
    assignments on record follow one another; they fail exactly with the error of the first that
    fails. -/
theorem statements_independent (earlier : List (Nat × Program × Host)) (header : Option Header)
    (body : List Stmt) (host : Host) (hbody : body ≠ []) (hdeclares : ∀ s ∈ body, ¬ s.Declares)
    (hpure : host.registry.Pure) :
    let start : Machine Environment := .after earlier
    (∀ results trace, start.Succeeds ⟨header, body⟩ host results trace ↔
      ∃ runs : List (List TypedValue × List (String × TypedValue)),
        List.Forall₂ (fun s run => start.Succeeds ⟨header, [s]⟩ host run.1 run.2) body runs ∧
        results = runs.flatMap (·.1) ∧ trace = runs.flatMap (·.2)) ∧
    ∀ e, start.Fails ⟨header, body⟩ host e ↔
      ∃ front s back, body = front ++ s :: back ∧
        (∀ t ∈ front, ∃ results trace, start.Succeeds ⟨header, [t]⟩ host results trace) ∧
        start.Fails ⟨header, [s]⟩ host e := by
  intro start
  rcases Machine.run_header_cases (Machine.after_scopes earlier) hpure header with
    ⟨e, hfailed⟩ | ⟨n, hn, htrace, hrun⟩
  · -- Then nothing succeeds, and the first statement fails as all of them do.
    have hnone : ∀ {body results trace}, ¬ start.Succeeds ⟨header, body⟩ host results trace :=
      Machine.not_succeeds_of_refused hfailed
    have hfails : ∀ {body e'}, start.Fails ⟨header, body⟩ host e' ↔ e' = e :=
      Machine.fails_iff_of_refused hfailed
    obtain ⟨s, rest, rfl⟩ := List.exists_cons_of_ne_nil hbody
    refine ⟨fun results trace => ⟨fun h => absurd h hnone, ?_⟩, fun e' => ⟨fun h => ?_, ?_⟩⟩
    · rintro ⟨runs, hruns, -⟩
      cases hruns with
      | cons hfirst _ => exact absurd hfirst hnone
    · exact ⟨[], s, rest, rfl, by simp, hfails.2 (hfails.1 h)⟩
    · rintro ⟨front, s', back, -, -, h⟩
      exact hfails.2 (hfails.1 h)
  · exact ⟨fun _ _ => Machine.succeeds_iff_each hrun hn htrace hdeclares,
      fun _ => Machine.fails_iff_first hrun hn htrace hdeclares⟩

namespace Measuring

def host : Host :=
  ⟨.bundled, ⟨true, false⟩⟩

def header : Option Header :=
  some ⟨[], [⟨"text", [⟨"length", ["STRING"], some "NUMBER"⟩]⟩]⟩

/-- Measures a text and keeps the result in a variable of its own. -/
def keeping : Stmt :=
  .block [.declare "VAR" ["x"], .assign "x" (.call "length" [.string "ab"])]

def telling : Stmt :=
  .expr (.call "length" [.string "abc"])

/-- Asks for the variable, which is gone. -/
def asking : Stmt :=
  .expr (.var "x")

theorem keeping_succeeds : (Machine.after []).Succeeds ⟨header, [keeping]⟩ host []
    [("x", ⟨.number, .int 2⟩)] :=
  ⟨[], [], 9, by cbv, by cbv, by cbv⟩

theorem telling_succeeds : (Machine.after []).Succeeds ⟨header, [telling]⟩ host
    [⟨.number, .int 3⟩] [] :=
  ⟨[], [], 9, by cbv, by cbv, by cbv⟩

theorem asking_fails : (Machine.after []).Fails ⟨header, [asking]⟩ host (.undefined "x") :=
  ⟨[], [], 9, by cbv, by cbv, by cbv⟩

end Measuring

open Measuring in
theorem statements_independent_measuring :
    (Machine.after []).Succeeds ⟨header, [keeping, telling]⟩ host [⟨.number, .int 3⟩]
      [("x", ⟨.number, .int 2⟩)] ∧
    (Machine.after []).Fails ⟨header, [keeping, telling, asking]⟩ host (.undefined "x") := by
  have hpure : host.registry.Pure := Registry.bundled_pure
  constructor
  · have hdeclares : ∀ s ∈ [keeping, telling], ¬ s.Declares := by
      simp [keeping, telling, Stmt.Declares]
    obtain ⟨hsucceeds, -⟩ := statements_independent [] header _ host (by simp) hdeclares hpure
    exact (hsucceeds _ _).2 ⟨[([], _), (_, [])],
      .cons keeping_succeeds (.cons telling_succeeds .nil), rfl, rfl⟩
  · have hdeclares : ∀ s ∈ [keeping, telling, asking], ¬ s.Declares := by
      simp [keeping, telling, asking, Stmt.Declares]
    obtain ⟨-, hfails⟩ := statements_independent [] header _ host (by simp) hdeclares hpure
    refine (hfails _).2 ⟨[keeping, telling], asking, [], rfl, ?_, asking_fails⟩
    simp only [List.forall_mem_cons]
    exact ⟨⟨_, _, keeping_succeeds⟩, ⟨_, _, telling_succeeds⟩, by simp⟩

end Tremolo
