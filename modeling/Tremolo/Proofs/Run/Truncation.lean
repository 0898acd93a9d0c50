import Tremolo.Proofs.Run.Reuse
import Tremolo.Proofs.Run.Sequence
import Tremolo.Proofs.Scope.Relabeling

/-! # Nothing after a `return` has an effect

`Program.prune` deletes, in every list of statements of a program, what follows a `return`.  The two
programs run alike although the functions in their scopes differ: the scopes of the one are those of the
other with all function bodies pruned (`Translation.rewriting`). -/

namespace Tremolo

/-! ## Pruning -/

mutual

/-- Deletes what follows a `return` in the lists of statements inside a statement. -/
def Stmt.prune : Stmt → Stmt
  | .block body => .block (pruneBody body)
  | .define name params body => .define name params (pruneBody body)
  | .when condition body => .when condition (pruneBody body)
  | .loop condition body => .loop condition (pruneBody body)
  | s => s

/-- Deletes what follows a `return` in a list of statements, and in those inside it. -/
def pruneBody : List Stmt → List Stmt
  | [] => []
  | .ret value :: _ => [.ret value]
  | s :: rest => s.prune :: pruneBody rest

end

/-- Deletes everything in a program that follows a `return` in the same list of statements. -/
def Program.prune (p : Program) : Program :=
  { p with body := pruneBody p.body }

theorem pruneBody_cons {s : Stmt} (hs : ∀ value, s ≠ .ret value) (rest : List Stmt) :
    pruneBody (s :: rest) = s.prune :: pruneBody rest := by
  cases s with
  | ret value => exact absurd rfl (hs value)
  | _ => rfl

example : pruneBody [.when (.bool true) [.ret none, .skip], .ret none, .expr (.int 1)] =
    [.when (.bool true) [.ret none], .ret none] :=
  rfl

theorem Stmt.alike_prune (s : Stmt) : s.Alike (fun body body' => body' = pruneBody body) s.prune := by
  cases s with
  | skip => exact .skip
  | block => exact .block rfl
  | declare => exact .declare
  | define => exact .define rfl
  | assign => exact .assign
  | when => exact .when rfl
  | loop => exact .loop rfl
  | ret => exact .ret
  | expr => exact .expr

/-! ## Scopes of functions with other bodies -/

/-- The same names, for functions with other bodies. -/
def Relabeling.rewriting (g : List Stmt → List Stmt) : Relabeling :=
  ⟨id, Function.injective_id, fun _ name => name, id, fun f => { f with body := g f.body }, id⟩

section Rewriting

variable (g : List Stmt → List Stmt)

theorem Symbol.name_rewriting (x : Symbol) :
    (x.relabel (.rewriting g)).name = (Relabeling.rewriting g).name x.name := by
  cases x <;> rfl

theorem Symbol.rewriting_plain {x : Symbol} (h : ∀ f, x ≠ .function f) :
    x.relabel (.rewriting g) = x := by
  cases x with
  | function f => exact absurd rfl (h f)
  | _ => rfl

namespace Environment

theorem insert_rewriting (env : Environment) (x : Symbol) :
    (env.relabel (.rewriting g)).insert (x.relabel (.rewriting g)) =
      (env.insert x).relabel (.rewriting g) :=
  env.insert_relabel (x.name_rewriting g)

theorem assign_rewriting (env : Environment) (name : String) (value : TypedValue) :
    (env.relabel (.rewriting g)).assign name value =
      (env.assign name value).map (Environment.relabel (.rewriting g)) := by
  have haccess : (env.relabel (.rewriting g)).access? name =
      (env.access? name).map (Symbol.relabel (.rewriting g)) := env.access?_relabel name
  simp only [assign, haccess]
  rcases env.access? name with _ | ⟨v | _ | _ | _⟩
  · rfl
  · have hv : (Relabeling.rewriting g).ofVariable v = v := rfl
    simp only [Option.map_some, Symbol.relabel, hv]
    cases v.assign value with
    | error => rfl
    | ok v => exact congrArg Assignment.stored (env.update_relabel name (.variable v))
  · rfl
  · rfl
  · rfl

variable {E : ExternalFunction → Prop} {before now : Environment}

theorem Kept.enters_rewriting (h : before.Kept E now) {name : String} {kind : ScopeKind} {i : ScopeId}
    {outer : Scope} (houter : now.scope? i = some outer)
    (hcall : kind = .function → ∃ f, outer.get? name = some (.function f)) :
    Enters (fun (w : Environment) s t => t = s.relabel (.rewriting g) ∧ w.Kept E s)
      (fun s t => t = s.relabel (.rewriting g) ∧ before.Kept E s) now
      (now.relabel (.rewriting g)) name kind i i := by
  have hopen : now.openScope? name kind i = _ := openScope?_eq houter name kind
  have hopen' : (now.relabel (.rewriting g)).openScope? name kind i = _ :=
    (openScope?_relabel now name kind i).trans (by rw [hopen])
  refine ⟨_, _, _, hopen, hopen', ⟨rfl, h.push houter hcall⟩, ?_⟩
  rintro s _ ⟨rfl, hs⟩
  exact ⟨closeScope_relabel s now.current, h.close hs⟩

end Environment

end Rewriting

open Environment in
/-- The stack of scopes with the bodies of all functions rewritten. -/
def Translation.rewriting (g : List Stmt → List Stmt) :
    Translation (fun body body' => body' = g body) Environment Environment where
  World := Environment
  Rel w s t := t = s.relabel (.rewriting g) ∧ w.Kept (fun _ => True) s
  block := by
    rintro w s _ ⟨rfl, h⟩
    obtain ⟨outer, houter⟩ := h.disciplined.scope?_current
    exact ⟨_, _, h.disciplined.top, h.disciplined.top, h.enters_rewriting g houter (by simp)⟩
  lookupHere := by
    rintro w s _ ⟨rfl, -⟩ name
    have hhere : (s.relabel (.rewriting g)).lookupHere name = _ := s.lookupHere_relabel name
    change _ = ((s.relabel (.rewriting g)).lookupHere name).isSome
    rw [hhere, Option.isSome_map]
    rfl
  lookup := by
    rintro w s _ ⟨rfl, h⟩ name
    have hlookup : (s.relabel (.rewriting g)).lookup name = _ := s.lookup_relabel name
    change SameBinding _ (s.lookup name) ((s.relabel (.rewriting g)).lookup name)
    rw [hlookup]
    cases hx : s.lookup name with
    | none => exact .unbound
    | some x =>
      rcases x with _ | _ | f | _
      · exact .plain (by simp)
      · exact .plain (by simp)
      · -- Between here and the call the stack has changed, but the scope of the declaration is still live.
        refine .function ⟨⟨rfl, rfl, rfl⟩, s, ⟨rfl, .refl h.disciplined h.externals⟩, ?_⟩
        rintro s' _ ⟨rfl, h'⟩
        obtain ⟨hback, outer, houter, hcall⟩ := h.function hx h'
        exact ⟨⟨rfl, hback⟩, h'.enters_rewriting g houter fun _ => hcall⟩
      · exact .plain (by simp)
  bindVariable := by
    rintro w s _ ⟨rfl, h⟩ v hnew
    exact ⟨insert_rewriting g s (.variable v), h.insert hnew (by simp) (by simp)⟩
  bindFunction := by
    rintro w s _ ⟨rfl, h⟩ name params body _ i j rfl hnew hi hj
    obtain rfl := Option.some.inj (hi.symm.trans hj)
    exact ⟨insert_rewriting g s (.function ⟨name, params, body, i⟩),
      h.insert hnew (by rintro f ⟨⟩; exact hi) (by simp)⟩
  assign := by
    rintro w s _ ⟨rfl, h⟩ name value
    change Assignment.Alike _ (s.assign name value) ((s.relabel (.rewriting g)).assign name value)
    rw [assign_rewriting]
    exact ((Assignment.Alike.refl (s.assign name value)).imp
      fun s' t' hs _ heq => ⟨heq ▸ rfl, h.assign hs⟩).map_right
  inFunction := by
    rintro w s _ ⟨rfl, -⟩
    exact s.inFunction_relabel.symm
  variablesHere := by
    rintro w s _ ⟨rfl, -⟩
    have hvariables := s.variablesHere_relabel (l := .rewriting g) (k := id) fun _ => rfl
    rw [List.map_id] at hvariables
    exact hvariables.symm

theorem Translation.rewriting_admitsHeader (g : List Stmt → List Stmt) :
    (Translation.rewriting g).AdmitsHeader := by
  rintro w s _ symbol ⟨rfl, h⟩ hplain hnew
  refine ⟨?_, h.insert hnew (fun f hf => absurd hf (hplain f)) (fun _ _ => trivial)⟩
  have hinsert := s.insert_rewriting g symbol
  rwa [symbol.rewriting_plain g hplain] at hinsert

/-! ## Lists of statements -/

/-- Only results of a certain kind have to be matched, if there are no others. -/
theorem EvalM.Simulates.among {σ τ α β : Type} {h h' : Host} {P : Machine σ → Machine τ → Prop}
    {Q : α → β → Prop} {R : α → Prop} {x : EvalM σ α} {y : EvalM τ β} (hxy : Simulates h h' P Q x y)
    (hx : Yields R x) : Simulates h h' P (fun a b => Q a b ∧ R a) x y := by
  intro m n hmn
  obtain ⟨houtcome, hmachine⟩ := hxy m n hmn
  have hresult := hx h m
  refine ⟨?_, hmachine⟩
  generalize (x h m).1 = outcome, (y h' n).1 = outcome' at houtcome hresult
  cases houtcome with
  | done hab => exact .done ⟨hab, hresult _ rfl⟩
  | failed => exact .failed
  | outOfFuel => exact .outOfFuel

section Lists

variable {σ τ : Type} {h h' : Host} {P : Machine σ → Machine τ → Prop} {exec : Stmt → EvalM σ Flow}
  {exec' : Stmt → EvalM τ Flow} (hexec : ∀ s, EvalM.Simulates h h' P Eq (exec s) (exec' s.prune))
  (hret : ∀ value, EvalM.Yields (fun flow => ∃ v, flow = .returned v) (exec (.ret value)))

include hexec hret

theorem EvalM.Simulates.sequence_prune (body : List Stmt) :
    EvalM.Simulates h h' P Eq (EvalM.sequence exec body) (EvalM.sequence exec' (pruneBody body)) := by
  induction body with
  | nil => exact .pure rfl
  | cons s rest ih =>
    by_cases hs : ∃ value, s = .ret value
    · -- The rest of the list is not reached.
      obtain ⟨value, rfl⟩ := hs
      refine ((hexec (.ret value)).among (hret value)).bind fun flow _ hflow => ?_
      obtain ⟨rfl, v, rfl⟩ := hflow
      exact .pure rfl
    · rw [pruneBody_cons (fun value hvalue => hs ⟨value, hvalue⟩)]
      refine (hexec s).andThen fun flow => ?_
      cases flow with
      | normal _ => exact ih
      | returned _ => exact .pure rfl

theorem EvalM.Simulates.evalBodyWith_prune
    (hecho : ∀ value, EvalM.Simulates h h' P Eq (EvalM.echo value) (EvalM.echo value))
    (body : List Stmt) :
    EvalM.Simulates h h' P Eq (evalBodyWith exec body) (evalBodyWith exec' (pruneBody body)) := by
  induction body with
  | nil => exact .pure rfl
  | cons s rest ih =>
    by_cases hs : ∃ value, s = .ret value
    · -- Outside of functions a `return` is an error, so here too the rest is not reached.
      obtain ⟨value, rfl⟩ := hs
      refine ((hexec (.ret value)).among (hret value)).bind fun flow _ hflow => ?_
      obtain ⟨rfl, v, rfl⟩ := hflow
      exact .fail _
    · rw [pruneBody_cons (fun value hvalue => hs ⟨value, hvalue⟩)]
      refine (hexec s).andThen fun flow => ?_
      rcases flow with (_ | value) | _
      · exact ih
      · exact (hecho value).andThen fun _ => ih.andThen fun _ => .pure rfl
      · exact .fail _

end Lists

/-! ## Programs -/

/-- A statement runs as it does pruned. -/
theorem Translation.evalStmt_prune {h h' : Host} (tally : Tally Environment Environment h h')
    (fuel : Nat) (w : Environment) (s : Stmt) :
    EvalM.Simulates h h' ((Translation.rewriting pruneBody).Pairs tally w) Eq (evalStmt fuel s)
      (evalStmt fuel s.prune) := by
  refine ((Translation.rewriting pruneBody).eval_simulates tally ?_ fuel).2 w s _ s.alike_prune
  rintro fuel hexec v body _ rfl
  exact .sequence_prune (fun s => hexec v s _ s.alike_prune) (evalStmt_ret fuel) body

theorem Machine.run_prune {m : Machine Environment} (hm : m.scopes = .empty) (fuel : Nat) (p : Program)
    (host : Host) :
    Agree (fun m n => (Translation.rewriting pruneBody).Rel Environment.empty.openGlobal m.scopes
        n.scopes ∧ m.SameRecords n) Eq (m.run fuel p host) (m.run fuel p.prune host) := by
  let sim := Translation.rewriting pruneBody
  have hopen : sim.Rel Environment.empty.openGlobal (ScopeStore.openGlobal m.scopes)
      (ScopeStore.openGlobal m.scopes) := by
    -- The global scope starts out with types only, so there is nothing to rewrite in it.
    refine ⟨?_, opened_kept hm⟩
    have hglobal := m.scopes.openGlobal_relabel (l := .rewriting pruneBody) rfl fun _ _ => rfl
    rw [hm, Environment.relabel_empty] at hglobal
    rw [hm]
    exact hglobal
  refine sim.agree_of_simulates hopen ?_
  exact sim.evalProgramWith_simulates _ (Translation.rewriting_admitsHeader _)
    (Tally.since_admitsNatives host _ _ _) rfl p.header
    (.evalBodyWith_prune (Translation.evalStmt_prune _ fuel _) (evalStmt_ret fuel)
      (sim.echo_simulates _ (Tally.since_admitsEcho host _ _ _ _)) p.body)

/-- A program ends as it does without the statements that follow a `return`, with the same on record. -/
theorem ends_iff_ends_prune (earlier : List (Nat × Program × Host)) (p : Program) (host : Host)
    (result : Except Error Execution) (trace : List (String × TypedValue)) (shown : List String) :
    let start : Machine Environment := .after earlier
    start.Ends p host result trace shown ↔ start.Ends p.prune host result trace shown := by
  intro start
  refine exists_congr fun fuel => ?_
  obtain ⟨houtcome, -, hrecords⟩ :=
    Machine.run_prune (Machine.after_scopes earlier) fuel p host
  simp only [Machine.execute_eq]
  rw [houtcome.eq, hrecords.trace, hrecords.shown]

end Tremolo
