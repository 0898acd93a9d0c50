import Tremolo.Proofs.Scope.Renaming
import Tremolo.Run.Eval

/-! # Computations under other names

Two computations are equivariant if the second does to a machine with other names what the first does to
the machine: it ends in the machine of the first with other names, and its result is what a function
makes of the result of the first.  Errors have only to be of the same kind, since their texts show names
and types.

There is one rule for each way of putting computations together. -/

namespace Tremolo

variable (r : Renaming)

/-! ## Machines and what computations give -/

def NativeCall.rename (c : NativeCall) : NativeCall :=
  ⟨c.function.rename r, c.callable, c.args.map (TypedValue.rename r), c.result⟩

def Machine.rename (m : Machine Environment) : Machine Environment :=
  ⟨m.scopes.relabel r.relabeling, m.natives, m.trace.map (Prod.map r (TypedValue.rename r)), m.shown,
    m.calls.map (NativeCall.rename r)⟩

def Flow.rename : Flow → Flow
  | .normal value => .normal (value.map (TypedValue.rename r))
  | .returned value => .returned (value.rename r)

def Execution.rename (x : Execution) : Execution :=
  ⟨x.results.map (TypedValue.rename r), x.globals.map (Prod.map r (Option.map (TypedValue.rename r)))⟩

/-! ## Ends that match -/

/-- Two outcomes match: the second is what `f` makes of the first, or both are errors of one kind. -/
inductive Outcome.Matched {α β : Type} (f : α → β) : Outcome α → Outcome β → Prop
  | done (a : α) : Matched f (.done a) (.done (f a))
  | failed {e e' : Error} : e'.kind = e.kind → Matched f (.failed e) (.failed e')
  | deadScope (id : ScopeId) : Matched f (.deadScope id) (.deadScope id)
  | outOfFuel : Matched f .outOfFuel .outOfFuel

/-- The ends of two computations match, the second with other names. -/
structure Machine.Matched {α β : Type} (f : α → β) (run : Outcome α × Machine Environment)
    (run' : Outcome β × Machine Environment) : Prop where
  outcome : run.1.Matched f run'.1
  machine : run'.2 = run.2.rename r

namespace EvalM

/-- The second computation does to machines with other names what the first one does, and its results are
    what `f` makes of those of the first. -/
def Equivariant {α β : Type} (f : α → β) (x : EvalM Environment α) (y : EvalM Environment β) : Prop :=
  ∀ host m, Machine.Matched r f (x host m) (y host (m.rename r))

variable {r} {α β γ δ : Type} {f : α → β} {g : γ → δ} {x : EvalM Environment α} {y : EvalM Environment β}

/-! ## Single steps -/

theorem Equivariant.pure (a : α) :
    Equivariant r f (pure a : EvalM Environment α) (pure (f a) : EvalM Environment β) :=
  fun _ _ => ⟨.done a, rfl⟩

theorem Equivariant.pure_of_eq {a : α} {b : β} (hb : b = f a) :
    Equivariant r f (Pure.pure a : EvalM Environment α) (Pure.pure b : EvalM Environment β) :=
  hb ▸ .pure a

theorem Equivariant.fail {e e' : Error} (he : e'.kind = e.kind) :
    Equivariant r f (fail e : EvalM Environment α) (fail e' : EvalM Environment β) :=
  fun _ _ => ⟨.failed he, rfl⟩

theorem Equivariant.outOfFuel :
    Equivariant r f (outOfFuel : EvalM Environment α) (outOfFuel : EvalM Environment β) :=
  fun _ _ => ⟨.outOfFuel, rfl⟩

theorem Equivariant.ofExcept {x : Except Error α} {y : Except Error β} (h : Tremolo.Matched f x y) :
    Equivariant r f (ofExcept x : EvalM Environment α) (ofExcept y : EvalM Environment β) := by
  cases h with
  | ok a => exact .pure a
  | error he => exact .fail he

/-- Scopes with other names give the answer with other names. -/
theorem Equivariant.ask {p : Environment → α} {q : Environment → β}
    (hpq : ∀ env, q (env.relabel r.relabeling) = f (p env)) : Equivariant r f (ask p) (ask q) := by
  intro host m
  refine ⟨?_, rfl⟩
  change Outcome.Matched f (.done (p m.scopes)) (.done (q (m.scopes.relabel r.relabeling)))
  rw [hpq]
  exact .done _

theorem Equivariant.change {p q : Environment → Environment}
    (hpq : ∀ env, q (env.relabel r.relabeling) = (p env).relabel r.relabeling) :
    Equivariant r id (change p) (change q) := by
  intro host m
  refine ⟨.done (), ?_⟩
  simp only [EvalM.change, Machine.rename, hpq]

/-! ## Sequences -/

theorem Equivariant.bind {k : α → EvalM Environment γ} {l : β → EvalM Environment δ}
    (hxy : Equivariant r f x y) (hkl : ∀ a, Equivariant r g (k a) (l (f a))) :
    Equivariant r g (x >>= k) (y >>= l) := by
  intro host m
  obtain ⟨houtcome, hmachine⟩ := hxy host m
  change Machine.Matched r g (EvalM.bind x k host m) (EvalM.bind y l host (m.rename r))
  unfold EvalM.bind
  generalize x host m = run at houtcome hmachine
  generalize y host (m.rename r) = run' at houtcome hmachine
  obtain ⟨outcome, n⟩ := run
  obtain ⟨outcome', n'⟩ := run'
  obtain rfl : n' = n.rename r := hmachine
  -- Only a result is handed on; every other end is the end of the whole.
  cases houtcome with
  | done a => exact hkl a host n
  | failed he => exact ⟨.failed he, rfl⟩
  | deadScope id => exact ⟨.deadScope id, rfl⟩
  | outOfFuel => exact ⟨.outOfFuel, rfl⟩

theorem Equivariant.each {k : α → EvalM Environment Unit} {l : β → EvalM Environment Unit} {as : List α}
    (hkl : ∀ a ∈ as, Equivariant r id (k a) (l (f a))) :
    Equivariant r id (each k as) (each l (as.map f)) := by
  induction as with
  | nil => exact .pure ()
  | cons a as ih =>
    obtain ⟨hfirst, hrest⟩ := List.forall_mem_cons.1 hkl
    exact hfirst.bind fun _ => ih hrest

theorem Equivariant.collect {k : α → EvalM Environment γ} {l : β → EvalM Environment δ}
    (hkl : ∀ a, Equivariant r g (k a) (l (f a))) (as : List α) :
    Equivariant r (List.map g) (collect k as) (collect l (as.map f)) := by
  induction as with
  | nil => exact .pure []
  | cons a as ih => exact (hkl a).bind fun b => ih.bind fun bs => .pure (b :: bs)

theorem Equivariant.truth {x y : EvalM Environment TypedValue}
    (hxy : Equivariant r (TypedValue.rename r) x y) : Equivariant r id (truth x) (truth y) :=
  hxy.bind fun v => .pure v.value.truthy

theorem Equivariant.sequence {exec exec' : Stmt → EvalM Environment Flow}
    (hexec : ∀ s, Equivariant r (Flow.rename r) (exec s) (exec' (s.rename r))) (body : List Stmt) :
    Equivariant r (Flow.rename r) (sequence exec body) (sequence exec' (renameBody r body)) := by
  induction body with
  | nil => exact .pure (Flow.normal none)
  | cons s rest ih =>
    refine (hexec s).bind fun flow => ?_
    cases flow with
    | normal _ => exact ih
    | returned value => exact .pure (Flow.returned value)

theorem Equivariant.iterate {c c' : EvalM Environment Bool} {body body' : EvalM Environment Flow}
    (hc : Equivariant r id c c') (hbody : Equivariant r (Flow.rename r) body body') (fuel : Nat) :
    Equivariant r (Flow.rename r) (iterate c body fuel) (iterate c' body' fuel) := by
  induction fuel with
  | zero => exact .outOfFuel
  | succ fuel ih =>
    refine hc.bind fun holds => ?_
    cases holds with
    | false => exact .pure (Flow.normal none)
    | true =>
      refine hbody.bind fun flow => ?_
      cases flow with
      | normal _ => exact ih
      | returned value => exact .pure (Flow.returned value)

/-! ## Scopes -/

theorem Equivariant.inScope (hxy : Equivariant r f x y) (name : String) (kind : ScopeKind)
    (parent : ScopeId) :
    Equivariant r f (inScope name kind parent x) (inScope (r.scopeName kind name) kind parent y) := by
  intro host m
  have hopen : ScopeStore.openScope? (m.rename r).scopes (r.scopeName kind name) kind parent =
      (ScopeStore.openScope? m.scopes name kind parent).map (Environment.relabel r.relabeling) :=
    m.scopes.openScope?_relabel name kind parent
  unfold EvalM.inScope
  rw [hopen]
  cases ScopeStore.openScope? m.scopes name kind parent with
  | none => exact ⟨.deadScope parent, rfl⟩
  | some inner =>
    have hstart : ({ m.rename r with scopes := inner.relabel r.relabeling } : Machine Environment) =
      Machine.rename r { m with scopes := inner } := rfl
    have hrun := hxy host { m with scopes := inner }
    simp only [Option.map_some, hstart]
    generalize x host { m with scopes := inner } = run at hrun
    generalize y host (Machine.rename r { m with scopes := inner }) = run' at hrun
    obtain ⟨outcome, n⟩ := run
    obtain ⟨outcome', n'⟩ := run'
    obtain rfl : n' = n.rename r := hrun.machine
    refine ⟨hrun.outcome, ?_⟩
    -- The scope is closed on both sides however the bodies end.
    have hclose : ScopeStore.closeScope (n.rename r).scopes (ScopeStore.current (m.rename r).scopes) =
      (ScopeStore.closeScope n.scopes (ScopeStore.current m.scopes)).relabel r.relabeling :=
        n.scopes.closeScope_relabel _
    rw [hclose]
    rfl

theorem currentScope_equivariant :
    Equivariant r id (currentScope : EvalM Environment ScopeId) currentScope := by
  refine Equivariant.bind (f := id) (.ask fun _ => rfl) fun current => ?_
  cases current with
  | none => exact .fail rfl
  | some i => exact .pure i

theorem Equivariant.inBlock (hxy : Equivariant r f x y) : Equivariant r f (inBlock x) (inBlock y) :=
  currentScope_equivariant.bind fun parent => hxy.inScope "block" .block parent

end EvalM

end Tremolo
