import Tremolo.Proofs.Run.Discipline
import Tremolo.Proofs.Scope.Correspondence
import Tremolo.Scope.Archive

/-! # Places of closed scopes are given out again unnoticed

A program runs over the stack of scopes exactly as it runs over an `Archive`, which keeps every scope
and never gives a place twice.  At each point of the two runs the live scopes of the stack are paired
with scopes of the archive (`Tracks`); a scope that is opened adds a pair, and the pair is forgotten
when the scope is closed. -/

namespace Tremolo

theorem Archive.assign_eq (t : Archive) (name : String) (value : TypedValue) :
    t.assign name value = (t.all.assign name value).map Archive.mk := by
  unfold Archive.assign
  cases t.all.assign name value <;> rfl

namespace Environment

/-- The live scopes are the scopes of the archive that `ρ` pairs them with. -/
structure Tracks (ρ : ScopeId → ScopeId → Prop) (before now : Environment) (archive : Archive) :
    Prop where
  kept : before.Kept (fun _ => True) now
  corresponds : now.Corresponds ρ archive.all
  paired : ∀ i, i < now.depth → ∃ j, ρ i j

variable {ρ : ScopeId → ScopeId → Prop} {before s : Environment} {t : Archive}

theorem Tracks.insert (h : Tracks ρ before s t) {x : Symbol} {j : ScopeId}
    (hnew : s.lookupHere x.name = none) (hscope : ∀ f, x = .function f → s.current = some f.scope)
    (hj : t.all.current = some j) :
    Tracks ρ before (s.insert x) ⟨t.all.insert (x.movedTo j)⟩ := by
  have hkept := h.kept.insert hnew hscope fun _ _ => trivial
  refine ⟨hkept, h.corresponds.insert x hj, fun i hi => h.paired i ?_⟩
  rwa [hkept.later.depth, ← h.kept.later.depth] at hi

theorem Tracks.insert_plain (h : Tracks ρ before s t) {x : Symbol}
    (hnew : s.lookupHere x.name = none) (hplain : ∀ f, x ≠ .function f) :
    Tracks ρ before (s.insert x) ⟨t.all.insert x⟩ := by
  obtain ⟨-, j, -, hj, -⟩ := h.corresponds.current
  have hinsert := h.insert hnew (fun f hf => absurd hf (hplain f)) hj
  rwa [Symbol.movedTo_eq_self fun f hf => absurd hf (hplain f)] at hinsert

theorem Tracks.assign (h : Tracks ρ before s t) (name : String) (value : TypedValue) :
    Assignment.Alike (Tracks ρ before) (s.assign name value) (t.assign name value) := by
  rw [Archive.assign_eq]
  refine ((h.corresponds.assign name value).imp fun s' t' hs _ hst => ?_).map_right
  have hkept := h.kept.assign hs
  refine ⟨hkept, hst, fun i hi => h.paired i ?_⟩
  rwa [hkept.later.depth, ← h.kept.later.depth] at hi

theorem Tracks.enters (h : Tracks ρ before s t) {name : String} {kind : ScopeKind} {i j : ScopeId}
    {outer : Scope} (hij : ρ i j) (houter : s.scope? i = some outer)
    (hcall : kind = .function → ∃ f, outer.get? name = some (.function f)) :
    Enters (fun w : (ScopeId → ScopeId → Prop) × Environment => Tracks w.1 w.2) (Tracks ρ before) s t
      name kind i j := by
  obtain ⟨_, outer', houter₀, houter', -⟩ := h.corresponds.scope hij
  obtain rfl := Option.some.inj (houter.symm.trans houter₀)
  have hpush := h.corresponds.push hij houter houter' name kind
  refine ⟨(extend ρ s.depth t.all.depth, _), _, ⟨_⟩, openScope?_eq houter name kind, ?_,
    ⟨h.kept.push houter hcall, hpush, fun p hp => ?_⟩, fun s' t' h' => ?_⟩
  · change (t.all.openScope? name kind j).map Archive.mk = _
    rw [openScope?_eq houter' name kind]
    rfl
  · rw [depth_push] at hp
    rcases Nat.lt_succ_iff_lt_or_eq.1 hp with hp | rfl
    · obtain ⟨q, hpq⟩ := h.paired p hp
      exact ⟨q, .inl hpq⟩
    · exact ⟨t.all.depth, .inr ⟨rfl, rfl⟩⟩
  · -- The stack drops the scope and the archive keeps it, but the pairs below say nothing of it.
    have hkept := h.kept.close h'.kept
    have hdepth : s'.depth = s.depth + 1 := h'.kept.later.depth.trans (depth_push s _)
    have hsize : (s'.closeScope s.current).depth = s.depth := by simp [hdepth]
    refine ⟨hkept, ⟨h'.corresponds.retract ?_ ?_ ?_, ?_⟩, fun p hp => h.paired p (hsize ▸ hp)⟩
    · exact fun p q hpq => (h.corresponds.lt_depth hpq).1
    · exact fun p q hpq => scope?_closeScope_of_lt hdepth (h.corresponds.lt_depth hpq).1 _
    · exact fun _ _ _ => rfl
    · obtain ⟨p, q, hp, hq, hpq⟩ := h.corresponds.current
      refine ⟨p, q, ?_, hq, hpq⟩
      change (s'.closeScope s.current).current = _
      rw [hkept.later.current, ← h.kept.later.current, hp]

end Environment

open Environment in
/-- The stack is simulated by the archive. -/
def Simulation.archived : Simulation Environment Archive where
  World := (ScopeId → ScopeId → Prop) × Environment
  Rel w := Tracks w.1 w.2
  block {w s t} h := by
    obtain ⟨i, j, hi, hj, hij⟩ := h.corresponds.current
    obtain ⟨outer, -, houter, -, -⟩ := h.corresponds.scope hij
    exact ⟨i, j, hi, hj, h.enters hij houter (by simp)⟩
  lookupHere h name := h.corresponds.lookupHere name
  lookup {w s t} h name := by
    refine h.corresponds.sameBinding h.kept.disciplined (fun f a j hij ha hf => ?_) name
    refine ⟨⟨rfl, rfl, rfl⟩, (w.1, s),
      ⟨.refl h.kept.disciplined h.kept.externals, h.corresponds, h.paired⟩, fun s' t' h' => ?_⟩
    -- The function is still where it was found, and so is the scope that is paired with it.
    obtain ⟨b, hb, hfb⟩ := h'.kept.later.function ha hf
    exact ⟨⟨h'.kept.after h.kept.later, h'.corresponds, h'.paired⟩,
      h'.enters hij hb fun _ => ⟨f, hfb⟩⟩
  bindVariable h v hnew := h.insert_plain hnew (by simp)
  bindFunction h name params body _ i j hbody hnew hi hj :=
    hbody ▸ h.insert hnew (by rintro f ⟨⟩; exact hi) hj
  assign h name value := h.assign name value
  inFunction h := h.corresponds.inFunction
  variablesHere h := h.corresponds.variablesHere

theorem Simulation.archived_admitsHeader : Simulation.archived.AdmitsHeader :=
  fun _ _ _ _ h hplain hnew => h.insert_plain hnew hplain

/-! ## Whole runs -/

namespace Environment

/-- Both start with a global scope, wherever the archive puts it. -/
theorem tracks_openGlobal (t : Archive) :
    Tracks (fun i j => i = 0 ∧ j = t.all.depth) empty.openGlobal empty.openGlobal
      (ScopeStore.openGlobal t) := by
  let scope : Scope := .fresh "global" 1 .global none
  have hpush : (empty.push scope).Corresponds (fun i j => i = 0 ∧ j = t.all.depth)
      (t.all.push scope) := by
    refine ⟨⟨?_, ?_, ?_⟩, ⟨0, t.all.depth, rfl, rfl, rfl, rfl⟩⟩
    · rintro i i' j ⟨rfl, -⟩ ⟨rfl, -⟩
      rfl
    · rintro i j j' ⟨-, rfl⟩ ⟨-, rfl⟩
      rfl
    · rintro i j ⟨rfl, rfl⟩
      exact ⟨scope, scope, rfl, by rw [scope?_push, if_pos rfl], rfl, rfl, rfl, .none, rfl⟩
  have hinsert : ∀ {s t' : Environment} (name : String),
      s.Corresponds (fun i j => i = 0 ∧ j = t.all.depth) t' →
      (s.insert (.type name)).Corresponds (fun i j => i = 0 ∧ j = t.all.depth)
        (t'.insert (.type name)) := by
    intro s t' name h
    obtain ⟨-, j, -, hj, -⟩ := h.current
    exact h.insert (.type name) hj
  refine ⟨.refl disciplined_openGlobal (externalsIn_openGlobal _), ?_, fun i hi => ?_⟩
  · exact hinsert _ (hinsert _ (hinsert _ hpush))
  · exact ⟨t.all.depth, Nat.lt_one_iff.1 hi, rfl⟩

/-- The scope at `i` is that of a call of `f`: it lies in the scope that `f` was declared in, which
    holds `f`. -/
def CallOf (env : Environment) (f : FunctionDef) (i : ScopeId) : Prop :=
  ∃ a outer, env.scope? i = some a ∧ a.parent = some f.scope ∧ env.scope? f.scope = some outer ∧
    outer.get? a.name = some (.function f)

/-- Every live scope stands for one scope of the archive, with the same contents.  If it is that of a
    call, then so is its counterpart, and the two functions were declared in counterparts. -/
def SameInstances (env : Environment) (archive : Archive) : Prop :=
  ∃ ρ, env.Corresponds ρ archive.all ∧ ∀ i a, env.scope? i = some a → ∃ j, ρ i j ∧
    (a.kind = .function → ∃ f g, env.CallOf f i ∧ archive.all.CallOf g j ∧ f.SameCode g ∧
      ρ f.scope g.scope)

theorem Tracks.sameInstances {ρ : ScopeId → ScopeId → Prop} {before s : Environment} {t : Archive}
    (h : Tracks ρ before s t) : s.SameInstances t := by
  refine ⟨ρ, h.corresponds, fun i a ha => ?_⟩
  obtain ⟨j, hij⟩ := h.paired i (lt_depth_of_scope? ha)
  refine ⟨j, hij, fun hkind => ?_⟩
  obtain ⟨p, outer, f, hp, houter, hf⟩ := (h.kept.disciplined.fits i a ha).called hkind
  obtain rfl := (h.kept.disciplined.heldAt houter hf).2 f rfl
  obtain ⟨_, b, ha₀, hb, htwin⟩ := h.corresponds.scope hij
  obtain rfl := Option.some.inj (ha.symm.trans ha₀)
  -- The counterpart of the enclosing scope encloses the counterpart, and holds the function too.
  have hparent := htwin.parent
  rw [hp] at hparent
  generalize hq : b.parent = q at hparent
  obtain @⟨_, q, hpq, -⟩ := hparent
  obtain ⟨_, outer', houter₀, houter', htwin'⟩ := h.corresponds.scope hpq
  obtain rfl := Option.some.inj (houter.symm.trans houter₀)
  refine ⟨f, { f with scope := q }, ⟨a, outer, ha, hp, houter, hf⟩, ?_, ⟨rfl, rfl, rfl⟩, hpq⟩
  refine ⟨b, outer', hb, hq, houter', ?_⟩
  rw [htwin.name, htwin'.get?, hf]
  rfl

end Environment

/-- The outcome of a computation that gives a result or fails. -/
def Outcome.ofExcept {α : Type} : Except Error α → Outcome α
  | .ok a => .done a
  | .error e => .failed e

/-- A program ends with this result, and with these assignments and lines on record. -/
def Machine.Ends {σ : Type} [ScopeStore σ] (m : Machine σ) (p : Program) (host : Host)
    (result : Except Error Execution) (trace : List (String × TypedValue)) (shown : List String) :
    Prop :=
  ∃ fuel, (m.execute fuel p host).1 = .ofExcept result ∧
    (m.execute fuel p host).2.trace.toList = trace ∧
    (m.execute fuel p host).2.shown.toList = shown

/-- A program ends over the stack as it does over the archive, with the same on record.  On the way the
    live scopes stand for scopes of the archive, and every call lies in the one that its function was
    declared in. -/
theorem reuse_unobservable (earlier : List (Nat × Program × Host)) (p : Program) (host : Host) :
    let stack : Machine Environment := .after earlier
    let archive : Machine Archive := .after earlier
    (∀ result trace shown,
      stack.Ends p host result trace shown ↔ archive.Ends p host result trace shown) ∧
    ∀ fuel, List.Forall₂ Environment.SameInstances (stack.visited fuel p host)
      (archive.visited fuel p host) := by
  intro stack archive
  have hopen : ∃ w, Simulation.archived.Rel w (ScopeStore.openGlobal stack.scopes)
      (ScopeStore.openGlobal archive.scopes) := by
    rw [show stack.scopes = .empty from Machine.after_scopes earlier]
    exact ⟨(_, _), Environment.tracks_openGlobal archive.scopes⟩
  obtain ⟨w, hopen⟩ := hopen
  refine ⟨fun result trace shown => exists_congr fun fuel => ?_, fun fuel => ?_⟩
  · obtain ⟨houtcome, -, hrecords⟩ :=
      Simulation.archived.run_agree Simulation.archived_admitsHeader hopen fuel p host
    -- Closing the global scope at the end changes neither the outcome nor the records.
    simp only [Machine.execute_eq]
    rw [houtcome.eq, hrecords.trace, hrecords.shown]
  · refine (Simulation.archived.visited_agree Simulation.archived_admitsHeader hopen fuel p host).imp ?_
    rintro s t ⟨w, hw⟩
    exact hw.sameInstances

end Tremolo
