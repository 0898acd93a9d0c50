import Tremolo.Proofs.Run.Discipline
import Tremolo.Proofs.Scope.Correspondence

/-! # Calls see the scopes around the declaration

What a function of the script does depends on the scopes that enclose its declaration and on nothing
else: not on who calls it, nor on how high the stack is.  Two calls of one function from different
states are compared by pairing the scopes on the chain of the declaration with themselves, and the
scopes that the two calls open with each other (`Parallel`). -/

namespace Tremolo

/-! ## Chains of enclosing scopes -/

/-- The scope at `i` is that at `j` or encloses it. -/
inductive Environment.OnChain (env : Environment) : (j i : ScopeId) → Prop
  | self (j : ScopeId) : OnChain env j j
  | outer {j p i : ScopeId} {a : Scope} : env.scope? j = some a → a.parent = some p →
      OnChain env p i → OnChain env j i

namespace Environment

variable {env env' : Environment} {i j p : ScopeId}

theorem OnChain.parent (h : env.OnChain j i) {a : Scope} (ha : env.scope? i = some a)
    (hp : a.parent = some p) : env.OnChain j p := by
  induction h with
  | self => exact .outer ha hp (.self p)
  | outer hb hq _ ih => exact .outer hb hq (ih ha)

theorem OnChain.live (h : env.OnChain j i) (henv : env.Disciplined) {a : Scope}
    (ha : env.scope? j = some a) : ∃ b, env.scope? i = some b := by
  induction h generalizing a with
  | self => exact ⟨a, ha⟩
  | outer hb hp _ ih =>
    obtain ⟨-, outer, houter, -⟩ := (henv.fits _ _ hb).enclosed _ hp
    exact ih houter

theorem OnChain.congr (h : env.OnChain j i)
    (hsame : ∀ i, env.OnChain j i → env'.scope? i = env.scope? i) : env'.OnChain j i := by
  induction h with
  | self => exact .self _
  | outer ha hp _ ih =>
    refine .outer ((hsame _ (.self _)).trans ha) hp (ih fun i hi => hsame i ?_)
    exact .outer ha hp hi

/-! ## Changes to known scopes only -/

/-- Evaluation has come from one state to another and has changed scopes in `D` only. -/
structure Confined (D : ScopeId → Prop) (before now : Environment) : Prop where
  kept : before.Kept (fun _ => True) now
  frame : ∀ i, ¬D i → now.scope? i = before.scope? i

variable {D : ScopeId → Prop} {before now : Environment}

theorem Confined.refl (h : env.Disciplined) : env.Confined D env :=
  ⟨.refl h fun _ _ _ _ _ _ _ _ => trivial, fun _ _ => rfl⟩

theorem Confined.after (h : before.Confined D env) (hnow : env.Confined D now) :
    before.Confined D now :=
  ⟨hnow.kept.after h.kept.later, fun i hi => (hnow.frame i hi).trans (h.frame i hi)⟩

theorem Confined.modify (h : before.Confined D now) {id : ScopeId} {f : Scope → Scope} (hid : D id)
    (hkept : before.Kept (fun _ => True) (now.modifyScope id f)) :
    before.Confined D (now.modifyScope id f) := by
  refine ⟨hkept, fun i hi => ?_⟩
  have hne : id ≠ i := fun heq => hi (heq ▸ hid)
  rw [scope?_modifyScope, if_neg hne, h.frame i hi]

theorem Confined.insert (h : before.Confined D now) {x : Symbol}
    (hnew : now.lookupHere x.name = none) (hscope : ∀ f, x = .function f → now.current = some f.scope)
    (hcurrent : ∀ i, now.current = some i → D i) : before.Confined D (now.insert x) := by
  have hkept := h.kept.insert hnew hscope fun _ _ => trivial
  unfold Environment.insert at hkept ⊢
  split at hkept
  next id hid =>
    exact h.modify (hcurrent id hid) hkept
  next => exact h

theorem Confined.assign (h : before.Confined D now) {after : Environment} {name : String}
    {value : TypedValue} (hafter : now.assign name value = .stored after)
    (hresolve : ∀ i, now.resolve name = some i → D i) : before.Confined D after := by
  have hkept := h.kept.assign hafter
  obtain ⟨i, a, v, w, hi, -, -, -, rfl⟩ := assign_stored hafter
  exact h.modify (hresolve i hi) hkept

/-- A scope that was opened may have been changed, but it is gone when it is closed. -/
theorem Confined.close (h : before.Confined D now) {D' : ScopeId → Prop} {scope : Scope}
    {last : Environment} (hlast : (now.push scope).Confined D' last)
    (hD : ∀ i, D' i → D i ∨ i = now.depth) : before.Confined D (last.closeScope now.current) := by
  have hkept := h.kept.close hlast.kept
  refine ⟨hkept, fun i hi => ?_⟩
  have hdepth : last.depth = now.depth + 1 := hlast.kept.later.depth.trans (depth_push now scope)
  -- Below the scope that is closed only `D` was changed, and above it nothing is left.
  rcases Nat.lt_or_ge i now.depth with hlt | hge
  · have hne : i ≠ now.depth := Nat.ne_of_lt hlt
    have hframe := hlast.frame i fun hi' => (hD i hi').elim hi hne
    rw [scope?_closeScope_of_lt hdepth hlt, hframe, scope?_push, if_neg hne, h.frame i hi]
  · have hbefore : before.depth ≤ i := h.kept.later.depth ▸ hge
    rw [scope?_eq_none_of_le hbefore, scope?_eq_none_of_le]
    rwa [hkept.later.depth]

/-! ## Two calls side by side -/

/-- Two evaluations that started at `s₀` and `t₀`: the scopes that `ρ` pairs are the same, and no others
    have changed. -/
structure Parallel (ρ : ScopeId → ScopeId → Prop) (s₀ t₀ s t : Environment) : Prop where
  left : s₀.Confined (fun i => ∃ j, ρ i j) s
  right : t₀.Confined (fun j => ∃ i, ρ i j) t
  corresponds : s.Corresponds ρ t

variable {ρ : ScopeId → ScopeId → Prop} {s₀ t₀ s t : Environment}

theorem Parallel.insert (h : Parallel ρ s₀ t₀ s t) {x : Symbol} {j : ScopeId}
    (hnew : s.lookupHere x.name = none) (hscope : ∀ f, x = .function f → s.current = some f.scope)
    (hj : t.current = some j) : Parallel ρ s₀ t₀ (s.insert x) (t.insert (x.movedTo j)) := by
  obtain ⟨i, j', hi, hj', hij⟩ := h.corresponds.current
  have hnew' : t.lookupHere (x.movedTo j).name = none := by
    have hsame := h.corresponds.lookupHere x.name
    rw [hnew] at hsame
    rw [Symbol.name_movedTo]
    simpa using hsame.symm
  refine ⟨h.left.insert hnew hscope ?_, h.right.insert hnew' ?_ ?_, h.corresponds.insert x hj⟩
  · intro k hk
    exact ⟨j', Option.some.inj (hi.symm.trans hk) ▸ hij⟩
  · intro g hg
    rcases x with _ | _ | f | _ <;> cases hg
    exact hj
  · intro k hk
    exact ⟨i, Option.some.inj (hj'.symm.trans hk) ▸ hij⟩

theorem Parallel.insert_plain (h : Parallel ρ s₀ t₀ s t) {x : Symbol}
    (hnew : s.lookupHere x.name = none) (hplain : ∀ f, x ≠ .function f) :
    Parallel ρ s₀ t₀ (s.insert x) (t.insert x) := by
  obtain ⟨-, j, -, hj, -⟩ := h.corresponds.current
  have hinsert := h.insert hnew (fun f hf => absurd hf (hplain f)) hj
  rwa [Symbol.movedTo_eq_self fun f hf => absurd hf (hplain f)] at hinsert

theorem Parallel.assign (h : Parallel ρ s₀ t₀ s t) (name : String) (value : TypedValue) :
    Assignment.Alike (Parallel ρ s₀ t₀) (s.assign name value) (t.assign name value) := by
  have hresolve := h.corresponds.resolve name
  refine (h.corresponds.assign name value).imp fun s' t' hs ht hst => ?_
  -- Both sides store into the scope in which they resolve the name, and these are paired.
  refine ⟨h.left.assign hs fun i hi => ?_, h.right.assign ht fun j hj => ?_, hst⟩
  · rw [hi] at hresolve
    generalize t.resolve name = q at hresolve
    cases hresolve with
    | some hij => exact ⟨_, hij⟩
  · rw [hj] at hresolve
    generalize s.resolve name = p at hresolve
    cases hresolve with
    | some hij => exact ⟨_, hij⟩

/-- Scopes opened inside paired ones, for calls of a function that they hold or for blocks. -/
theorem Paired.parallel (h : s.Paired ρ t) (hs : s.Disciplined) (ht : t.Disciplined) (hij : ρ i j)
    {a b : Scope} (ha : s.scope? i = some a) (hb : t.scope? j = some b) {name : String}
    {kind : ScopeKind} (hcall : kind = .function → ∃ f, a.get? name = some (.function f)) :
    Parallel (extend ρ s.depth t.depth)
      (s.push (.fresh name (a.level + 1) kind (some i)))
      (t.push (.fresh name (b.level + 1) kind (some j)))
      (s.push (.fresh name (a.level + 1) kind (some i)))
      (t.push (.fresh name (b.level + 1) kind (some j))) := by
  refine ⟨.refl (hs.push ha hcall), .refl (ht.push hb fun hkind => ?_), h.push hij ha hb name kind⟩
  obtain ⟨f, hf⟩ := hcall hkind
  obtain ⟨_, _, ha₀, hb₀, htwin⟩ := h.scope hij
  obtain rfl := Option.some.inj (ha.symm.trans ha₀)
  obtain rfl := Option.some.inj (hb.symm.trans hb₀)
  exact ⟨{ f with scope := j }, by rw [htwin.get?, hf]; rfl⟩

/-- What is left of two scopes when they are closed. -/
theorem Paired.unwind (h : s.Paired ρ t) (hs : s₀.Confined (fun i => ∃ j, ρ i j) s)
    (ht : t₀.Confined (fun j => ∃ i, ρ i j) t) {a b : Scope} {s' t' : Environment}
    (hlast : Parallel (extend ρ s.depth t.depth) (s.push a) (t.push b) s' t') :
    s₀.Confined (fun i => ∃ j, ρ i j) (s'.closeScope s.current) ∧
      t₀.Confined (fun j => ∃ i, ρ i j) (t'.closeScope t.current) ∧
      (s'.closeScope s.current).Paired ρ (t'.closeScope t.current) := by
  have hsdepth : s'.depth = s.depth + 1 := hlast.left.kept.later.depth.trans (depth_push s a)
  have htdepth : t'.depth = t.depth + 1 := hlast.right.kept.later.depth.trans (depth_push t b)
  refine ⟨hs.close hlast.left ?_, ht.close hlast.right ?_, hlast.corresponds.retract ?_ ?_ ?_⟩
  · rintro i ⟨j, hij | ⟨rfl, -⟩⟩
    · exact .inl ⟨j, hij⟩
    · exact .inr rfl
  · rintro j ⟨i, hij | ⟨-, rfl⟩⟩
    · exact .inl ⟨i, hij⟩
    · exact .inr rfl
  · exact fun i j hij => (h.lt_depth hij).1
  · exact fun i j hij => scope?_closeScope_of_lt hsdepth (h.lt_depth hij).1 _
  · exact fun i j hij => scope?_closeScope_of_lt htdepth (h.lt_depth hij).2 _

theorem Parallel.enters (h : Parallel ρ s₀ t₀ s t) {name : String} {kind : ScopeKind}
    (hij : ρ i j) {a : Scope} (ha : s.scope? i = some a)
    (hcall : kind = .function → ∃ f, a.get? name = some (.function f)) :
    Enters (fun w : (ScopeId → ScopeId → Prop) × Environment × Environment =>
      Parallel w.1 w.2.1 w.2.2) (Parallel ρ s₀ t₀) s t name kind i j := by
  obtain ⟨_, b, ha₀, hb, -⟩ := h.corresponds.scope hij
  obtain rfl := Option.some.inj (ha.symm.trans ha₀)
  refine ⟨(extend ρ s.depth t.depth, _, _), _, _, openScope?_eq ha name kind,
    openScope?_eq hb name kind, h.corresponds.parallel h.left.kept.disciplined
      h.right.kept.disciplined hij ha hb hcall, fun s' t' h' => ?_⟩
  obtain ⟨hleft, hright, hpaired⟩ := h.corresponds.unwind h.left h.right h'
  refine ⟨hleft, hright, hpaired, ?_⟩
  obtain ⟨p, q, hp, hq, hpq⟩ := h.corresponds.current
  refine ⟨p, q, ?_, ?_, hpq⟩
  · exact (hleft.kept.later.current.trans h.left.kept.later.current.symm).trans hp
  · exact (hright.kept.later.current.trans h.right.kept.later.current.symm).trans hq

end Environment

open Environment in
/-- Two stacks with paired scopes simulate each other, and change no other scopes. -/
def Simulation.parallel : Simulation Environment Environment where
  World := (ScopeId → ScopeId → Prop) × Environment × Environment
  Rel w := Parallel w.1 w.2.1 w.2.2
  block h := by
    obtain ⟨i, j, hi, hj, hij⟩ := h.corresponds.current
    obtain ⟨a, -, ha, -, -⟩ := h.corresponds.scope hij
    exact ⟨i, j, hi, hj, h.enters hij ha (by simp)⟩
  lookupHere h name := h.corresponds.lookupHere name
  lookup {w s t} h name := by
    refine h.corresponds.sameBinding h.left.kept.disciplined (fun f a j hij ha hf => ?_) name
    -- The pairs stay the same, but changes are counted from the states at hand.
    refine ⟨⟨rfl, rfl, rfl⟩, (w.1, s, t), ⟨.refl h.left.kept.disciplined,
      .refl h.right.kept.disciplined, h.corresponds⟩, fun s' t' h' => ?_⟩
    obtain ⟨b, hb, hfb⟩ := h'.left.kept.later.function ha hf
    exact ⟨⟨h.left.after h'.left, h.right.after h'.right, h'.corresponds⟩,
      h'.enters hij hb fun _ => ⟨f, hfb⟩⟩
  bindVariable h v hnew := h.insert_plain hnew (by simp)
  bindFunction h name params body _ i j hbody hnew hi hj :=
    hbody ▸ h.insert hnew (by rintro f ⟨⟩; exact hi) hj
  assign h name value := h.assign name value
  inFunction h := h.corresponds.inFunction
  variablesHere h := h.corresponds.variablesHere

/-! ## Calls of one function from two states -/

namespace Environment

/-- Some run passes through this state. -/
def Reached (env : Environment) : Prop :=
  ∃ earlier fuel p host, env ∈ (Machine.after earlier : Machine Environment).visited fuel p host

theorem Reached.disciplined {env : Environment} (h : env.Reached) : env.Disciplined := by
  obtain ⟨earlier, fuel, p, host, henv⟩ := h
  exact (Machine.visited_recorded (Machine.after_scopes earlier) fuel p host henv).1

variable {s t : Environment} {j : ScopeId}

/-- The scopes of a chain, each paired with itself. -/
def chained (env : Environment) (j : ScopeId) (p q : ScopeId) : Prop :=
  p = q ∧ env.OnChain j p

theorem paired_chained (hs : s.Disciplined) {outer : Scope} (hj : s.scope? j = some outer)
    (hsame : ∀ i, s.OnChain j i → t.scope? i = s.scope? i) : s.Paired (s.chained j) t := by
  refine ⟨?_, ?_, ?_⟩
  · rintro i i' k ⟨rfl, -⟩ ⟨rfl, -⟩
    rfl
  · rintro i k k' ⟨rfl, -⟩ ⟨rfl, -⟩
    rfl
  · rintro i _ ⟨rfl, hi⟩
    obtain ⟨a, ha⟩ := hi.live hs hj
    refine ⟨a, a, ha, (hsame i hi).trans ha, rfl, rfl, rfl, ?_, ?_⟩
    · cases hp : a.parent with
      | none => exact .none
      | some p =>
        have hlt := ((hs.fits i a ha).enclosed p hp).1
        exact .some ⟨⟨rfl, hi.parent ha hp⟩, hlt, hlt⟩
    · refine (Table.map_eq_self fun entry hentry => ?_).symm
      exact Symbol.movedTo_eq_self ((hs.fits i a ha).held entry.1 entry.2 hentry).2

/-- What two calls of one function have done when they are over. -/
structure Matched (j : ScopeId) (s₀ t₀ s t : Environment) : Prop where
  chain : ∀ i, s₀.OnChain j i → s.scope? i = t.scope? i
  left : ∀ i, ¬s₀.OnChain j i → s.scope? i = s₀.scope? i
  right : ∀ i, ¬t₀.OnChain j i → t.scope? i = t₀.scope? i

theorem enters_chained (hs : s.Disciplined) (ht : t.Disciplined) {outer : Scope}
    (hj : s.scope? j = some outer) (hsame : ∀ i, s.OnChain j i → t.scope? i = s.scope? i)
    {name : String} (hcall : ∃ f, outer.get? name = some (.function f)) :
    Enters Simulation.parallel.Rel (Matched j s t) s t name .function j j := by
  have hpaired := paired_chained hs hj hsame
  have hj' := (hsame j (.self j)).trans hj
  refine ⟨(extend (s.chained j) s.depth t.depth, _, _), _, _, openScope?_eq hj name .function,
    openScope?_eq hj' name .function,
    hpaired.parallel hs ht ⟨rfl, .self j⟩ hj hj' fun _ => hcall, fun s' t' h' => ?_⟩
  obtain ⟨hleft, hright, hafter⟩ := hpaired.unwind (.refl hs) (.refl ht) h'
  refine ⟨fun i hi => ?_, fun i hi => ?_, fun i hi => ?_⟩
  · -- On the chain a scope is paired with itself, and twins in one place are equal.
    obtain ⟨a, b, ha, hb, htwin⟩ := hafter.scope ⟨rfl, hi⟩
    have hheld := (hleft.kept.disciplined.fits i a ha).held
    obtain rfl := htwin.eq (fun _ _ hpq => hpq.1) fun entry hentry => (hheld _ _ hentry).2
    exact ha.trans hb.symm
  · exact hleft.frame i fun ⟨_, _, hi'⟩ => hi hi'
  · refine hright.frame i ?_
    rintro ⟨k, rfl, hk⟩
    exact hi (hk.congr hsame)

end Environment

/-- Two calls of a function from states that agree on the scopes around its declaration, with the same
    native functions, end alike and put the same on record; they change the scopes around the declaration
    alike and no others.  There have been as many calls of native functions before, or these do not look
    at how many there were. -/
theorem calls_see_declaration {m n : Machine Environment} (hm : m.scopes.Reached)
    (hn : n.scopes.Reached) (hnatives : m.natives = n.natives)
    (hcalls : m.calls.size = n.calls.size ∨ ∀ name g, m.natives.get? name = some g → g.Pure)
    {j : ScopeId} {outer : Scope}
    (hj : m.scopes.scope? j = some outer)
    (hsame : ∀ i, m.scopes.OnChain j i → n.scopes.scope? i = m.scopes.scope? i)
    {name : String} {f : FunctionDef} (hf : outer.get? name = some (.function f))
    (values : List TypedValue) (fuel : Nat) (host : Host) :
    let left := EvalM.applyFunction (evalStmt fuel) f values host m
    let right := EvalM.applyFunction (evalStmt fuel) f values host n
    left.1 = right.1 ∧ AddedAlike m.trace n.trace left.2.trace right.2.trace ∧
      Environment.Matched j m.scopes n.scopes left.2.scopes right.2.scopes := by
  intro left right
  -- A function carries the number of the scope that holds it, so it is called inside that one.
  obtain ⟨hname, hscope⟩ := hm.disciplined.heldAt hj hf
  obtain rfl := hscope f rfl
  have hcall : ∃ g, outer.get? f.name = some (.function g) := ⟨f, by rw [← hf, ← hname]; rfl⟩
  have henter := Environment.enters_chained hm.disciplined hn.disciplined hj hsame hcall
  rcases hcalls with hserial | hpure
  · obtain ⟨houtcome, hmatched, -, -, htrace, -⟩ := Simulation.parallel.applyFunction_agree
      (Tally.since host (fun _ => True) m n hserial)
      (Simulation.evalStmt_simulates _ _ fuel) ⟨rfl, rfl, rfl⟩ values henter
      ⟨trivial, hnatives, .refl .., .refl .., .refl ..⟩
    exact ⟨houtcome.eq, htrace, hmatched⟩
  · obtain ⟨houtcome, hmatched, -, -, htrace⟩ := Simulation.parallel.applyFunction_agree
      (Tally.unnumbered host hpure m n)
      (Simulation.evalStmt_simulates _ _ fuel) ⟨rfl, rfl, rfl⟩ values henter
      ⟨rfl, hnatives.symm, .refl ..⟩
    exact ⟨houtcome.eq, htrace, hmatched⟩

/-! A function is called at the top level, and from a block with a variable of the same name as the one
that the function assigns. -/

/-- The function assigns a global variable and gives back its value. -/
def Shadowed.function : FunctionDef :=
  ⟨"f", ["a"], [.assign "x" (.var "a"), .ret (some (.var "x"))], 0⟩

/-- The function is called from a block with a variable `x` of its own. -/
def Shadowed.program : Program :=
  ⟨none, [.declare "VAR" ["x"], .define "f" ["a"] function.body,
    .block [.declare "VAR" ["x"], .expr (.call "f" [.bool true])]]⟩

/-- The global scope when the function has been declared. -/
def Shadowed.global : Scope :=
  ⟨"global", 1, .global, none, ⟨[("NUMBER", .type "NUMBER"), ("STRING", .type "STRING"),
    ("VAR", .type "VAR"), ("x", .variable (.unset "x" .var)), ("f", .function function)]⟩⟩

/-- The state before the block is entered, and the one from which the function is called. -/
def Shadowed.outside : Environment :=
  ⟨#[global], some 0⟩

@[inherit_doc Shadowed.outside]
def Shadowed.inside : Environment :=
  ⟨#[global, ⟨"block", 2, .block, some 0, ⟨[("x", .variable (.unset "x" .var))]⟩⟩], some 1⟩

/-- A native function that the script can call. -/
def Shadowed.one : NativeFunction :=
  .plain "one" (some 0) fun _ => .ok (.int 1)

/-- The function is called before the block and, when the native function has been called, inside. -/
def Shadowed.machine (env : Environment) : Machine Environment :=
  { Machine.fresh env with natives := Table.empty.insert "one" one }

@[inherit_doc Shadowed.machine]
def Shadowed.later : Machine Environment :=
  (machine inside).afterCall ⟨"one", [], .number⟩ one []

open Shadowed in
theorem calls_see_declaration_shadowed :
    outside.Reached ∧ inside.Reached ∧
      (∀ i, outside.OnChain 0 i → inside.scope? i = outside.scope? i) ∧
      global.get? "f" = some (.function function) ∧ (machine outside).calls.size ≠ later.calls.size ∧
      let left := EvalM.applyFunction (evalStmt 5) function [.bool true] ⟨.empty, ⟨true, false⟩⟩
        (machine outside)
      let right := EvalM.applyFunction (evalStmt 5) function [.bool true] ⟨.empty, ⟨true, false⟩⟩ later
      left.1 = right.1 ∧ AddedAlike #[] #[] left.2.trace right.2.trace ∧
        Environment.Matched 0 outside inside left.2.scopes right.2.scopes := by
  have houtside : outside.Reached :=
    ⟨[], 9, program, ⟨.empty, ⟨true, false⟩⟩, List.mem_of_getElem? (i := 7) (by cbv)⟩
  have hinside : inside.Reached :=
    ⟨[], 9, program, ⟨.empty, ⟨true, false⟩⟩, List.mem_of_getElem? (i := 5) (by cbv)⟩
  have hsame : ∀ i, outside.OnChain 0 i → inside.scope? i = outside.scope? i := by
    intro i hi
    cases hi with
    | self => rfl
    | outer ha hp =>
      cases ha
      cases hp
  have hf : global.get? "f" = some (.function function) := by cbv
  have hpure : ∀ name g, (machine outside).natives.get? name = some g → g.Pure := by
    intro name g hg
    simp only [machine, Table.get?_insert] at hg
    split at hg
    · cases hg
      exact fun _ _ _ => rfl
    · cases hg
  exact ⟨houtside, hinside, hsame, hf, Nat.zero_ne_one,
    calls_see_declaration (m := machine outside) (n := later) houtside hinside rfl (.inr hpure)
      (j := 0) rfl hsame hf [.bool true] 5 ⟨.empty, ⟨true, false⟩⟩⟩

end Tremolo
