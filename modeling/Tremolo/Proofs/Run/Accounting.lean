import Mathlib
import Tremolo.Proofs.Run.Shape
import Tremolo.Proofs.Run.Upkeep

/-! # The record of assignments accounts for final values

A name that is declared at top level and nowhere else stands for one global variable, from wherever it is
assigned: no scope but the outermost one ever binds it.  So the variable holds what was put on record
last (`Accounts`), through all blocks, loops and calls (`Upkeep.accounting`). -/

namespace Tremolo

/-! ## Declared names -/

mutual

/-- All names that a statement or a statement in it declares, parameters included. -/
def Stmt.declaredNames : Stmt → List String
  | .declare _ names => names
  | .define name params body => name :: params ++ namesDeclaredIn body
  | .block body | .when _ body | .loop _ body => namesDeclaredIn body
  | .skip | .assign .. | .ret .. | .expr .. => []

/-- All names that some of the statements declare. -/
def namesDeclaredIn : List Stmt → List String
  | [] => []
  | s :: rest => s.declaredNames ++ namesDeclaredIn rest

end

theorem mem_namesDeclaredIn {x : String} {body : List Stmt} :
    x ∈ namesDeclaredIn body ↔ ∃ s ∈ body, x ∈ s.declaredNames := by
  induction body with
  | nil => simp [namesDeclaredIn]
  | cons s rest ih => simp [namesDeclaredIn, ih]

theorem Stmt.inner_declaredNames {s t : Stmt} (ht : t ∈ s.inner) {x : String}
    (hx : x ∈ t.declaredNames) : x ∈ s.declaredNames := by
  have hbody : x ∈ namesDeclaredIn s.inner := mem_namesDeclaredIn.2 ⟨t, ht, hx⟩
  cases s with
  | block | when | loop => exact hbody
  | define name params body => exact List.mem_cons_of_mem _ (List.mem_append_right _ hbody)
  | skip | declare | assign | ret | expr => cases ht

/-- One statement at top level declares a variable of the name, and no other statement declares it. -/
def Program.DeclaresOnce (p : Program) (x : String) : Prop :=
  ∃ front type names back, p.body = front ++ .declare type names :: back ∧ x ∈ names ∧
    ∀ s ∈ front ++ back, x ∉ s.declaredNames

/-! ## The last assignment -/

/-- The value that was assigned to the name last. -/
def lastAssigned (trace : Array (String × TypedValue)) (x : String) : Option TypedValue :=
  trace.toList.reverse.lookup x

section LastAssigned

variable {trace : Array (String × TypedValue)} {x : String}

theorem lastAssigned_push (name : String) (value : TypedValue) :
    lastAssigned (trace.push (name, value)) x =
      if x = name then some value else lastAssigned trace x := by
  rw [lastAssigned, Array.toList_push, List.reverse_concat, Table.lookup_cons]
  rfl

theorem lastAssigned_eq_none : lastAssigned trace x = none ↔ ∀ entry ∈ trace, entry.1 ≠ x := by
  rw [lastAssigned, List.lookup_eq_none_iff]
  simp only [List.mem_reverse, Array.mem_toList_iff, bne_iff_ne]
  exact forall₂_congr fun _ _ => ne_comm

theorem lastAssigned_eq_some {front back : List (String × TypedValue)} {v : TypedValue}
    (htrace : trace.toList = front ++ (x, v) :: back) (hback : ∀ entry ∈ back, entry.1 ≠ x) :
    lastAssigned trace x = some v := by
  have hnone : back.reverse.lookup x = none := by
    rw [List.lookup_eq_none_iff]
    simpa [ne_comm] using hback
  rw [lastAssigned, htrace, List.reverse_append, List.reverse_cons, List.append_assoc,
    List.lookup_append, hnone, Option.none_or, List.singleton_append, Table.lookup_cons, if_pos rfl]

end LastAssigned

/-! ## The invariant -/

/-- The value that a variable holds. -/
def Symbol.heldValue? : Symbol → Option Value
  | .variable v => v.value.map (·.value)
  | _ => none

/-- The value of the variable that the scope binds to a name. -/
def Scope.heldValue? (a : Scope) (x : String) : Option Value :=
  (a.get? x).bind Symbol.heldValue?

/-- If the symbol is a function, calls of it declare other names only. -/
def Symbol.Spares (x : String) (y : Symbol) : Prop :=
  ∀ f, y = .function f → x ∉ f.params ∧ ∀ s ∈ f.body, x ∉ s.declaredNames

/-- The outermost scope alone may bind the name, and holds for it the value on record last. -/
structure Accounts (x : String) (m : Machine Environment) : Prop where
  apart : ∀ i a, m.scopes.scope? i = some a → 0 < i → a.get? x = none
  functions : m.scopes.Holds (Symbol.Spares x)
  outermost : ∃ a, m.scopes.scope? 0 = some a ∧ a.symbols.names.Nodup ∧
    a.heldValue? x = (lastAssigned m.trace x).map (·.value)

namespace Accounts

open Environment

variable {x : String} {m : Machine Environment}

theorem openGlobal : Accounts x (.fresh empty.openGlobal) := by
  have htypes : empty.openGlobal.Holds fun y => y.heldValue? = none := holds_openGlobal fun _ _ => rfl
  refine ⟨fun i a ha hi => ?_, holds_openGlobal fun _ _ f hf => (by cases hf), ?_⟩
  · exact absurd hi (Nat.not_lt.2 (Nat.le_of_lt_succ (lt_depth_of_scope? ha)))
  · obtain ⟨a, ha⟩ : ∃ a, empty.openGlobal.scope? 0 = some a := scope?_of_lt_depth (by decide)
    have hdistinct : ∀ a, empty.openGlobal.scope? 0 = some a → a.symbols.names.Nodup := by decide
    exact ⟨a, ha, hdistinct a ha, Option.bind_eq_none_iff.2 fun y hy => htypes.get? ha hy⟩

variable (h : Accounts x m)

include h

/-- One symbol is put under a name, and the record may grow.  If the name is the one accounted for, the
    two must agree afterwards. -/
theorem put {i : ScopeId} {name : String} {y : Symbol} {trace : Array (String × TypedValue)}
    (hy : y.Spares x) (hother : name ≠ x → lastAssigned trace x = lastAssigned m.trace x)
    (hput : name = x → i = 0 ∧ y.heldValue? = (lastAssigned trace x).map (·.value)) :
    Accounts x { m with
      scopes := m.scopes.modifyScope i fun a => { a with symbols := a.symbols.insert name y }
      trace := trace } := by
  have hget : ∀ a : Scope, ({ a with symbols := a.symbols.insert name y } : Scope).get? x =
      if x = name then some y else a.get? x :=
    fun a => Table.get?_insert a.symbols name x y
  refine ⟨fun j b hb hj => ?_, h.functions.modify fun a key z _ hz => ?_, ?_⟩
  · rw [scope?_modifyScope] at hb
    by_cases hij : i = j
    · rw [if_pos hij] at hb
      obtain ⟨a, ha, rfl⟩ := Option.map_eq_some_iff.1 hb
      -- What is put into an inner scope has another name.
      have hname : x ≠ name := fun hname => hj.ne' (hij.symm.trans (hput hname.symm).1)
      rw [hget, if_neg hname]
      exact h.apart j a ha hj
    · rw [if_neg hij] at hb
      exact h.apart j b hb hj
  · rcases Table.mem_insert hz with hnew | hold
    · cases hnew
      exact .inr hy
    · exact .inl hold
  · obtain ⟨a, ha, hdistinct, hbalance⟩ := h.outermost
    by_cases hi : i = 0
    · refine ⟨_, by rw [scope?_modifyScope, if_pos hi, ha]; rfl, Table.nodup_insert hdistinct name y, ?_⟩
      rw [Scope.heldValue?, hget]
      by_cases hname : name = x
      · rw [if_pos hname.symm, Option.bind_some, (hput hname).2]
      · rw [if_neg (Ne.symm hname), hother hname]
        exact hbalance
    · have hname : name ≠ x := fun hname => hi (hput hname).1
      refine ⟨a, by rw [scope?_modifyScope, if_neg hi, ha], hdistinct, ?_⟩
      rw [hother hname]
      exact hbalance

theorem insert {y : Symbol} (hy : y.Spares x) (hnew : m.scopes.lookupHere y.name = none)
    (hput : y.name = x → m.scopes.current = some 0 ∧ y.heldValue? = none) :
    Accounts x { m with scopes := m.scopes.insert y } := by
  unfold Environment.insert
  cases hcurrent : m.scopes.current with
  | none => exact h
  | some i =>
    refine h.put hy (fun _ => rfl) fun hname => ?_
    obtain ⟨hzero, hnone⟩ := hput hname
    cases hcurrent.symm.trans hzero
    obtain ⟨a, ha, -, hbalance⟩ := h.outermost
    -- A name that is new holds no value, so none is on record.
    simp only [lookupHere, hcurrent, ha, Option.bind_some, hname] at hnew
    rw [Scope.heldValue?, hnew, Option.bind_none] at hbalance
    exact ⟨rfl, hnone.trans hbalance⟩

theorem assign {host : Host} (htrace : host.config.trace = true) {name : String} {value : TypedValue}
    {after : Environment} (hafter : m.scopes.assign name value = .stored after) :
    Accounts x (EvalM.record name value host { m with scopes := after }).2 := by
  obtain ⟨i, a, v, w, -, ha, hv, hw, rfl⟩ := assign_stored hafter
  have hvalue : (Symbol.variable w).heldValue? = some value.value := by
    rw [Symbol.heldValue?, (Variable.assign_ok hw).2.2, Option.map_some, Variable.storedAs]
    split <;> rfl
  -- The assignment went to the nearest variable of the name, and there is but one.
  have hzero : name = x → i = 0 := by
    rintro rfl
    by_contra hi
    rw [h.apart i a ha (Nat.pos_of_ne_zero hi)] at hv
    cases hv
  rw [EvalM.record, if_pos htrace]
  refine h.put (y := .variable w) (fun _ hf => by cases hf) (fun hname => ?_) fun hname => ?_
  · rw [lastAssigned_push, if_neg (Ne.symm hname)]
  · rw [lastAssigned_push, if_pos hname.symm]
    exact ⟨hzero hname, hvalue⟩

/-- Nothing else in the machine matters. -/
theorem congr {n : Machine Environment} (hscopes : n.scopes = m.scopes) (htrace : n.trace = m.trace) :
    Accounts x n := by
  refine ⟨?_, ?_, ?_⟩
  · rw [hscopes]
    exact h.apart
  · rw [hscopes]
    exact h.functions
  · rw [hscopes, htrace]
    exact h.outermost

theorem push (name : String) (level : Nat) (kind : ScopeKind) (parent : Option ScopeId) :
    Accounts x { m with scopes := m.scopes.push (.fresh name level kind parent) } := by
  refine ⟨fun i a ha hi => ?_, h.functions.push name level kind parent, ?_⟩
  · rw [scope?_push] at ha
    split at ha
    · cases ha
      rfl
    · exact h.apart i a ha hi
  · obtain ⟨a, ha, hbalance⟩ := h.outermost
    exact ⟨a, by rw [scope?_push, if_neg (Nat.ne_of_lt (lt_depth_of_scope? ha)), ha], hbalance⟩

theorem close (hdepth : 1 < m.scopes.depth) (restore : Option ScopeId) :
    Accounts x { m with scopes := m.scopes.closeScope restore } := by
  refine ⟨fun i a ha hi => ?_, h.functions.close restore, ?_⟩
  · rw [scope?_closeScope] at ha
    split at ha
    · exact h.apart i a ha hi
    · cases ha
  · obtain ⟨a, ha, hbalance⟩ := h.outermost
    exact ⟨a, by rw [scope?_closeScope, if_pos (Nat.sub_pos_of_lt hdepth), ha], hbalance⟩

/-- What is done in a new scope is accounted for like the rest. -/
theorem opens {before : Environment} (hkept : before.Kept (fun _ => True) m.scopes) {name : String}
    {kind : ScopeKind} {parent : ScopeId}
    (hcall : kind = .function → ∃ outer, m.scopes.scope? parent = some outer ∧
      ∃ f, outer.get? name = some (.function f))
    {inside : Environment → Prop} (hinside : ∀ env, inside env) :
    m.Opens (fun w n => w.Kept (fun _ => True) n.scopes ∧ Accounts x n) inside
      (fun n => before.Kept (fun _ => True) n.scopes ∧ Accounts x n) name kind parent := by
  intro scopes hopen
  obtain ⟨outer, houter, hpush⟩ := Option.map_eq_some_iff.1 hopen
  subst hpush
  have hentered := hkept.push houter fun hkind => by
    obtain ⟨a, ha, hf⟩ := hcall hkind
    cases houter.symm.trans ha
    exact hf
  refine ⟨_, hinside _, ⟨hentered, h.push ..⟩, fun n hn => ⟨hkept.close hn.1, hn.2.close ?_ _⟩⟩
  rw [hn.1.later.depth, depth_push]
  exact Nat.succ_lt_succ (Nat.zero_lt_of_lt (lt_depth_of_scope? houter))

end Accounts

open Environment in
/-- Evaluation accounts for a name that is declared at top level only. -/
def Upkeep.accounting (host : Host) (htrace : host.config.trace = true) (x : String) :
    Upkeep Environment host where
  World := Environment
  Inv w m := w.Kept (fun _ => True) m.scopes ∧ Accounts x m
  Binds w v := v.name = x → w.current = some 0 ∧ v.value = none
  May w s := x ∈ s.declaredNames → w.current = some 0 ∧ ∃ type names, s = .declare type names
  Inner s := x ∉ s.declaredNames
  inner {w s} hmay t ht hx := by
    obtain ⟨-, type, names, rfl⟩ := hmay (s.inner_declaredNames ht hx)
    cases ht
  declares {w type names} hmay name hname _ hx := by
    obtain rfl : name = x := hx
    have hdeclared : name ∈ Stmt.declaredNames (.declare type names) := hname
    exact ⟨(hmay hdeclared).1, rfl⟩
  bind {w m v} hm hbinds hnew := by
    refine ⟨hm.1.insert hnew (by simp) (by simp), hm.2.insert (fun _ hf => by cases hf) hnew ?_⟩
    intro hx
    obtain ⟨hcurrent, hvalue⟩ := hbinds hx
    exact ⟨hm.1.later.current.trans hcurrent, by rw [Symbol.heldValue?, hvalue]; rfl⟩
  define {w m name params body i} hm hmay hnew hcurrent := by
    have hspared : x ∉ Stmt.declaredNames (.define name params body) := by
      intro hx
      obtain ⟨-, type, names, heq⟩ := hmay hx
      cases heq
    simp only [Stmt.declaredNames, List.cons_append, List.mem_cons, List.mem_append, not_or,
      mem_namesDeclaredIn, not_exists, not_and] at hspared
    obtain ⟨hname, hparams, hbody⟩ := hspared
    refine ⟨hm.1.insert hnew (by rintro f ⟨⟩; exact hcurrent) (by simp), hm.2.insert ?_ hnew ?_⟩
    · rintro f ⟨⟩
      exact ⟨hparams, hbody⟩
    · exact fun hx => absurd hx.symm hname
  assign hm hstored := by
    refine ⟨?_, hm.2.assign htrace hstored⟩
    rw [EvalM.record_scopes]
    exact hm.1.assign hstored
  invoke _ _ _ hm := ⟨hm.1, hm.2.congr rfl rfl⟩
  block hm _ := hm.2.opens hm.1 (by simp) fun _ s hs hx => absurd hx hs
  call {w m name f} hm hf := by
    have hspares := hm.2.functions.lookup hf f rfl
    -- Arguments are evaluated in a world that begins here, so that the function stays in its place.
    refine ⟨m.scopes, ⟨.refl hm.1.disciplined hm.1.externals, hm.2⟩, fun n hn => ?_⟩
    obtain ⟨hback, hfound⟩ := hm.1.function hf hn.1
    refine ⟨⟨hback, hn.2⟩, hn.2.opens hback (fun _ => hfound) fun _ => ⟨fun s hs hx => ?_, ?_⟩⟩
    · exact absurd hx (hspares.2 s hs)
    · rintro v hv rfl
      exact absurd hv hspares.1

/-! ## Programs -/

section Programs

open Environment EvalM

variable {host : Host} (htrace : host.config.trace = true) {x : String}

theorem Upkeep.accounting_echo (w : Environment) (value : TypedValue) (m : Machine Environment)
    (hm : (accounting host htrace x).Inv w m) :
    (accounting host htrace x).Inv w (echo value host m).2 := by
  have hscopes := echo_scopes value host m
  refine ⟨?_, hm.2.congr hscopes ?_⟩
  · rw [hscopes]
    exact hm.1
  · unfold echo
    dsimp only
    split <;> rfl

/-- Types and native functions hold no values, whatever their names are. -/
theorem Upkeep.accounting_header (header : Header) :
    EvalM.Keeps host ((accounting host htrace x).Inv empty.openGlobal) (declareHeader header) := by
  refine declareHeader_keeps header ?_ ?_
  · intro m name _ hm hnew
    refine ⟨hm.1.insert (x := .type name) hnew (by simp) (by simp), ?_⟩
    exact hm.2.insert (fun _ hf => by cases hf) hnew fun _ => ⟨hm.1.later.current, rfl⟩
  · intro m f callable _ _ _ _ _ _ _ _ hm hnew
    have hinsert : Accounts x { m with scopes := m.scopes.insert (.external f) } :=
      hm.2.insert (fun _ hf => by cases hf) hnew fun _ => ⟨hm.1.later.current, rfl⟩
    exact ⟨hm.1.insert (x := .external f) hnew (by simp) (by simp), hinsert.congr rfl rfl⟩

namespace Program.DeclaresOnce

variable {p : Program} (h : p.DeclaresOnce x)

include h

theorem may : ∀ s ∈ p.body, (Upkeep.accounting host htrace x).May empty.openGlobal s := by
  obtain ⟨front, type, names, back, hbody, -, hothers⟩ := h
  intro s hs hx
  rw [hbody, List.mem_append, List.mem_cons] at hs
  rcases hs with hs | rfl | hs
  · exact absurd hx (hothers s (List.mem_append_left _ hs))
  · exact ⟨rfl, type, names, rfl⟩
  · exact absurd hx (hothers s (List.mem_append_right _ hs))

include htrace in
theorem run_accounts {m : Machine Environment} (hm : m.scopes = .empty) (fuel : Nat) :
    Accounts x (m.run fuel p host).2 := by
  have hbody : EvalM.Keeps host ((Upkeep.accounting host htrace x).Inv empty.openGlobal)
      (evalBody fuel p.body) := by
    intro n hn
    refine (Upkeep.evalBody_keeps (Upkeep.accounting_echo htrace _) fuel (fun s hs => ?_) n hn).kept
    exact ((Upkeep.accounting host htrace x).eval_keeps fuel).2 _ s (h.may htrace s hs)
  have hkeeps := evalProgram_keeps (fun header _ => Upkeep.accounting_header htrace header) hbody
  have hopen : (ScopeStore.openGlobal m.scopes : Environment) = empty.openGlobal := by
    rw [hm]
    rfl
  unfold Machine.run
  rw [hopen]
  exact (hkeeps _ ⟨.refl disciplined_openGlobal (externalsIn_openGlobal _), .openGlobal⟩).2

theorem mem_variableNames : x ∈ p.body.flatMap Stmt.variableNames := by
  obtain ⟨front, type, names, back, hbody, hx, -⟩ := h
  rw [hbody]
  exact List.mem_flatMap.2 ⟨.declare type names, by simp, hx⟩

end Program.DeclaresOnce

/-- A global variable is reported with the value that its scope holds for it. -/
theorem Environment.Disciplined.lookup_variablesHere {env : Environment} (h : env.Disciplined)
    {a : Scope} (ha : env.current.bind env.scope? = some a) (hdistinct : a.symbols.names.Nodup)
    (hvariables : env.variableNames.Nodup) (hx : x ∈ env.variableNames) :
    ∃ value, env.variablesHere.lookup x = some value ∧ value.map (·.value) = a.heldValue? x := by
  obtain ⟨⟨_, value⟩, hmem, rfl⟩ := List.mem_map.1 hx
  have hlookup : (Table.mk env.variablesHere).get? _ = some value := Table.get?_of_mem hvariables hmem
  refine ⟨value, hlookup, ?_⟩
  simp only [variablesHere, ha] at hmem
  obtain ⟨y, hy, hentry⟩ := List.mem_filterMap.1 hmem
  obtain ⟨⟨key, z⟩, hkey, rfl⟩ := List.mem_map.1 hy
  obtain ⟨i, -, hi⟩ := Option.bind_eq_some_iff.1 ha
  obtain rfl : z.name = key := ((h.fits i a hi).held key z hkey).1
  cases z with
  | «variable» v =>
    cases hentry
    have hget : a.get? v.name = some (.variable v) := Table.get?_of_mem hdistinct hkey
    rw [Scope.heldValue?, hget]
    rfl
  | type | function | external => cases hentry

include htrace in
/-- The variable is reported with the value that was put on record last. -/
theorem Program.DeclaresOnce.lookup_globals {p : Program} (h : p.DeclaresOnce x)
    {m : Machine Environment} (hm : m.scopes = .empty) {fuel : Nat} {execution : Execution}
    (hdone : (m.run fuel p host).1 = .done execution) :
    ∃ current, execution.globals.lookup x = some current ∧
      current.map (·.value) = (lastAssigned (m.run fuel p host).2.trace x).map (·.value) := by
  have hkept := Machine.run_kept hm fuel p host
  have hdeclared := (Machine.run_take_shape (x := execution) hm fuel p host p.body.length
    (Nat.le_refl _) (by rwa [List.take_length])).2
  rw [List.take_length] at hdeclared
  obtain ⟨a, ha, hdistinct, hbalance⟩ := (h.run_accounts htrace hm fuel).outermost
  -- The global scope is the only one left, so what is reported is read from it.
  have hhere : (m.run fuel p host).2.scopes.current.bind (m.run fuel p host).2.scopes.scope? =
      some a := by
    rw [hkept.later.current]
    exact ha
  have hmem : x ∈ (m.run fuel p host).2.scopes.variableNames := by
    rw [hdeclared.names]
    exact List.mem_append_right _ h.mem_variableNames
  obtain ⟨current, hlookup, hcurrent⟩ := hkept.disciplined.lookup_variablesHere hhere hdistinct
    (hdeclared.distinct (by decide)) hmem
  have hglobals : execution.globals = (m.run fuel p host).2.scopes.variablesHere :=
    evalProgram_globals hdone
  exact ⟨current, by rw [hglobals, hlookup], hcurrent.trans hbalance⟩

end Programs

/-- In a run that is on record and succeeds, a name that one declaration at top level and nothing else
    declares is reported as a global variable without a value if there is no assignment to it on record,
    and otherwise with the value assigned last. -/
theorem trace_accounts_for_globals (earlier : List (Nat × Program × Host)) (fuel : Nat) (p : Program)
    (host : Host) (htrace : host.config.trace = true) (x : String) (hx : p.DeclaresOnce x) :
    let start : Machine Environment := .after earlier
    let run := start.execute fuel p host
    ∀ execution, run.1 = .done execution →
      ∃ current, execution.globals.lookup x = some current ∧
        (current = none ↔ ∀ entry ∈ run.2.trace, entry.1 ≠ x) ∧
        ∀ front v back, run.2.trace.toList = front ++ (x, v) :: back →
          (∀ entry ∈ back, entry.1 ≠ x) → ∃ w, current = some w ∧ w.value = v.value := by
  intro start run execution hdone
  obtain ⟨current, hlookup, hlast⟩ := hx.lookup_globals htrace (Machine.after_scopes earlier) hdone
  -- Leaving the global scope does not change what is on record.
  change current.map (·.value) = (lastAssigned run.2.trace x).map (·.value) at hlast
  refine ⟨current, hlookup, ?_, fun front v back hsplit hback => ?_⟩
  · rw [← lastAssigned_eq_none, ← Option.map_eq_none_iff (f := TypedValue.value), hlast,
      Option.map_eq_none_iff]
  · rw [lastAssigned_eq_some hsplit hback] at hlast
    obtain ⟨w, hw, hvalue⟩ := Option.map_eq_some_iff.1 hlast
    exact ⟨w, hw, hvalue⟩

/-- A program that assigns one variable from a loop, a block and recursive calls, another from the loop
    alone, and a third not at all. -/
def Summing.program : Program :=
  ⟨none, [.declare "NUMBER" ["n", "sum", "spare"],
    .define "add" ["k"] [.when (.cond .gt (.var "k") (.int 0))
      [.assign "sum" (.binary .add (.var "sum") (.var "k")),
        .expr (.call "add" [.binary .sub (.var "k") (.int 1)])]],
    .assign "sum" (.int 1), .assign "n" (.int 0),
    .loop (.cond .lt (.var "n") (.int 2))
      [.block [.assign "n" (.binary .add (.var "n") (.int 1)), .declare "VAR" ["k"]],
        .expr (.call "add" [.var "n"])]]⟩

def Summing.execution : Execution :=
  ⟨[], [("n", some ⟨.number, .int 2⟩), ("sum", some ⟨.number, .int 5⟩), ("spare", none)]⟩

def Summing.run : Outcome Execution × Machine Environment :=
  (Machine.after []).execute 20 program ⟨.empty, ⟨true, false⟩⟩

open Summing in
theorem trace_accounts_for_globals_summing :
    program.DeclaresOnce "sum" ∧ program.DeclaresOnce "spare" ∧ run.1 = .done execution ∧
      (∃ w, execution.globals.lookup "sum" = some (some w) ∧ w.value = .int 5) ∧
      execution.globals.lookup "spare" = some none := by
  have hsum : program.DeclaresOnce "sum" :=
    ⟨[], _, _, program.body.tail, rfl, by decide, by decide⟩
  have hspare : program.DeclaresOnce "spare" :=
    ⟨[], _, _, program.body.tail, rfl, by decide, by decide⟩
  have hdone : run.1 = .done execution := by cbv
  have htrace : run.2.trace.toList = [("sum", ⟨.number, .int 1⟩), ("n", ⟨.number, .int 0⟩),
      ("n", ⟨.number, .int 1⟩), ("sum", ⟨.number, .int 2⟩), ("n", ⟨.number, .int 2⟩),
      ("sum", ⟨.number, .int 4⟩)] ++ ("sum", ⟨.number, .int 5⟩) :: [] := by cbv
  obtain ⟨total, htotal, -, hlast⟩ :=
    trace_accounts_for_globals [] 20 program ⟨.empty, ⟨true, false⟩⟩ rfl "sum" hsum execution hdone
  obtain ⟨w, rfl, hw⟩ := hlast _ _ _ htrace (by simp)
  obtain ⟨unset, hunset, hnone, -⟩ :=
    trace_accounts_for_globals [] 20 program ⟨.empty, ⟨true, false⟩⟩ rfl "spare" hspare execution hdone
  refine ⟨hsum, hspare, hdone, ⟨w, htotal, hw⟩, ?_⟩
  rw [hunset, hnone.2]
  intro entry hentry
  rw [← Array.mem_toList_iff] at hentry
  have hnames : run.2.trace.toList.all fun entry => entry.1 != "spare" := by
    rw [htrace]
    decide
  exact bne_iff_ne.1 (List.all_eq_true.1 hnames entry hentry)

end Tremolo
