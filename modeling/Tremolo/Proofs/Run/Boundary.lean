import Mathlib
import Tremolo.Proofs.Run.Typing

/-! # The boundary to native functions

What crosses the boundary is decided by the header of the program alone.  Every call goes through a
function that the header declares, to the callable that the named module provides, with arguments as
declared; and a value carries a declared type only if a native call gave it that type.

* `declared_types_unforgeable` — where the values of declared types come from;
* `native_calls_respect_signatures` — what native functions get and give. -/

namespace Tremolo

/-! ## Values of declared types -/

/-- Between two machines a value got a declared type in a rightful way: it had the type before, or a
    native call in between gave it. -/
def Machine.Obtains (before after : Machine Environment) (n : String) (x : Value) : Prop :=
  before.scopes.Stores n x ∨
    ∃ j call, before.calls.size ≤ j ∧ after.calls[j]? = some call ∧ call.Gives n x

/-- From this machine on, no evaluation gives a value a declared type by other means than a native call,
    nor stores one. -/
structure Machine.Unforging (host : Host) (m : Machine Environment) : Prop where
  expr : ∀ fuel e v n, (evalExpr fuel e host m).1 = .done v → ValueType.accepts (.named n) v = true →
    m.Obtains (evalExpr fuel e host m).2 n v.value
  returned : ∀ fuel s v n, (evalStmt fuel s host m).1 = .done (.returned v) →
    ValueType.accepts (.named n) v = true → m.Obtains (evalStmt fuel s host m).2 n v.value
  stored : ∀ fuel s n x, (evalStmt fuel s host m).2.scopes.Stores n x →
    m.Obtains (evalStmt fuel s host m).2 n x

section Resumed

variable {o : Outset} {m after : Machine Environment} {n : String}

theorem Outset.Vouched.obtains {x : Value}
    (h : (o.resumed m).Vouched after.calls after.calls.size n x) : m.Obtains after n x := by
  cases h with
  | inl hheld => exact .inl hheld
  | inr hgiven =>
    obtain ⟨j, call, hj, -, hcall, hgives⟩ := hgiven
    exact .inr ⟨j, call, hj, hcall, hgives⟩

theorem Outset.Allows.obtains {v : TypedValue} (h : (o.resumed m).Allows after.calls v)
    (haccepts : ValueType.accepts (.named n) v = true) : m.Obtains after n v.value :=
  (h.vouched n (ValueType.accepts_named.1 haccepts)).obtains

theorem Environment.Stores.vouched {env : Environment} {calls : Array NativeCall} {x : Value}
    (h : env.Stores n x) (henv : env.Holds (Symbol.Lawful o calls)) :
    o.Vouched calls calls.size n x := by
  obtain ⟨i, scope, key, v, hscope, hentry, hvalue⟩ := h
  have hgenuine : v.Genuine _ _ := henv i scope key (.variable v) hscope hentry
  exact hgenuine.vouched _ n hvalue rfl

theorem Machine.Lawful.unforging (h : m.Lawful Environment.custody (o.resumed m)) (host : Host) :
    m.Unforging host := by
  refine ⟨?_, ?_, ?_⟩
  · intro fuel e v n hv haccepts
    exact ((h.ended_expr host fuel e).result v hv).obtains haccepts
  · intro fuel s v n hv haccepts
    exact Outset.Allows.obtains ((h.ended_stmt host fuel s).result _ hv) haccepts
  · intro fuel s n x hstores
    exact (hstores.vouched (h.ended_stmt host fuel s).kept.scopes).obtains

end Resumed

theorem NativeCall.Proper.argument {o : Outset} {serial : Nat} {vouched : String → Value → Prop}
    {call : NativeCall} (h : call.Proper o serial vouched) {i : Nat} {type : ValueType}
    (hparameter : call.function.parameterTypes[i]? = some type) :
    ∃ arg, call.args[i]? = some arg ∧ type.accepts arg = true := by
  obtain ⟨hlength, haccepts⟩ := List.forall₂_iff_get.1 h.accepted
  obtain ⟨hlt, rfl⟩ := List.getElem?_eq_some_iff.1 hparameter
  have hlt' : i < call.args.length := by omega
  exact ⟨call.args.get ⟨i, hlt'⟩, List.getElem?_eq_getElem hlt', haccepts i hlt hlt'⟩

/-- An argument for a parameter of a declared type is a value that an earlier call of the same run
    returned under that type.  So is every value that is ever stored under it, and from no state that
    a run passes through can evaluation come by another one. -/
theorem declared_types_unforgeable (earlier : List (Nat × Program × Host)) (fuel : Nat)
    (p : Program) (host : Host) :
    let start : Machine Environment := .after earlier
    let run := start.execute fuel p host
    (∀ (k : Nat) (call : NativeCall) (i : Nat) (n : String), run.2.calls[k]? = some call →
      call.function.parameterTypes[i]? = some (.named n) →
      ∃ x, (call.args.map (·.value))[i]? = some x ∧
        ∃ j < k, ∃ earlier, run.2.calls[j]? = some earlier ∧ earlier.Gives n x) ∧
    ∀ env ∈ start.visited fuel p host,
      (∀ n x, env.Stores n x → ∃ call ∈ run.2.calls, call.Gives n x) ∧
      ∀ m : Machine Environment, m.scopes = env → m.natives = run.2.natives → m.Unforging host := by
  intro start run
  have hrun : LawfulRun _ _ run := Machine.execute_lawful (Machine.after_scopes earlier) fuel p host
  refine ⟨?_, fun env henv => ⟨?_, ?_⟩⟩
  · intro k call i n hcall hparameter
    have hproper := hrun.calls k call hcall
    obtain ⟨arg, harg, haccepts⟩ := hproper.argument hparameter
    refine ⟨arg.value, by rw [List.getElem?_map, harg]; rfl, ?_⟩
    -- Nothing has a declared type before the run, so a call of the run has given it.
    have hvouched := (hproper.genuine arg (List.mem_of_getElem? harg)).vouched n
      (ValueType.accepts_named.1 haccepts)
    obtain ⟨j, earlier, -, hj, hearlier, hgives⟩ := hvouched.resolve_left id
    exact ⟨j, hj, earlier, hearlier, hgives⟩
  · intro n x hstores
    have hvouched := hstores.vouched (hrun.states env henv)
    obtain ⟨j, call, -, -, hcall, hgives⟩ := hvouched.resolve_left id
    exact ⟨call, Array.mem_of_getElem? hcall, hgives⟩
  · intro m hscopes hnatives
    subst hscopes
    exact (hrun.resumed henv hnatives).unforging host

open Player in
theorem declared_types_unforgeable_player :
    (∃ (call : NativeCall) (x : Value), run.2.calls[1]? = some call ∧
      call.function.parameterTypes[0]? = some (.named "SOUND") ∧
      (call.args.map (·.value))[0]? = some x ∧
        ∃ j < 1, ∃ earlier, run.2.calls[j]? = some earlier ∧ earlier.Gives "SOUND" x) ∧
    last ∈ (Machine.after []).visited 9 program host ∧ last.Stores "SOUND" sound.value ∧
      (∃ call ∈ run.2.calls, call.Gives "SOUND" sound.value) ∧ machine.Unforging host := by
  have hstores : last.Stores "SOUND" sound.value :=
    ⟨0, globals, "s", ⟨"s", .var, some sound⟩, rfl, by simp [globals], rfl⟩
  obtain ⟨hcalls, hstates⟩ := declared_types_unforgeable [] 9 program host
  obtain ⟨hstored, hunforging⟩ := hstates last last_visited
  have hparameter : (run.2.calls[1]?.bind (·.function.parameterTypes[0]?)) = some (.named "SOUND") := by
    cbv
  obtain ⟨call, hcall, hparameter⟩ := Option.bind_eq_some_iff.1 hparameter
  obtain ⟨x, hx, hgiven⟩ := hcalls 1 call 0 "SOUND" hcall hparameter
  exact ⟨⟨call, x, hcall, hparameter, hx, hgiven⟩, last_visited, hstores, hstored _ _ hstores,
    hunforging machine rfl rfl⟩

/-! ## Signatures -/

/-- What a call through the signature gives when the native function returns the result. -/
def Signature.Yields (s : Signature) (result : Value) (v : TypedValue) : Prop :=
  match s.returnType with
  | none => v = .null
  | some name => v = ⟨.ofName name, result⟩ ∧ (ValueType.ofName name).accepts v = true

theorem Signature.yields_of_accept {s : Signature} {result : Value} {v : TypedValue}
    (h : s.external.accept result = .ok v) : s.Yields result v := by
  unfold Signature.Yields
  have haccept := ExternalFunction.accept_ok h
  cases hreturn : s.returnType with
  | none =>
    simp only [Signature.external, hreturn] at haccept
    simpa using haccept
  | some name =>
    have hnull := ValueType.ofName_ne_null name
    simp only [Signature.external, hreturn, Option.map_some, Option.getD_some] at haccept
    simpa [hnull] using haccept

/-- The result of a native call is what the last call on record, to the callable under its name, returned
    under the declared type. -/
theorem EvalM.call_external {eval : Expr → EvalM Environment TypedValue}
    {exec : Stmt → EvalM Environment Flow} {name : String} {args : List Expr} {host : Host}
    {m : Machine Environment} {f : ExternalFunction} {v : TypedValue}
    (hfound : m.scopes.lookup name = some (.external f))
    (hv : (call eval exec name args host m).1 = .done v) :
    ∃ callable values result, f.accept result = .ok v ∧
      (call eval exec name args host m).2.natives.get? f.name = some callable ∧
      (call eval exec name args host m).2.calls.back? = some ⟨f, callable, values, .ok result⟩ := by
  have hcall : call eval exec name args host m =
      (arguments eval f.name f.parameterTypes args >>= applyExternal f) host m := by
    have hlookup : ScopeStore.lookup m.scopes name = some (.external f) := hfound
    simp only [call, bind, EvalM.bind, ask, hlookup]
  rw [hcall] at hv ⊢
  rcases bind_cases (arguments eval f.name f.parameterTypes args) (applyExternal f) host m with
    ⟨values, -, heq⟩ | ⟨-, hnone⟩
  · rw [heq] at hv ⊢
    generalize (arguments eval f.name f.parameterTypes args host m).2 = n at hv ⊢
    cases hbound : n.natives.get? f.name with
    | none =>
      rw [applyExternal_unbound hbound] at hv
      cases hv
    | some callable =>
      rw [applyExternal_bound hbound] at hv ⊢
      cases hresult : callable.call n.calls.size (values.map (·.value)) with
      | error e =>
        rw [hresult] at hv
        cases hv
      | ok result =>
        rw [hresult] at hv
        dsimp only at hv ⊢
        cases haccept : f.accept result with
        | error e =>
          rw [haccept] at hv
          cases hv
        | ok w =>
          rw [haccept] at hv
          cases hv
          refine ⟨callable, values, result, haccept, hbound, ?_⟩
          simp [ofExcept, pure, EvalM.pure, Machine.afterCall, hresult]
  · exact absurd hv (hnone v)

/-- Every native call goes through a function that the header declares, to the callable that the named
    module provides under its name, with accepted arguments in the right number.  In whatever scope a
    name stands for such a function, a call of the name goes to that callable and yields what the
    signature says. -/
theorem native_calls_respect_signatures (earlier : List (Nat × Program × Host)) (fuel : Nat)
    (p : Program) (host : Host) :
    let start : Machine Environment := .after earlier
    let run := start.execute fuel p host
    (∀ (k : Nat) (call : NativeCall), run.2.calls[k]? = some call →
      p.Imports host.registry call.function call.callable ∧
      call.result = call.callable.call k (call.args.map (·.value)) ∧
      call.args.length = call.function.parameterTypes.length ∧
      (∀ n, call.callable.arity = some n → call.args.length = n) ∧
      Accepted call.function.parameterTypes call.args) ∧
    ∀ env ∈ start.visited fuel p host, ∀ name f, env.lookup name = some (.external f) →
      ∃ header, p.header = some header ∧ ∃ use ∈ header.modules, ∃ signature ∈ use.functions,
        f = signature.external ∧
        ∃ module callable, host.registry.resolve? use.name = some module ∧
          module.function? signature.name = some callable ∧
          ∀ m : Machine Environment, m.scopes = env → m.natives = run.2.natives → ∀ fuel args v,
            (evalExpr fuel (.call name args) host m).1 = .done v →
            ∃ values result, signature.Yields result v ∧
              (evalExpr fuel (.call name args) host m).2.calls.back? =
                some ⟨f, callable, values, .ok result⟩ := by
  intro start run
  have hrun : LawfulRun _ _ run := Machine.execute_lawful (Machine.after_scopes earlier) fuel p host
  constructor
  · intro k call hcall
    obtain ⟨himports, hresult, haccepted, -⟩ := hrun.calls k call hcall
    have hlength := haccepted.length_eq
    refine ⟨himports, hresult, hlength.symm, fun n hn => ?_, haccepted⟩
    rw [himports.arity n hn, hlength]
  · intro env henv name f hfound
    obtain ⟨callable, hbound, himports⟩ := (hrun.states env henv).lookup hfound
    obtain ⟨header, hheader, use, huse, signature, hsignature, module, hmodule, hfunction, rfl⟩ :=
      himports.declared
    refine ⟨header, hheader, use, huse, signature, hsignature, rfl, module, callable, hmodule,
      hfunction, ?_⟩
    intro m hscopes hnatives fuel args v hv
    subst hscopes
    have hkept := ((hrun.resumed henv hnatives).ended_expr host fuel (.call name args)).kept.natives
    cases fuel with
    | zero => cases hv
    | succ fuel =>
      obtain ⟨called, values, result, haccept, hcalled, hlast⟩ := EvalM.call_external hfound hv
      -- Evaluation leaves the table of native functions alone, so the name is bound as in the header.
      have hsame : called = callable := by
        have hcallable := hkept ▸ hcalled
        exact Option.some.inj (hcallable.symm.trans hbound)
      subst hsame
      exact ⟨values, result, Signature.yields_of_accept haccept, hlast⟩

open Player in
theorem native_calls_respect_signatures_player :
    (∃ call : NativeCall, run.2.calls[1]? = some call ∧ call.callable.arity = some 1 ∧
      call.args.length = 1 ∧ program.Imports host.registry call.function call.callable) ∧
    last ∈ (Machine.after []).visited 9 program host ∧
    last.lookup "load" = some (.external ⟨"load", [.string], .named "SOUND"⟩) ∧
    (evalExpr 2 (.call "load" [.string "b"]) host machine).1 =
      .done ⟨.named "SOUND", .native (.made 2 "b")⟩ ∧
    ∃ (signature : Signature) (result : Value) (callable : NativeFunction) (values : List TypedValue),
      ⟨"load", [.string], .named "SOUND"⟩ = signature.external ∧
      signature.Yields result ⟨.named "SOUND", .native (.made 2 "b")⟩ ∧
      (evalExpr 2 (.call "load" [.string "b"]) host machine).2.calls.back? =
        some ⟨⟨"load", [.string], .named "SOUND"⟩, callable, values, .ok result⟩ := by
  have hload : last.lookup "load" = some (.external ⟨"load", [.string], .named "SOUND"⟩) := by cbv
  have hdone : (evalExpr 2 (.call "load" [.string "b"]) host machine).1 =
      .done ⟨.named "SOUND", .native (.made 2 "b")⟩ := by cbv
  have harity : run.2.calls[1]?.bind (·.callable.arity) = some 1 := by cbv
  obtain ⟨call, hcall, harity⟩ := Option.bind_eq_some_iff.1 harity
  obtain ⟨hcalls, hstates⟩ := native_calls_respect_signatures [] 9 program host
  obtain ⟨himports, -, -, hargs, -⟩ := hcalls 1 call hcall
  obtain ⟨_, -, _, -, signature, -, hexternal, _, callable, -, -, hyields⟩ :=
    hstates last last_visited "load" _ hload
  obtain ⟨values, result, hresult, hlast⟩ := hyields machine rfl rfl 2 _ _ hdone
  exact ⟨⟨call, hcall, harity, hargs 1 harity, himports⟩, last_visited, hload, hdone, signature, result,
    callable, values, hexternal, hresult, hlast⟩

end Tremolo
