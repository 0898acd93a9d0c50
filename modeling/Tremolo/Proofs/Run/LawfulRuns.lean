import Tremolo.Proofs.Run.Discipline
import Tremolo.Proofs.Run.Lawful

/-! # Runs are lawful from beginning to end

A header establishes what evaluation keeps: while it is declared, every name in the table of native
functions is taken in the global scope, so no native function is ever rebound (`Machine.Prepared`).
With what `EvalM.evalBody_ensures` says of the body, everything that a run passes through or leaves
behind is lawful (`Machine.execute_lawful`).

Evaluation from any state that a run passes through is lawful again, whatever is on record by then
(`LawfulRun.resumed`); this is what says something about the values inside of a run. -/

namespace Tremolo

/-- What is there when a program starts: nothing but the native functions. -/
def Outset.start (p : Program) (registry : Registry) (natives : Table NativeFunction) : Outset :=
  ⟨p, registry, natives, fun _ _ => False, 0, 0⟩

/-! ## Signatures -/

namespace Environment.Disciplined

variable {env : Environment} (h : env.Disciplined)

include h

theorem lookup_name {name : String} {symbol : Symbol} (hfound : env.lookup name = some symbol) :
    symbol.name = name := by
  obtain ⟨i, scope, -, hscope, hsymbol⟩ := lookup_spec hfound
  exact (h.heldAt hscope hsymbol).1

theorem typeNamed {name : String} {type : ValueType} (htype : TypeNamed env name type) :
    type = .ofName name := by
  obtain ⟨declared, hfound, rfl⟩ := htype
  have hname : declared = name := h.lookup_name hfound
  rw [hname]

theorem lookupHere_insert (symbol : Symbol) (name : String) :
    (env.insert symbol).lookupHere name =
      if name = symbol.name then some symbol else env.lookupHere name := by
  obtain ⟨scope, hscope⟩ := h.scope?_current
  have hcurrent : (env.modifyScope (env.depth - 1) (·.insert symbol)).current =
      some (env.depth - 1) := h.top
  rw [h.lookupHere_eq, h.insert_eq, Environment.lookupHere, hcurrent]
  simp only [scope?_modifyScope, if_true, hscope, Option.map_some, Option.bind_some,
    Scope.get?_insert]

end Environment.Disciplined

theorem parameterTypes_eq {σ : Type} [ScopeStore σ] {scopes : σ}
    (hscopes : ∀ name type, TypeNamed scopes name type → type = .ofName name) {names : List String}
    {types : List ValueType} (h : List.Forall₂ (TypeNamed scopes) names types) :
    types = names.map .ofName := by
  induction h with
  | nil => rfl
  | cons hhead _ ih => rw [List.map_cons, hscopes _ _ hhead, ih]

theorem Signature.Declares.eq_external {σ : Type} [ScopeStore σ] {scopes : σ}
    (hscopes : ∀ name type, TypeNamed scopes name type → type = .ofName name) {s : Signature}
    {f : ExternalFunction} (h : s.Declares scopes f) : f = s.external := by
  have hreturns : f.returnType = (s.returnType.map .ofName).getD .null := by
    cases hreturn : s.returnType with
    | none => exact h.unnamed hreturn
    | some type => exact hscopes type _ (h.named type hreturn)
  rw [Signature.external, ← parameterTypes_eq hscopes h.parameters, ← hreturns, ← h.name]

theorem provided_ok {module : NativeModule} {s : Signature} {callable : NativeFunction}
    (h : EvalM.provided module s = .ok callable) :
    module.function? s.name = some callable ∧
      ∀ n, callable.arity = some n → n = s.parameterTypes.length := by
  unfold EvalM.provided at h
  cases hfound : module.function? s.name with
  | none => simp [hfound] at h
  | some g =>
    cases harity : g.arity with
    | none =>
      simp only [hfound, harity] at h
      cases h
      simp [harity]
    | some arity =>
      simp only [hfound, harity] at h
      by_cases hcount : arity = s.parameterTypes.length
      · rw [if_pos hcount] at h
        cases h
        simp [harity, hcount]
      · rw [if_neg hcount] at h
        cases h

/-! ## Headers -/

/-- A machine while the header of a program is declared. -/
structure Machine.Prepared (p : Program) (registry : Registry) (m : Machine (Chronicle Environment)) :
    Prop where
  disciplined : m.scopes.now.Disciplined
  scopes : Environment.custody.chronicle.Holds (Symbol.Lawful (.start p registry m.natives) #[])
    m.scopes
  taken : ∀ name, (m.natives.get? name).isSome → (m.scopes.now.lookupHere name).isSome
  trace : m.trace = #[]
  calls : m.calls = #[]

namespace Machine.Prepared

open EvalM

variable {p : Program} {registry : Registry} {m : Machine (Chronicle Environment)}

theorem insert (h : m.Prepared p registry) {x : Symbol} {natives : Table NativeFunction}
    (hnew : m.scopes.now.lookupHere x.name = none) (hplain : ∀ f, x ≠ .function f)
    (hnatives : ∀ name, name ≠ x.name → natives.get? name = m.natives.get? name)
    (hx : x.Lawful (.start p registry natives) #[]) :
    ({ m with scopes := ScopeStore.insert m.scopes x, natives := natives } :
      Machine (Chronicle Environment)).Prepared p registry := by
  -- The new name was free, so it is not the name of a native function that is in use.
  have hold : Environment.custody.chronicle.Holds (Symbol.Lawful (.start p registry natives) #[])
      m.scopes := by
    refine Environment.custody.chronicle.mono h.scopes fun symbol hsymbol => ?_
    cases symbol with
    | external f =>
      obtain ⟨callable, hbound, himports⟩ := hsymbol
      refine ⟨callable, ?_, himports⟩
      rw [← hbound]
      refine hnatives f.name fun hname => ?_
      have htaken := h.taken f.name (Option.isSome_iff_exists.2 ⟨callable, hbound⟩)
      rw [hname, hnew] at htaken
      cases htaken
    | «variable» | type | function => exact hsymbol
  refine ⟨h.disciplined.insert hnew fun f hf => absurd hf (hplain f),
    Environment.custody.chronicle.insert hold hx, fun name hname => ?_, h.trace, h.calls⟩
  change ((m.scopes.now.insert x).lookupHere name).isSome
  rw [h.disciplined.lookupHere_insert]
  by_cases heq : name = x.name
  · rw [if_pos heq]
    rfl
  · rw [if_neg heq]
    exact h.taken name (by rw [← hnatives name heq]; exact hname)

theorem header {host : Host} {header : Header} (hheader : p.header = some header) :
    Keeps host (Prepared p host.registry) (declareHeader header) := by
  refine declareHeader_keeps header ?_ ?_
  · intro m name hname hm hnew
    exact hm.insert (x := .type name) hnew (by simp) (fun _ _ => rfl) (.inr ⟨header, hheader, hname⟩)
  · intro m f callable use huse signature hsignature module hmodule hprovided hdeclares hm hnew
    obtain ⟨hfunction, harity⟩ := provided_ok hprovided
    have hscopes : ∀ name type, TypeNamed m.scopes name type → type = .ofName name :=
      fun _ _ htype => hm.disciplined.typeNamed htype
    obtain rfl := hdeclares.eq_external hscopes
    refine hm.insert (x := .external signature.external) hnew (by simp) (fun name hname => ?_) ?_
    · rw [Table.get?_insert]
      exact if_neg hname
    · refine ⟨callable, by rw [Outset.start, Table.get?_insert, if_pos rfl], ?_⟩
      refine ⟨?_, fun n hn => ?_, fun n hn => ?_⟩
      · exact ⟨header, hheader, use, huse, signature, hsignature, module, hmodule, hfunction, rfl⟩
      · rw [harity n hn, Signature.external, List.length_map]
      · -- A declared type is the type of a name that stands for a type here.
        cases hreturn : signature.returnType with
        | none => simp [Signature.external, hreturn] at hn
        | some type =>
          obtain ⟨declared, hfound, hdeclared⟩ := hdeclares.named type hreturn
          rw [hdeclared] at hn
          obtain ⟨rfl, hword⟩ := ValueType.ofName_eq_named hn
          exact (Environment.custody.chronicle.lookup hm.scopes hfound).resolve_left hword

theorem lawful (h : m.Prepared p registry) :
    m.Lawful Environment.custody.chronicle (.start p registry m.natives) := by
  refine ⟨rfl, Nat.zero_le _, ?_, ?_, ?_⟩
  · rw [h.calls]
    exact h.scopes
  · simp [h.trace]
  · simp [h.calls]

theorem opened : (fresh ⟨Environment.empty.openGlobal, []⟩ : Machine _).Prepared p registry where
  disciplined := Environment.disciplined_openGlobal
  scopes env henv := by
    obtain rfl := List.mem_singleton.1 henv
    exact Environment.holds_openGlobal fun name hname => .inl hname
  taken _ hname := by cases hname
  trace := rfl
  calls := rfl

end Machine.Prepared

/-! ## Whole runs -/

/-- The results and the global variables that a run ends with are allowed. -/
def Execution.Allowed (o : Outset) (calls : Array NativeCall) (x : Execution) : Prop :=
  (∀ v ∈ x.results, o.Allows calls v) ∧ ∀ name v, (name, some v) ∈ x.globals → o.Allows calls v

/-- What a program does after its header. -/
def evalRest {σ : Type} [ScopeStore σ] (fuel : Nat) (body : List Stmt) : EvalM σ Execution := do
  let results ← evalBody fuel body
  return ⟨results, ← EvalM.ask ScopeStore.variablesHere⟩

theorem EvalM.evalRest_ensures {σ : Type} [ScopeStore σ] {custody : Custody σ} {o : Outset}
    {host : Host} (fuel : Nat) (body : List Stmt) :
    Ensures host (Machine.Lawful custody o) (fun _ => True) (fun calls x => x.Allowed o calls)
      (evalRest fuel body : EvalM σ Execution) := by
  refine (evalBody_ensures fuel body).bind fun results => .ask fun m hm hresults => ?_
  refine Ended.done hm ⟨hresults, fun name v hv => ?_⟩
  obtain ⟨w, hw, hvalue⟩ := custody.variablesHere hm.scopes hv
  exact Variable.Genuine.get hw hvalue

/-- Everything that a run passes through or leaves behind is lawful. -/
structure LawfulRun (o : Outset) (states : List Environment) {σ : Type}
    (r : Outcome Execution × Machine σ) : Prop where
  natives : r.2.natives = o.natives
  states : ∀ env ∈ states, env.Holds (Symbol.Lawful o r.2.calls)
  trace : ∀ entry ∈ r.2.trace, o.Allows r.2.calls entry.2
  calls : ∀ k (call : NativeCall), r.2.calls[k]? = some call →
    call.Proper o k (o.Vouched r.2.calls k)
  done : ∀ x, r.1 = .done x → x.Allowed o r.2.calls

theorem Machine.Lawful.run {o : Outset} (hcalls : o.calls = 0) (htrace : o.trace = 0)
    {r : Outcome Execution × Machine (Chronicle Environment)}
    (h : r.2.Lawful Environment.custody.chronicle o)
    (hdone : ∀ x, r.1 = .done x → x.Allowed o r.2.calls) :
    LawfulRun o r.2.scopes.states r := by
  refine ⟨h.natives, h.scopes, fun entry hentry => ?_, fun k call hcall => ?_, hdone⟩
  · obtain ⟨k, hk⟩ := Array.mem_iff_getElem?.1 hentry
    exact h.trace k entry (by omega) hk
  · exact h.calls k call (by omega) hcall

theorem Machine.Prepared.rest {p : Program} {host : Host} {m : Machine (Chronicle Environment)}
    (h : m.Prepared p host.registry) (fuel : Nat) :
    let r := evalRest fuel p.body host m
    LawfulRun (.start p host.registry r.2.natives) r.2.scopes.states r := by
  intro r
  have hended : Ended _ _ m r := EvalM.evalRest_ensures fuel p.body m h.lawful trivial
  rw [hended.kept.natives]
  exact hended.kept.run rfl rfl hended.result

theorem LawfulRun.transfer {o : Outset} {states : List Environment} {σ τ : Type}
    {r : Outcome Execution × Machine σ} {r' : Outcome Execution × Machine τ}
    (h : LawfulRun o states r) (houtcome : r.1 = r'.1) (hrecords : r.2.SameRecords r'.2) :
    LawfulRun o states r' := by
  obtain ⟨hnatives, htrace, -, hcalls⟩ := hrecords
  refine ⟨?_, ?_, ?_, ?_, ?_⟩
  · rw [← hnatives]
    exact h.natives
  all_goals rw [← hcalls]
  · exact h.states
  · rw [← htrace]
    exact h.trace
  · exact h.calls
  · rw [← houtcome]
    exact h.done

namespace Machine

variable {m : Machine Environment} (hm : m.scopes = .empty) (fuel : Nat) (p : Program) (host : Host)

include hm

theorem watch_lawful :
    LawfulRun (.start p host.registry (m.watch fuel p host).2.natives) (m.visited fuel p host)
      (m.watch fuel p host) := by
  have hopened : (fresh ⟨ScopeStore.openGlobal m.scopes, []⟩ : Machine (Chronicle Environment)).Prepared
      p host.registry := by
    rw [hm]
    exact Prepared.opened
  unfold visited watch
  generalize (fresh _ : Machine (Chronicle Environment)) = n at hopened ⊢
  cases hheader : p.header with
  | none =>
    have heq : evalProgram fuel p host n = evalRest fuel p.body host n := by
      rw [evalProgram, evalProgramWith, hheader]
      rfl
    rw [heq]
    exact hopened.rest fuel
  | some header =>
    have heq : evalProgram fuel p host n =
        (EvalM.declareHeader header >>= fun _ => evalRest fuel p.body) host n := by
      rw [evalProgram, evalProgramWith, hheader]
      rfl
    have hdeclared := Prepared.header hheader n hopened
    rcases EvalM.bind_cases (EvalM.declareHeader header) (fun _ => evalRest fuel p.body) host n with
      ⟨_, -, hdone⟩ | ⟨hsame, hnone⟩
    · rw [heq, hdone]
      exact hdeclared.rest fuel
    · rw [heq]
      refine Machine.Lawful.run rfl rfl ?_ fun x hx => absurd hx (hnone x)
      rw [hsame]
      exact hdeclared.lawful

theorem execute_lawful :
    LawfulRun (.start p host.registry (m.execute fuel p host).2.natives) (m.visited fuel p host)
      (m.execute fuel p host) := by
  obtain ⟨houtcome, -, hrecords⟩ := (Simulation.disciplined _).watch_agree (n := m)
    Simulation.disciplined_admitsHeader ⟨rfl, opened_kept hm⟩ fuel p host
  have hnatives : (m.watch fuel p host).2.natives = (m.execute fuel p host).2.natives :=
    hrecords.natives
  rw [← hnatives]
  exact (watch_lawful hm fuel p host).transfer houtcome.eq
    ⟨hrecords.natives, hrecords.trace, hrecords.shown, hrecords.calls⟩

end Machine

/-! ## Evaluation inside of a run -/

/-- Some variable holds the value under the declared type. -/
def Environment.Stores (env : Environment) (n : String) (x : Value) : Prop :=
  ∃ i scope key v, env.scope? i = some scope ∧ (key, Symbol.variable v) ∈ scope.symbols.entries ∧
    v.value = some ⟨.named n, x⟩

/-- What is there when evaluation goes on from a machine. -/
def Outset.resumed (o : Outset) (m : Machine Environment) : Outset :=
  ⟨o.program, o.registry, o.natives, m.scopes.Stores, m.calls.size, m.trace.size⟩

/-- Evaluation may go on from any state of a lawful run, whatever is on record by then. -/
theorem LawfulRun.resumed {o : Outset} {states : List Environment}
    {r : Outcome Execution × Machine Environment} (h : LawfulRun o states r)
    {m : Machine Environment} (hstate : m.scopes ∈ states) (hnatives : m.natives = r.2.natives) :
    m.Lawful Environment.custody (o.resumed m) := by
  refine ⟨hnatives.trans h.natives, Nat.le_refl _, ?_, ?_, ?_⟩
  · intro i scope key symbol hscope hsymbol
    have hlawful := h.states m.scopes hstate i scope key symbol hscope hsymbol
    cases symbol with
    | «variable» v =>
      have hgenuine : v.Genuine _ _ := hlawful
      refine ⟨hgenuine.toSound, ?_⟩
      intro x n hx hn
      obtain ⟨_, value⟩ := x
      cases hn
      exact .inl ⟨i, scope, key, v, hscope, hsymbol, hx⟩
    | type | function | external => exact hlawful
  · intro k entry hk hentry
    obtain ⟨hlt, -⟩ := Array.getElem?_eq_some_iff.1 hentry
    exact absurd hlt (Nat.not_lt.2 hk)
  · intro k call hk hcall
    obtain ⟨hlt, -⟩ := Array.getElem?_eq_some_iff.1 hcall
    exact absurd hlt (Nat.not_lt.2 hk)

end Tremolo
