import Tremolo.Proofs.Run.Ensures
import Tremolo.Proofs.Run.Simulation
import Tremolo.Proofs.Scope.Holdings
import Tremolo.Proofs.Value.Sound

/-! # Evaluation keeps types and records lawful

One invariant says what evaluation keeps of values, scopes and records alike:

* every value is as its type says, and one with a declared type was given that type by a native call
  (`Outset.Allows`);
* every symbol in scope is lawful: variables hold values that they accept, types are builtin or named in
  the header, and native functions are bound to what the header imports (`Symbol.Lawful`);
* every native call on record was proper (`NativeCall.Proper`).

The three hang together.  The arguments of a call are proper because values are allowed, and the value it
gives is allowed because the call is on record.

Evaluation need not start with an empty machine: an `Outset` says what was there already. -/

namespace Tremolo

/-! ## What a program takes from outside -/

/-- The header of the program names the type. -/
def Program.NamesType (p : Program) (name : String) : Prop :=
  ∃ header, p.header = some header ∧ name ∈ header.types

/-- The native function that a signature declares. -/
def Signature.external (s : Signature) : ExternalFunction :=
  ⟨s.name, s.parameterTypes.map .ofName, (s.returnType.map .ofName).getD .null⟩

/-- The header declares `f`, and the module it takes `f` from provides the callable under that name. -/
structure Program.Imports (p : Program) (registry : Registry) (f : ExternalFunction)
    (callable : NativeFunction) : Prop where
  declared : ∃ header, p.header = some header ∧ ∃ use ∈ header.modules,
    ∃ signature ∈ use.functions, ∃ module, registry.resolve? use.name = some module ∧
      module.function? signature.name = some callable ∧ f = signature.external
  arity : ∀ n, callable.arity = some n → n = f.parameterTypes.length
  returns : ∀ n, f.returnType = .named n → p.NamesType n

/-! ## Records -/

/-- The call gave the value the declared type. -/
def NativeCall.Gives (call : NativeCall) (n : String) (x : Value) : Prop :=
  call.function.returnType = .named n ∧ call.result = .ok x

/-- What is there at the outset of an evaluation: the program and the native functions that its header
    has bound, the values of declared types that are held, and how much is on record. -/
structure Outset where
  program : Program
  registry : Registry
  natives : Table NativeFunction
  held : String → Value → Prop
  calls : Nat
  trace : Nat

namespace Outset

variable (o : Outset)

/-- The value had the declared type at the outset, or one of the calls since then, up to `limit`, gave it
    that type. -/
def Vouched (calls : Array NativeCall) (limit : Nat) (n : String) (x : Value) : Prop :=
  o.held n x ∨ ∃ j call, o.calls ≤ j ∧ j < limit ∧ calls[j]? = some call ∧ call.Gives n x

/-- The value is as its type says, and it may carry that type after these calls. -/
def Allows (calls : Array NativeCall) (v : TypedValue) : Prop :=
  v.Genuine o.program.NamesType (o.Vouched calls calls.size)

variable {o} {calls calls' : Array NativeCall} {limit limit' : Nat} {n : String} {x : Value}
  {v : TypedValue}

theorem Vouched.mono (h : o.Vouched calls limit n x) (hgrown : Grown calls calls')
    (hlimit : limit ≤ limit') : o.Vouched calls' limit' n x := by
  cases h with
  | inl hheld => exact .inl hheld
  | inr hgiven =>
    obtain ⟨j, call, hj, hlt, hcall, hgives⟩ := hgiven
    exact .inr ⟨j, call, hj, by omega, hgrown.getElem? hcall, hgives⟩

theorem Allows.grown (h : o.Allows calls v) (hgrown : Grown calls calls') : o.Allows calls' v :=
  TypedValue.Genuine.mono h fun _ _ hx => hx.mono hgrown hgrown.size_le

theorem allows_lasting (v : TypedValue) : Lasting (o.Allows · v) :=
  fun _ _ hgrown h => h.grown hgrown

theorem allows_plain (h : v.Plain) : o.Allows calls v :=
  h.genuine

end Outset

/-- Each argument is accepted by the type of its parameter. -/
def Accepted (formals : List ValueType) (args : List TypedValue) : Prop :=
  List.Forall₂ (fun type arg => type.accepts arg = true) formals args

/-- A call through an imported function, with arguments that its parameters accept. -/
structure NativeCall.Proper (o : Outset) (serial : Nat) (vouched : String → Value → Prop)
    (call : NativeCall) : Prop where
  imported : o.program.Imports o.registry call.function call.callable
  result : call.result = call.callable.call serial (call.args.map (·.value))
  accepted : Accepted call.function.parameterTypes call.args
  genuine : ∀ arg ∈ call.args, arg.Genuine o.program.NamesType vouched

/-! ## The invariant -/

/-- What may be bound to a name after these calls. -/
def Symbol.Lawful (o : Outset) (calls : Array NativeCall) : Symbol → Prop
  | .variable v => v.Genuine o.program.NamesType (o.Vouched calls calls.size)
  | .type name => name ∈ TokenKind.typeWords ∨ o.program.NamesType name
  | .function _ => True
  | .external f =>
    ∃ callable, o.natives.get? f.name = some callable ∧ o.program.Imports o.registry f callable

theorem Symbol.Lawful.grown {o : Outset} {calls calls' : Array NativeCall} {symbol : Symbol}
    (h : symbol.Lawful o calls) (hgrown : Grown calls calls') : symbol.Lawful o calls' := by
  cases symbol with
  | «variable» v => exact Variable.Genuine.mono h fun _ _ hx => hx.mono hgrown hgrown.size_le
  | type | function | external => exact h

variable {σ : Type} [ScopeStore σ]

/-- A machine as evaluation keeps it. -/
structure Machine.Lawful (custody : Custody σ) (o : Outset) (m : Machine σ) : Prop where
  natives : m.natives = o.natives
  calls_le : o.calls ≤ m.calls.size
  scopes : custody.Holds (Symbol.Lawful o m.calls) m.scopes
  trace : ∀ k entry, o.trace ≤ k → m.trace[k]? = some entry → o.Allows m.calls entry.2
  calls : ∀ k call, o.calls ≤ k → m.calls[k]? = some call → call.Proper o k (o.Vouched m.calls k)

namespace Machine.Lawful

variable {custody : Custody σ} {o : Outset} {m : Machine σ}

theorem withScopes (h : m.Lawful custody o) {scopes : σ}
    (hscopes : custody.Holds (Symbol.Lawful o m.calls) scopes) :
    ({ m with scopes := scopes } : Machine σ).Lawful custody o :=
  ⟨h.natives, h.calls_le, hscopes, h.trace, h.calls⟩

theorem record (h : m.Lawful custody o) {value : TypedValue} (hvalue : o.Allows m.calls value)
    (name : String) (host : Host) : (EvalM.record name value host m).2.Lawful custody o := by
  simp only [EvalM.record]
  split
  · refine ⟨h.natives, h.calls_le, h.scopes, ?_, h.calls⟩
    intro k entry hk hentry
    rw [Array.getElem?_push] at hentry
    split at hentry
    · cases hentry
      exact hvalue
    · exact h.trace k entry hk hentry
  · exact h

theorem echo (h : m.Lawful custody o) (value : TypedValue) (host : Host) :
    (EvalM.echo value host m).2.Lawful custody o := by
  simp only [EvalM.echo]
  split
  · exact ⟨h.natives, h.calls_le, h.scopes, h.trace, h.calls⟩
  · exact h

/-- A proper call leaves everything lawful that was so before. -/
theorem afterCall (h : m.Lawful custody o) {f : ExternalFunction} {callable : NativeFunction}
    {args : List TypedValue} (himports : o.program.Imports o.registry f callable)
    (haccepted : Accepted f.parameterTypes args)
    (hargs : ∀ arg ∈ args, o.Allows m.calls arg) : (m.afterCall f callable args).Lawful custody o := by
  have hgrown : Grown m.calls (m.afterCall f callable args).calls := .push _ _
  have hle := h.calls_le
  have hscopes := custody.mono h.scopes fun x hx => hx.grown hgrown
  refine ⟨h.natives, Nat.le_trans hle hgrown.size_le, hscopes, ?_, ?_⟩
  · intro k entry hk hentry
    exact (h.trace k entry hk hentry).grown hgrown
  · intro k call hk hcall
    have hvouched : ∀ n x, o.Vouched m.calls k n x →
        o.Vouched (m.afterCall f callable args).calls k n x :=
      fun n x hx => hx.mono hgrown (Nat.le_refl k)
    simp only [Machine.afterCall, Array.getElem?_push] at hcall
    split at hcall
    next hlast =>
      -- The new call: its arguments were allowed by the calls before it.
      subst hlast
      cases hcall
      exact ⟨himports, rfl, haccepted, fun arg harg => (hargs arg harg).mono hvouched⟩
    next =>
      obtain ⟨himported, hresult, haccepts, hgenuine⟩ := h.calls k call hk hcall
      exact ⟨himported, hresult, haccepts, fun arg harg => (hgenuine arg harg).mono hvouched⟩

end Machine.Lawful

/-! ## Results -/

/-- The value that a statement gives or returns is allowed. -/
def Flow.Allowed (o : Outset) (calls : Array NativeCall) : Flow → Prop
  | .normal value => ∀ v, value = some v → o.Allows calls v
  | .returned value => o.Allows calls value

theorem Flow.allowed_none {o : Outset} (calls : Array NativeCall) :
    Flow.Allowed o calls (.normal none) :=
  nofun

theorem Flow.Allowed.result {o : Outset} {calls : Array NativeCall} {flow : Flow}
    (h : flow.Allowed o calls) : o.Allows calls flow.result := by
  cases flow with
  | normal _ => exact Outset.allows_plain .null
  | returned value => exact h

/-- What a native function gives back: nothing, or its result under the declared type. -/
theorem ExternalFunction.accept_ok {f : ExternalFunction} {result : Value} {v : TypedValue}
    (h : f.accept result = .ok v) :
    (f.returnType = .null ∧ v = .null) ∨
      (f.returnType ≠ .null ∧ v = ⟨f.returnType, result⟩ ∧ f.returnType.accepts v = true) := by
  simp only [ExternalFunction.accept] at h
  split at h
  next hnull =>
    cases h
    exact .inl ⟨hnull, rfl⟩
  next hnull =>
    split at h
    next haccepts =>
      cases h
      exact .inr ⟨hnull, rfl, haccepts⟩
    next => cases h

theorem checkArguments_ok {function : String} {position : Nat} {formals : List ValueType}
    {values : List TypedValue} (h : checkArguments function position formals values = .ok ())
    (hlength : values.length = formals.length) :
    Accepted formals values := by
  induction formals generalizing position values with
  | nil =>
    cases values with
    | nil => exact .nil
    | cons => simp at hlength
  | cons formal formals ih =>
    cases values with
    | nil => simp at hlength
    | cons value values =>
      simp only [checkArguments] at h
      split at h
      next haccepts => exact .cons haccepts (ih h (by simpa using hlength))
      next => cases h

/-! ## Names -/

namespace EvalM

variable {custody : Custody σ} {o : Outset} {host : Host}

theorem ensureUndeclared_ensures {P : Array NativeCall → Prop} (name : String) :
    Ensures host (Machine.Lawful custody o) P (fun calls _ => P calls) (ensureUndeclared name) := by
  refine .ask fun m hm hP => ?_
  split
  · exact Ended.failed hm
  · exact Ended.done hm hP

theorem insert_ensures {P : Array NativeCall → Prop} {symbol : Symbol}
    (hsymbol : ∀ calls, P calls → symbol.Lawful o calls) :
    Ensures host (Machine.Lawful custody o) P (fun _ _ => True)
      (change fun scopes => ScopeStore.insert scopes symbol) :=
  .change fun _ hm hP => hm.withScopes (custody.insert hm.scopes (hsymbol _ hP))

theorem declare_ensures {P : Array NativeCall → Prop} {symbol : Symbol}
    (hsymbol : ∀ calls, P calls → symbol.Lawful o calls) :
    Ensures host (Machine.Lawful custody o) P (fun _ _ => True) (declare symbol) :=
  (ensureUndeclared_ensures symbol.name).bind fun _ => insert_ensures hsymbol

/-- A type of variables: not the one of absent results, and declared if it is not builtin. -/
theorem resolveType_ensures (name : String) :
    Ensures host (Machine.Lawful custody o) (fun _ => True)
      (fun _ type => type ≠ .null ∧ ∀ n, type = .named n → o.program.NamesType n)
      (resolveType name) := by
  refine .ask fun m hm _ => ?_
  cases hfound : ScopeStore.lookup m.scopes name with
  | none => exact Ended.failed hm
  | some symbol =>
    have hlawful := custody.lookup hm.scopes hfound
    cases symbol with
    | type declared =>
      refine Ended.done hm ⟨ValueType.ofName_ne_null declared, fun n hn => ?_⟩
      obtain ⟨rfl, hword⟩ := ValueType.ofName_eq_named hn
      exact hlawful.resolve_left hword
    | «variable» | function | external => exact Ended.failed hm

theorem declareVariables_ensures {type : ValueType} (hnull : type ≠ .null)
    (hnamed : ∀ n, type = .named n → o.program.NamesType n) (names : List String) :
    Ensures host (Machine.Lawful custody o) (fun _ => True) (fun _ _ => True)
      (declareVariables type names) := by
  refine .each (fun _ _ _ h => h) fun name _ => declare_ensures fun _ _ => ?_
  exact Variable.genuine_unset hnull hnamed

theorem readVariable_ensures (name : String) :
    Ensures host (Machine.Lawful custody o) (fun _ => True) o.Allows (readVariable name) := by
  refine .ask fun m hm _ => ?_
  cases hfound : ScopeStore.lookup m.scopes name with
  | none => exact Ended.failed hm
  | some symbol =>
    have hlawful := custody.lookup hm.scopes hfound
    cases symbol with
    | «variable» v =>
      dsimp only
      cases hvalue : v.value with
      | some value => exact Ended.done hm (Variable.Genuine.get hlawful hvalue)
      | none => exact Ended.failed hm
    | type | function | external => exact Ended.failed hm

theorem assign_ensures (name : String) (value : TypedValue) :
    Ensures host (Machine.Lawful custody o) (o.Allows · value) (fun _ _ => True)
      (EvalM.assign name value) := by
  refine .ask fun m hm hvalue => ?_
  cases hassign : ScopeStore.assign m.scopes name value with
  | stored after =>
    have hscopes := custody.assign hm.scopes hassign
      fun v w hv hw => Variable.Genuine.assign hv hvalue hw
    have hrecord := (hm.withScopes hscopes).record hvalue name host
    refine ⟨hrecord, ?_, fun _ _ => trivial⟩
    -- Nothing is called, whether or not the assignment is put on record.
    simp only [bind, EvalM.bind, change, EvalM.record]
    split <;> exact .refl _
  | unbound | notVariable | rejected => exact Ended.failed hm

/-! ## Scopes and calls -/

theorem inScope_ensures {α : Type} {P : Array NativeCall → Prop} {Q : Array NativeCall → α → Prop}
    {x : EvalM σ α} (hx : Ensures host (Machine.Lawful custody o) P Q x) (name : String)
    (kind : ScopeKind) (parent : ScopeId) :
    Ensures host (Machine.Lawful custody o) P Q (inScope name kind parent x) := by
  intro m hm hP
  unfold inScope
  cases hopen : ScopeStore.openScope? m.scopes name kind parent with
  | none => exact ⟨hm, .refl _, fun a ha => by cases ha⟩
  | some scopes =>
    obtain ⟨hkept, hgrown, hresult⟩ :=
      hx { m with scopes := scopes } (hm.withScopes (custody.openScope hm.scopes hopen)) hP
    exact ⟨hkept.withScopes (custody.closeScope hkept.scopes _), hgrown, hresult⟩

theorem currentScope_ensures :
    Ensures host (Machine.Lawful custody o) (fun _ => True) (fun _ _ => True)
      (currentScope : EvalM σ ScopeId) := by
  refine .ask fun m hm _ => ?_
  cases ScopeStore.current m.scopes with
  | some id => exact Ended.done hm trivial
  | none => exact Ended.failed hm

theorem inBlock_ensures {α : Type} {Q : Array NativeCall → α → Prop} {x : EvalM σ α}
    (hx : Ensures host (Machine.Lawful custody o) (fun _ => True) Q x) :
    Ensures host (Machine.Lawful custody o) (fun _ => True) Q (inBlock x) :=
  currentScope_ensures.bind fun parent => inScope_ensures hx "block" .block parent

theorem bindParameter_ensures (param : String × TypedValue) :
    Ensures host (Machine.Lawful custody o) (o.Allows · param.2) (fun _ _ => True)
      (bindParameter param) := by
  refine (ensureUndeclared_ensures param.1).bind fun _ => ?_
  refine Ensures.bind (Q := fun calls v => Symbol.Lawful o calls (.variable v)) (.ofExcept ?_) ?_
  · intro v calls hv hvalue
    have hunset : (Variable.unset param.1 .var).Genuine o.program.NamesType
        (o.Vouched calls calls.size) := Variable.genuine_unset (by simp) (by simp)
    exact hunset.assign hvalue hv
  · intro v
    exact insert_ensures fun _ h => h

section Calls

variable {eval : Expr → EvalM σ TypedValue} {exec : Stmt → EvalM σ Flow}

theorem arguments_ensures
    (heval : ∀ e, Ensures host (Machine.Lawful custody o) (fun _ => True) o.Allows (eval e))
    (function : String) (formals : List ValueType) (args : List Expr) :
    Ensures host (Machine.Lawful custody o) (fun _ => True)
      (fun calls values => (∀ v ∈ values, o.Allows calls v) ∧ Accepted formals values)
      (arguments eval function formals args) := by
  unfold arguments
  by_cases hcount : formals.length = args.length
  · rw [if_neg (not_not_intro hcount)]
    refine (Ensures.collect o.allows_lasting heval args).bind fun values => ?_
    refine Ensures.bind (.ofExcept ?_) fun _ => .pure fun _ h => h
    intro _ calls hcheck hvalues
    exact ⟨hvalues.2, checkArguments_ok hcheck (by omega)⟩
  · rw [if_pos hcount]
    exact .fail _

theorem applyFunction_ensures
    (hexec : ∀ s, Ensures host (Machine.Lawful custody o) (fun _ => True) (Flow.Allowed o) (exec s))
    (f : FunctionDef) (values : List TypedValue) :
    Ensures host (Machine.Lawful custody o) (fun calls => ∀ v ∈ values, o.Allows calls v) o.Allows
      (applyFunction exec f values) := by
  have hparams : Ensures host (Machine.Lawful custody o) (fun calls => ∀ v ∈ values, o.Allows calls v)
      (fun _ _ => True) (each bindParameter (f.params.zip values)) := by
    refine .each (fun _ _ hgrown h v hv => (h v hv).grown hgrown) fun param hparam => ?_
    exact (bindParameter_ensures param).weaken (fun _ h => h _ (List.of_mem_zip hparam).2)
      fun _ _ h => h
  have hbody := hparams.bind fun _ => Ensures.here (Ensures.sequence Flow.allowed_none hexec f.body)
  exact (inScope_ensures hbody f.name .function f.scope).bind fun flow =>
    .pure fun _ hflow => hflow.result

/-- A native call is proper, and what it gives is allowed because it is on record. -/
theorem applyExternal_ensures {f : ExternalFunction} {callable : NativeFunction}
    (hbound : o.natives.get? f.name = some callable)
    (himports : o.program.Imports o.registry f callable) (values : List TypedValue) :
    Ensures host (Machine.Lawful custody o)
      (fun calls => (∀ v ∈ values, o.Allows calls v) ∧ Accepted f.parameterTypes values)
      o.Allows (applyExternal f values) := by
  intro m hm hvalues
  have hafter := hm.afterCall himports hvalues.2 hvalues.1
  have hgrown : Grown m.calls (m.afterCall f callable values).calls := .push _ _
  rw [applyExternal_bound (by rw [hm.natives]; exact hbound)]
  cases hresult : callable.call m.calls.size (values.map (·.value)) with
  | error e => exact ⟨hafter, hgrown, nofun⟩
  | ok result =>
    have hcall : (m.afterCall f callable values).calls[m.calls.size]? =
        some ⟨f, callable, values, .ok result⟩ := by simp [Machine.afterCall, hresult]
    have hallowed : ∀ v, f.accept result = .ok v → o.Allows (m.afterCall f callable values).calls v := by
      intro v hv
      rcases ExternalFunction.accept_ok hv with ⟨-, rfl⟩ | ⟨hnull, rfl, haccepts⟩
      · exact Outset.allows_plain .null
      · refine TypedValue.genuine_of_accepts haccepts hnull himports.returns fun n hn => ?_
        exact .inr ⟨m.calls.size, _, hm.calls_le, by simp [Machine.afterCall], hcall, hn, rfl⟩
    exact (Ended.ofExcept hafter hallowed).since hgrown

theorem call_ensures
    (heval : ∀ e, Ensures host (Machine.Lawful custody o) (fun _ => True) o.Allows (eval e))
    (hexec : ∀ s, Ensures host (Machine.Lawful custody o) (fun _ => True) (Flow.Allowed o) (exec s))
    (name : String) (args : List Expr) :
    Ensures host (Machine.Lawful custody o) (fun _ => True) o.Allows (call eval exec name args) := by
  refine .ask fun m hm _ => ?_
  cases hfound : ScopeStore.lookup m.scopes name with
  | none => exact Ended.failed hm
  | some symbol =>
    have hlawful := custody.lookup hm.scopes hfound
    cases symbol with
    | function f =>
      refine Ensures.bind (arguments_ensures heval _ _ args) (fun values => ?_) m hm trivial
      exact (applyFunction_ensures hexec f values).weaken (fun _ h => h.1) fun _ _ h => h
    | external f =>
      obtain ⟨callable, hbound, himports⟩ := hlawful
      exact Ensures.bind (arguments_ensures heval _ _ args)
        (fun values => applyExternal_ensures hbound himports values) m hm trivial
    | «variable» | type => exact Ended.failed hm

end Calls

/-! ## Evaluation -/

theorem define_ensures (name : String) (params : List String) (body : List Stmt) (fuel : Nat) :
    Ensures host (Machine.Lawful custody o) (fun _ => True) (Flow.Allowed o)
      (evalStmt fuel.succ (.define name params body)) := by
  refine (ensureUndeclared_ensures name).bind fun _ => currentScope_ensures.bind fun scope => ?_
  refine Ensures.bind (insert_ensures fun _ _ => ?_) fun _ => .pure fun _ _ => Flow.allowed_none _
  trivial

theorem eval_ensures (fuel : Nat) :
    (∀ e, Ensures host (Machine.Lawful custody o) (fun _ => True) o.Allows (evalExpr fuel e)) ∧
    (∀ s, Ensures host (Machine.Lawful custody o) (fun _ => True) (Flow.Allowed o)
      (evalStmt fuel s)) := by
  induction fuel with
  | zero => exact ⟨fun _ => .outOfFuel, fun _ => .outOfFuel⟩
  | succ fuel ih =>
    obtain ⟨hexpr, hstmt⟩ := ih
    have hbody : ∀ body, Ensures host (Machine.Lawful custody o) (fun _ => True) (Flow.Allowed o)
        (inBlock (sequence (evalStmt fuel) body)) :=
      fun body => inBlock_ensures (.sequence Flow.allowed_none hstmt body)
    constructor
    · intro e
      cases e with
      | int n => exact .pure fun _ _ => Outset.allows_plain (.int n)
      | float x => exact .pure fun _ _ => Outset.allows_plain (.float x)
      | string s => exact .pure fun _ _ => Outset.allows_plain (.string s)
      | bool b => exact .pure fun _ _ => Outset.allows_plain (.bool b)
      | var name => exact readVariable_ensures name
      | unary op operand =>
        refine (hexpr operand).bind fun v => .ofExcept fun w _ hw _ => ?_
        exact Outset.allows_plain (UnaryOp.apply_plain hw)
      | binary op left right =>
        refine (hexpr left).bind fun l => (hexpr right).here.bind fun r => .ofExcept fun w _ hw _ => ?_
        exact Outset.allows_plain (BinaryOp.apply_plain hw)
      | cond op left right =>
        refine (hexpr left).bind fun l => ?_
        split
        · exact .pure fun _ _ => Outset.allows_plain (.bool _)
        · refine (hexpr right).here.bind fun r => .ofExcept fun w _ hw _ => ?_
          exact Outset.allows_plain (CondOp.apply_plain hw)
      | call name args => exact call_ensures hexpr hstmt name args
    · intro s
      cases s with
      | skip => exact .pure fun _ _ => Flow.allowed_none _
      | block body => exact hbody body
      | declare type names =>
        refine (resolveType_ensures type).bind fun type m hm htype => ?_
        exact ((declareVariables_ensures htype.1 htype.2 names).bind fun _ =>
          .pure fun _ _ => Flow.allowed_none _) m hm trivial
      | define name params body => exact define_ensures name params body fuel
      | assign name value =>
        exact (hexpr value).bind fun v => (assign_ensures name v).bind fun _ =>
          .pure fun _ _ => Flow.allowed_none _
      | when condition body =>
        refine (hexpr condition).truth.bind fun holds => ?_
        cases holds with
        | true => exact hbody body
        | false => exact .pure fun _ _ => Flow.allowed_none _
      | loop condition body =>
        exact .iterate Flow.allowed_none (hexpr condition).truth (hbody body) fuel
      | ret value =>
        refine .ask fun m hm _ => ?_
        cases ScopeStore.inFunction m.scopes with
        | false => exact Ended.failed hm
        | true =>
          cases value with
          | none => exact Ended.done hm (Outset.allows_plain .null)
          | some e =>
            refine Ensures.bind (hexpr e) (fun v => ?_) m hm trivial
            exact .pure (a := Flow.returned v) fun _ hv => hv
      | expr e =>
        refine (hexpr e).bind fun v => .pure fun _ hv => ?_
        intro w hw
        cases hw
        exact hv

/-- The values of expression statements are allowed. -/
theorem evalBody_ensures (fuel : Nat) (body : List Stmt) :
    Ensures host (Machine.Lawful custody o) (fun _ => True)
      (fun calls values => ∀ v ∈ values, o.Allows calls v) (evalBody fuel body) := by
  induction body with
  | nil => exact .pure fun _ _ => by simp
  | cons s rest ih =>
    refine (eval_ensures fuel).2 s |>.bind fun flow => ?_
    rcases flow with (_ | value) | _
    · exact ih.here
    · have hecho : Ensures host (Machine.Lawful custody o)
          (fun calls => Flow.Allowed o calls (.normal (some value)))
          (fun calls _ => True ∧ o.Allows calls value) (echo value) := by
        intro m hm hvalue
        refine ⟨hm.echo value host, ?_, fun _ _ => ⟨trivial, ?_⟩⟩
        all_goals simp only [echo]
        · split <;> exact .refl _
        · split <;> exact hvalue value rfl
      refine hecho.bind fun _ => (ih.frame (o.allows_lasting value)).bind fun values => .pure ?_
      intro calls h
      exact List.forall_mem_cons.2 ⟨h.2, h.1⟩
    · exact .fail _

end EvalM

section

variable {custody : Custody σ} {o : Outset} {m : Machine σ} (h : m.Lawful custody o) (host : Host)
  (fuel : Nat)

include h

/-- An expression evaluated in a lawful machine. -/
theorem Machine.Lawful.ended_expr (e : Expr) :
    Ended (Machine.Lawful custody o) o.Allows m (evalExpr fuel e host m) :=
  (EvalM.eval_ensures fuel).1 e m h trivial

/-- A statement executed in a lawful machine. -/
theorem Machine.Lawful.ended_stmt (s : Stmt) :
    Ended (Machine.Lawful custody o) (Flow.Allowed o) m (evalStmt fuel s host m) :=
  (EvalM.eval_ensures fuel).2 s m h trivial

/-- The arguments of a call, evaluated in a lawful machine. -/
theorem Machine.Lawful.ended_arguments (function : String) (formals : List ValueType)
    (args : List Expr) :
    Ended (Machine.Lawful custody o)
      (fun calls values => (∀ v ∈ values, o.Allows calls v) ∧ Accepted formals values) m
      (EvalM.arguments (evalExpr fuel) function formals args host m) :=
  EvalM.arguments_ensures (EvalM.eval_ensures fuel).1 function formals args m h trivial

end

end Tremolo
