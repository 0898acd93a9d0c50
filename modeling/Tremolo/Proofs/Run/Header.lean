import Mathlib.Data.List.Forall2
import Tremolo.Proofs.Run.Agreement

/-! # What a header can do

The header of a program binds types and native functions, and nothing else.  `declareExternal_cases`
says once what declaring a native function can do: it is refused and changes nothing, or the name is
bound in the scopes and in the table of native functions alike, with the types that its signature
names.  `declareHeader_keeps` derives from it that whatever survives these two steps survives every
header. -/

namespace Tremolo

/-- The name stands for the type. -/
def TypeNamed {σ : Type} [ScopeStore σ] (scopes : σ) (name : String) (type : ValueType) : Prop :=
  ∃ declared, ScopeStore.lookup scopes name = some (.type declared) ∧ type = .ofName declared

/-- The native function that a signature declares, as its type names are understood here. -/
structure Signature.Declares {σ : Type} [ScopeStore σ] (scopes : σ) (s : Signature)
    (f : ExternalFunction) : Prop where
  name : f.name = s.name
  parameters : List.Forall₂ (TypeNamed scopes) s.parameterTypes f.parameterTypes
  unnamed : s.returnType = none → f.returnType = .null
  named : ∀ name, s.returnType = some name → TypeNamed scopes name f.returnType

namespace EvalM

variable {σ α β : Type}

/-! ## Results and failures -/

theorem bind_done {x : EvalM σ α} {k : α → EvalM σ β} {host : Host} {m n : Machine σ} {a : α}
    (h : x host m = (.done a, n)) : (x >>= k) host m = k a host n := by
  change EvalM.bind x k host m = _
  simp only [EvalM.bind, h]

theorem bind_failed {x : EvalM σ α} {k : α → EvalM σ β} {host : Host} {m n : Machine σ} {e : Error}
    (h : x host m = (.failed e, n)) : (x >>= k) host m = (.failed e, n) := by
  change EvalM.bind x k host m = _
  simp only [EvalM.bind, h]

/-- What follows is done where the first part ended, or there is no result. -/
theorem bind_cases (x : EvalM σ α) (k : α → EvalM σ β) (host : Host) (m : Machine σ) :
    (∃ a, x host m = (.done a, (x host m).2) ∧ (x >>= k) host m = k a host (x host m).2) ∨
    ((x >>= k) host m).2 = (x host m).2 ∧ ∀ b, ((x >>= k) host m).1 ≠ .done b := by
  change (∃ a, _ ∧ EvalM.bind x k host m = _) ∨
    (EvalM.bind x k host m).2 = _ ∧ ∀ b, (EvalM.bind x k host m).1 ≠ _
  unfold EvalM.bind
  generalize x host m = r
  obtain ⟨outcome, after⟩ := r
  cases outcome with
  | done a => exact .inl ⟨a, rfl, rfl⟩
  | failed | deadScope | outOfFuel => exact .inr ⟨rfl, nofun⟩

/-- If there is a result in the end, the first part had one. -/
theorem done_of_bind {x : EvalM σ α} {k : α → EvalM σ β} {host : Host} {m : Machine σ} {b : β}
    (h : ((x >>= k) host m).1 = .done b) : ∃ a n, x host m = (.done a, n) := by
  rcases bind_cases x k host m with ⟨a, ha, -⟩ | ⟨-, hnone⟩
  · exact ⟨a, _, ha⟩
  · exact absurd h (hnone b)

/-! ## Properties that are kept -/

/-- The computation keeps a property of machines, however it ends. -/
def Keeps (host : Host) (I : Machine σ → Prop) (x : EvalM σ α) : Prop :=
  ∀ m, I m → I (x host m).2

theorem Keeps.bind {host : Host} {I : Machine σ → Prop} {x : EvalM σ α} {k : α → EvalM σ β}
    (hx : Keeps host I x) (hk : ∀ a, Keeps host I (k a)) : Keeps host I (x >>= k) := by
  intro m hm
  have hafter := hx m hm
  rcases bind_cases x k host m with ⟨a, -, heq⟩ | ⟨heq, -⟩
  · rw [heq]
    exact hk a _ hafter
  · rw [heq]
    exact hafter

theorem Keeps.each {host : Host} {I : Machine σ → Prop} {f : α → EvalM σ Unit} {as : List α}
    (hf : ∀ a ∈ as, Keeps host I (f a)) : Keeps host I (each f as) := by
  induction as with
  | nil => exact fun _ hm => hm
  | cons a as ih =>
    refine (hf a List.mem_cons_self).bind fun _ => ?_
    exact ih fun b hb => hf b (List.mem_cons_of_mem a hb)

/-! ## Declaring -/

variable [ScopeStore σ]

/-- Looking up a type gives the type that the name stands for, or an error. -/
theorem signatureType_cases (module function name : String) (host : Host) (m : Machine σ) :
    (∃ type, signatureType module function name host m = (.done type, m) ∧
      TypeNamed m.scopes name type) ∨
    ∃ e, signatureType module function name host m = (.failed e, m) := by
  simp only [signatureType, bind, EvalM.bind, ask]
  cases hfound : ScopeStore.lookup m.scopes name with
  | none => exact .inr ⟨_, rfl⟩
  | some symbol =>
    rcases symbol with _ | declared | _ | _
    · exact .inr ⟨_, rfl⟩
    · exact .inl ⟨_, rfl, declared, hfound, rfl⟩
    · exact .inr ⟨_, rfl⟩
    · exact .inr ⟨_, rfl⟩

theorem signatureTypes_cases (module function : String) (names : List String) (host : Host)
    (m : Machine σ) :
    (∃ types, collect (signatureType module function) names host m = (.done types, m) ∧
      List.Forall₂ (TypeNamed m.scopes) names types) ∨
    ∃ e, collect (signatureType module function) names host m = (.failed e, m) := by
  induction names with
  | nil => exact .inl ⟨[], rfl, .nil⟩
  | cons name names ih =>
    simp only [collect]
    rcases signatureType_cases module function name host m with ⟨type, htype, hname⟩ | ⟨e, he⟩
    · rw [bind_done htype]
      rcases ih with ⟨types, htypes, hnames⟩ | ⟨e, he⟩
      · rw [bind_done htypes]
        exact .inl ⟨type :: types, rfl, .cons hname hnames⟩
      · exact .inr ⟨e, bind_failed he⟩
    · exact .inr ⟨e, bind_failed he⟩

theorem ensureUndeclared_bind (name : String) (k : Unit → EvalM σ α) (host : Host)
    (m : Machine σ) :
    (ensureUndeclared name >>= k) host m =
      if (ScopeStore.lookupHere m.scopes name).isSome then (.failed (.duplicate name), m)
      else k () host m := by
  have hcheck : (ensureUndeclared name : EvalM σ Unit) host m =
      if (ScopeStore.lookupHere m.scopes name).isSome then (.failed (.duplicate name), m)
      else (.done (), m) := by
    unfold ensureUndeclared
    rw [bind_done (a := ScopeStore.lookupHere m.scopes name) (n := m) rfl]
    split <;> rfl
  split at hcheck
  next h => rw [bind_failed hcheck, if_pos h]
  next h => rw [bind_done hcheck, if_neg h]

/-- Declaring a symbol is refused, or binds it. -/
theorem declare_eq (symbol : Symbol) (host : Host) (m : Machine σ) :
    declare symbol host m =
      if (ScopeStore.lookupHere m.scopes symbol.name).isSome then
        (.failed (.duplicate symbol.name), m)
      else (.done (), { m with scopes := ScopeStore.insert m.scopes symbol }) :=
  ensureUndeclared_bind symbol.name _ host m

theorem declareBound_cases (f : ExternalFunction) (callable : NativeFunction) (host : Host)
    (m : Machine σ) :
    (∃ e, (declare (.external f) >>= fun _ => bindNative f.name callable) host m = (.failed e, m)) ∨
    ScopeStore.lookupHere m.scopes f.name = none ∧
      (declare (.external f) >>= fun _ => bindNative f.name callable) host m =
        (.done (), { m with
          scopes := ScopeStore.insert m.scopes (.external f)
          natives := m.natives.insert f.name callable }) := by
  have hdeclare := declare_eq (.external f) host m
  cases hnew : ScopeStore.lookupHere m.scopes f.name with
  | some _ =>
    simp only [Symbol.name, hnew, Option.isSome_some, if_true] at hdeclare
    exact .inl ⟨_, bind_failed hdeclare⟩
  | none =>
    simp only [Symbol.name, hnew, Option.isSome_none, Bool.false_eq_true, if_false] at hdeclare
    exact .inr ⟨rfl, bind_done hdeclare⟩

/-- Declaring a native function is refused, or binds its name in the scopes and in the table of native
    functions. -/
theorem declareExternal_cases (module : NativeModule) (signature : Signature) (host : Host)
    (m : Machine σ) :
    (∃ e, declareExternal module signature host m = (.failed e, m)) ∨
    ∃ f callable, signature.Declares m.scopes f ∧ provided module signature = .ok callable ∧
      ScopeStore.lookupHere m.scopes f.name = none ∧
      declareExternal module signature host m =
        (.done (), { m with
          scopes := ScopeStore.insert m.scopes (.external f)
          natives := m.natives.insert f.name callable }) := by
  unfold declareExternal
  cases hcallable : provided module signature with
  | error e => exact .inl ⟨e, bind_failed rfl⟩
  | ok callable =>
    rw [bind_done (a := callable) (n := m) rfl]
    -- All types of the signature are looked up before anything is bound.
    rcases signatureTypes_cases module.name signature.name signature.parameterTypes host m with
      ⟨types, ht, hparameters⟩ | ⟨e, he⟩
    · rw [bind_done ht]
      have hbind := fun returns =>
        declareBound_cases ⟨signature.name, types, returns⟩ callable host m
      cases hreturns : signature.returnType with
      | none =>
        refine (hbind .null).imp_right fun h => ⟨_, callable, ⟨rfl, hparameters, ?_, ?_⟩, rfl, h⟩
        · exact fun _ => rfl
        · simp [hreturns]
      | some name =>
        rcases signatureType_cases module.name signature.name name host m with
          ⟨returns, hr, hname⟩ | ⟨e, he⟩
        · simp only [bind_done hr]
          refine (hbind returns).imp_right fun h =>
            ⟨_, callable, ⟨rfl, hparameters, ?_, ?_⟩, rfl, h⟩
          · simp [hreturns]
          · intro _ hsome
            rw [hreturns] at hsome
            cases hsome
            exact hname
        · exact .inl ⟨e, bind_failed he⟩
    · exact .inl ⟨e, bind_failed he⟩

/-! ## Invariants of headers -/

theorem declareModule_eq (use : ModuleUse) (host : Host) (m : Machine σ) :
    declareModule use host m =
      match host.registry.resolve? use.name with
      | some module => each (declareExternal module) use.functions host m
      | none => (.failed (.moduleResolution use.name .noSuchModule), m) := by
  simp only [declareModule, Bind.bind, EvalM.bind, askHost]
  cases host.registry.resolve? use.name with
  | none => rfl
  | some module => rfl

/-- What survives the declaration of a type and of a native function survives every header. -/
theorem declareHeader_keeps {host : Host} {I : Machine σ → Prop} (header : Header)
    (htype : ∀ m, ∀ name ∈ header.types, I m → ScopeStore.lookupHere m.scopes name = none →
      I { m with scopes := ScopeStore.insert m.scopes (.type name) })
    (hexternal : ∀ m f callable, ∀ use ∈ header.modules, ∀ signature ∈ use.functions, ∀ module,
      host.registry.resolve? use.name = some module → provided module signature = .ok callable →
      signature.Declares m.scopes f → I m → ScopeStore.lookupHere m.scopes f.name = none →
      I { m with
        scopes := ScopeStore.insert m.scopes (.external f)
        natives := m.natives.insert f.name callable }) :
    Keeps host I (declareHeader header) := by
  refine Keeps.bind (.each fun name hname m hm => ?_) fun _ => .each fun use huse m hm => ?_
  · rw [declare_eq]
    cases hnew : ScopeStore.lookupHere m.scopes name with
    | some _ => simpa [Symbol.name, hnew] using hm
    | none => simpa [Symbol.name, hnew] using htype m name hname hm hnew
  · rw [declareModule_eq]
    cases hmodule : host.registry.resolve? use.name with
    | none => exact hm
    | some module =>
      refine Keeps.each (fun signature hsignature n hn => ?_) m hm
      rcases declareExternal_cases module signature host n with
        ⟨e, he⟩ | ⟨f, callable, hdeclares, hprovided, hnew, heq⟩
      · rw [he]
        exact hn
      · rw [heq]
        exact hexternal n f callable use huse signature hsignature module hmodule hprovided hdeclares
          hn hnew

end EvalM

end Tremolo
