import Mathlib.Data.List.Nodup
import Tremolo.Proofs.Run.LawfulRuns
import Tremolo.Proofs.Run.Sequence

/-! # Declarations

A header is a list of declarations: its types, then each module with the functions used from it.  Each
declaration is checked against the ones before it, because types and functions share one name space that
grows along the list.

* `Declaration.Violates` — what can be wrong with a declaration behind others, and the error it causes;
* `Declaration.Violates.declare_eq`, `Declaration.Fits.declare_eq` — one declaration is refused for what
  is wrong with it, or it is made;
* `Declaration.FirstFault.each_eq`, `Declaration.Admissible.each_eq` — so is a list of them. -/

namespace Tremolo

/-! ## Declarations -/

/-- One entry of a header. -/
inductive Declaration where
  | type (name : String)
  | module (name : String)
  /-- A function used from a module. -/
  | function (module : String) (signature : Signature)
deriving DecidableEq

/-- All entries of a header in order: first the types, then the modules, each before its functions. -/
def Header.declarations (h : Header) : List Declaration :=
  h.types.map .type ++ h.modules.flatMap fun use =>
    .module use.name :: use.functions.map (.function use.name)

/-- The functions that a header declares, in order. -/
def Header.signatures (h : Header) : List Signature :=
  h.modules.flatMap (·.functions)

/-- The names of the types in a signature, in the order in which they are looked up. -/
def Signature.typeNames (s : Signature) : List String :=
  s.parameterTypes ++ s.returnType.toList

/-- The module has the function of the signature, and its fixed arity, if it has one, is the number of
    parameters. -/
def NativeModule.Provides (module : NativeModule) (s : Signature) : Prop :=
  ∃ f, module.function? s.name = some f ∧ ∀ n, f.arity = some n → n = s.parameterTypes.length

namespace Declaration

/-- What it binds in the global scope. -/
def symbol? : Declaration → Option Symbol
  | .type name => some (.type name)
  | .module _ => none
  | .function _ s => some (.external s.external)

def typeName? : Declaration → Option String
  | .type name => some name
  | _ => none

/-- The module that it refers to. -/
def module? : Declaration → Option String
  | .type _ => none
  | .module name => some name
  | .function name _ => some name

/-- What it binds in the table of native functions. -/
def native? (registry : Registry) : Declaration → Option (String × NativeFunction)
  | .function name s => do
    let module ← registry.resolve? name
    let f ← module.function? s.name
    return (s.name, f)
  | _ => none

/-- What the global scope holds behind some declarations. -/
def symbols (ds : List Declaration) : List Symbol :=
  TokenKind.typeWords.map .type ++ ds.filterMap symbol?

/-- The names that are bound behind some declarations. -/
def boundNames (ds : List Declaration) : List String :=
  (symbols ds).map Symbol.name

/-- The types that are known behind some declarations. -/
def knownTypes (ds : List Declaration) : List String :=
  TokenKind.typeWords ++ ds.filterMap typeName?

/-- Something is wrong with a declaration behind others.  Of a function it is first asked whether its
    module provides it, then whether its types are known, and last whether its name is free. -/
inductive Violates (registry : Registry) (before : List Declaration) : Declaration → Error → Prop
  | typeTaken {name : String} : name ∈ boundNames before →
      Violates registry before (.type name) (.duplicate name)
  | noSuchModule {d : Declaration} {name : String} : d.module? = some name →
      registry.resolve? name = none →
      Violates registry before d (.moduleResolution name .noSuchModule)
  | notProvided {name : String} {s : Signature} {module : NativeModule} :
      registry.resolve? name = some module → module.function? s.name = none →
      Violates registry before (.function name s) (.moduleResolution module.name (.notProvided s.name))
  | arity {name : String} {s : Signature} {module : NativeModule} {f : NativeFunction} {n : Nat} :
      registry.resolve? name = some module → module.function? s.name = some f → f.arity = some n →
      n ≠ s.parameterTypes.length →
      Violates registry before (.function name s)
        (.moduleResolution module.name (.arityConflict s.name n s.parameterTypes.length))
  | unknownType {name : String} {s : Signature} {module : NativeModule} {t : String} :
      registry.resolve? name = some module → module.Provides s →
      s.typeNames.find? (· ∉ knownTypes before) = some t →
      Violates registry before (.function name s)
        (.moduleResolution module.name (.unknownType t s.name))
  | functionTaken {name : String} {s : Signature} {module : NativeModule} :
      registry.resolve? name = some module → module.Provides s →
      (∀ t ∈ s.typeNames, t ∈ knownTypes before) → s.name ∈ boundNames before →
      Violates registry before (.function name s) (.duplicate s.name)

/-- The declaration agrees with the ones before it. -/
def Fits (registry : Registry) (before : List Declaration) : Declaration → Prop
  | .type name => name ∉ boundNames before
  | .module name => (registry.resolve? name).isSome
  | .function name s => ∃ module, registry.resolve? name = some module ∧ module.Provides s ∧
      (∀ t ∈ s.typeNames, t ∈ knownTypes before) ∧ s.name ∉ boundNames before

/-- Each declaration agrees with the ones before it. -/
def Admissible (registry : Registry) (ds : List Declaration) : Prop :=
  ∀ front d back, ds = front ++ d :: back → d.Fits registry front

/-- The first declaration with which something is wrong causes the error. -/
def FirstFault (registry : Registry) (ds : List Declaration) (e : Error) : Prop :=
  ∃ front d back, ds = front ++ d :: back ∧ Admissible registry front ∧ d.Violates registry front e

end Declaration

/-! ## The global scope -/

/-- The global scope with the given symbols, each under its own name. -/
def Scope.global (xs : List Symbol) : Scope :=
  ⟨"global", 1, .global, none, ⟨xs.map fun x => (x.name, x)⟩⟩

namespace Scope

variable {xs : List Symbol} {x : Symbol} {name : String}

theorem get?_global_eq_none : (global xs).get? name = none ↔ name ∉ xs.map Symbol.name := by
  rw [Scope.get?, Table.get?, List.lookup_eq_none_iff]
  simp only [global, List.mem_map, forall_exists_index, and_imp, forall_apply_eq_imp_iff₂, not_exists,
    not_and, bne_iff_ne]
  exact forall₂_congr fun _ _ => ne_comm

theorem mem_of_get?_global (h : (global xs).get? name = some x) : x ∈ xs ∧ x.name = name := by
  obtain ⟨y, hy, heq⟩ := List.mem_map.1 (Table.mem_of_get? h)
  cases heq
  exact ⟨hy, rfl⟩

theorem get?_global (hdistinct : (xs.map Symbol.name).Nodup) (hx : x ∈ xs) :
    (global xs).get? x.name = some x := by
  refine Table.get?_of_mem ?_ (List.mem_map_of_mem hx)
  rwa [Table.names, global, List.map_map]

theorem insert_global (hnew : x.name ∉ xs.map Symbol.name) :
    (global xs).insert x = global (xs ++ [x]) := by
  have hbind := Table.bind_new (get?_global_eq_none.2 hnew) x
  rw [Scope.insert, Table.insert, hbind, global, global, List.map_append, List.map_singleton]

end Scope

namespace Environment

variable (env : Environment) (xs : List Symbol)

theorem scope?_global : (env.push (.global xs)).scope? env.depth = some (.global xs) := by
  rw [scope?_push, if_pos rfl]

/-- Nothing lies outside of a global scope. -/
theorem lookup_global (name : String) :
    (env.push (.global xs)).lookup name = (Scope.global xs).get? name := by
  rw [lookup, search, walk, current_push]
  dsimp only
  rw [walkUpTo, scope?_global]
  dsimp only
  cases (Scope.global xs).get? name <;> rfl

theorem lookupHere_global (name : String) :
    (env.push (.global xs)).lookupHere name = (Scope.global xs).get? name := by
  rw [lookupHere, current_push]
  dsimp only
  rw [scope?_global, Option.bind_some]

theorem insert_global {x : Symbol} (hnew : x.name ∉ xs.map Symbol.name) :
    (env.push (.global xs)).insert x = env.push (.global (xs ++ [x])) := by
  rw [insert, current_push, ← Scope.insert_global hnew]
  simp only [modifyScope, push]
  congr 1
  apply Array.ext_getElem?
  intro i
  rw [Array.getElem?_modify, Array.getElem?_push, Array.getElem?_push]
  by_cases hi : i = env.scopes.size
  · subst hi
    simp [depth]
  · simp [depth, hi, Ne.symm hi]

theorem openGlobal_eq : env.openGlobal = env.push (.global (Declaration.symbols [])) := by
  have hempty : env.push (.fresh "global" 1 .global none) = env.push (.global []) := rfl
  simp only [openGlobal, builtinTypes, List.foldl_cons, List.foldl_nil, hempty]
  rw [insert_global _ _ (by simp), insert_global _ _ (by decide), insert_global _ _ (by decide)]
  rfl

end Environment

namespace EvalM

variable {σ α β : Type}

theorem each_append (f : α → EvalM σ Unit) (as bs : List α) :
    each f (as ++ bs) = (each f as >>= fun _ => each f bs) := by
  induction as with
  | nil => exact (pure_bind () fun _ => each f bs).symm
  | cons a as ih => rw [List.cons_append, each, each, ih, bind_assoc]

theorem each_map (f : β → EvalM σ Unit) (g : α → β) (as : List α) :
    each f (as.map g) = each (fun a => f (g a)) as := by
  induction as with
  | nil => rfl
  | cons a as ih => rw [List.map_cons, each, each, ih]

theorem each_flatMap (f : β → EvalM σ Unit) (g : α → List β) (as : List α) :
    each f (as.flatMap g) = each (fun a => each f (g a)) as := by
  induction as with
  | nil => rfl
  | cons a as ih => rw [List.flatMap_cons, each_append, each, ih]

theorem each_congr {f g : α → EvalM σ Unit} {host : Host} (h : ∀ a m, f a host m = g a host m)
    (as : List α) (m : Machine σ) : each f as host m = each g as host m := by
  induction as generalizing m with
  | nil => rfl
  | cons a as ih =>
    rw [each, each]
    simp only [bind, EvalM.bind, h, ih]

end EvalM

/-! ## One declaration -/

namespace Declaration

variable {registry : Registry} {before : List Declaration}

theorem mem_knownTypes {t : String} : t ∈ knownTypes before ↔ .type t ∈ symbols before := by
  have htype : ∀ d : Declaration, d.typeName? = some t ↔ d.symbol? = some (.type t) := by
    intro d
    cases d <;> simp [typeName?, symbol?]
  simp [knownTypes, symbols, htype]

theorem symbols_concat (d : Declaration) : symbols (before ++ [d]) = symbols before ++ d.symbol?.toList := by
  rw [symbols, List.filterMap_append, ← List.append_assoc]
  cases h : d.symbol? <;> simp [symbols, h]

theorem native?_eq_some {d : Declaration} {entry : String × NativeFunction} :
    d.native? registry = some entry ↔ ∃ use s module, d = .function use s ∧
      registry.resolve? use = some module ∧ module.function? s.name = some entry.2 ∧
      entry.1 = s.name := by
  cases d with
  | type | module => simp [native?]
  | function use s =>
    cases hmodule : registry.resolve? use with
    | none => simp [native?, hmodule]
    | some module =>
      cases hf : module.function? s.name with
      | none => simp [native?, hmodule, hf]
      | some f => simp [native?, hmodule, hf, Prod.ext_iff, eq_comm, and_comm]

/-- Makes one declaration. -/
def declare : Declaration → EvalM Environment Unit
  | .type name => EvalM.declare (.type name)
  | .module name => fun host m =>
    match host.registry.resolve? name with
    | some _ => (.done (), m)
    | none => (.failed (.moduleResolution name .noSuchModule), m)
  | .function name s => fun host m =>
    match host.registry.resolve? name with
    | some found => EvalM.declareExternal found s host m
    | none => (.failed (.moduleResolution name .noSuchModule), m)

/-- The machine after declarations that were all made, on top of `env`. -/
structure Made (registry : Registry) (env : Environment) (before : List Declaration)
    (m : Machine Environment) : Prop where
  scopes : m.scopes = env.push (.global (symbols before))
  distinct : (boundNames before).Nodup
  natives : m.natives.entries = before.filterMap (native? registry)
  admissible : Admissible registry before

variable {env : Environment} {m : Machine Environment}

theorem Admissible.concat (h : Admissible registry before) {d : Declaration}
    (hd : d.Fits registry before) : Admissible registry (before ++ [d]) := by
  intro front d' back heq
  rcases List.eq_nil_or_concat back with rfl | ⟨back, last, rfl⟩
  · obtain ⟨rfl, hlast⟩ := List.append_inj' heq rfl
    cases hlast
    exact hd
  · -- The other declarations stood there before.
    have hfront : before ++ [d] = (front ++ d' :: back) ++ [last] := by simpa using heq
    exact h front d' back (List.append_inj' hfront rfl).1

namespace Made

section

variable (h : Made registry env before m)

include h

theorem lookupHere_eq_none {name : String} :
    ScopeStore.lookupHere m.scopes name = none ↔ name ∉ boundNames before := by
  rw [h.scopes]
  change (env.push (.global (symbols before))).lookupHere name = none ↔ _
  rw [Environment.lookupHere_global, Scope.get?_global_eq_none, boundNames]

theorem declare_taken (host : Host) {x : Symbol} (hx : x.name ∈ boundNames before) :
    EvalM.declare x host m = (.failed (.duplicate x.name), m) := by
  have htaken : (ScopeStore.lookupHere m.scopes x.name).isSome :=
    Option.isSome_iff_ne_none.2 fun hnone => h.lookupHere_eq_none.1 hnone hx
  rw [EvalM.declare_eq, if_pos htaken]

theorem declare_new (host : Host) {x : Symbol} (hx : x.name ∉ boundNames before) :
    EvalM.declare x host m = (.done (), { m with scopes := ScopeStore.insert m.scopes x }) := by
  rw [EvalM.declare_eq, h.lookupHere_eq_none.2 hx]
  rfl

/-- A type that a signature names is found exactly if it is known. -/
theorem signatureType_eq (host : Host) (module function name : String) :
    EvalM.signatureType module function name host m =
      if name ∈ knownTypes before then (.done (.ofName name), m)
      else (.failed (.moduleResolution module (.unknownType name function)), m) := by
  have hlookup : ScopeStore.lookup m.scopes name = (Scope.global (symbols before)).get? name := by
    rw [h.scopes]
    exact env.lookup_global _ name
  simp only [EvalM.signatureType, bind, EvalM.bind, EvalM.ask, hlookup]
  by_cases hknown : name ∈ knownTypes before
  · have hfound : (Scope.global (symbols before)).get? name = some (.type name) :=
      Scope.get?_global (x := .type name) h.distinct (mem_knownTypes.1 hknown)
    rw [if_pos hknown, hfound]
    rfl
  · -- The name may stand for something else, but not for a type.
    rw [if_neg hknown]
    cases hfound : (Scope.global (symbols before)).get? name with
    | none => rfl
    | some x =>
      cases x with
      | type declared =>
        obtain ⟨hmem, hname⟩ := Scope.mem_of_get?_global hfound
        obtain rfl : declared = name := hname
        exact absurd (mem_knownTypes.2 hmem) hknown
      | «variable» | function | external => rfl

theorem signatureTypes_known (host : Host) (module function : String) {names : List String}
    (hknown : ∀ t ∈ names, t ∈ knownTypes before) :
    EvalM.collect (EvalM.signatureType module function) names host m =
      (.done (names.map .ofName), m) := by
  induction names with
  | nil => rfl
  | cons name names ih =>
    obtain ⟨hname, hnames⟩ := List.forall_mem_cons.1 hknown
    have hfirst := h.signatureType_eq host module function name
    rw [if_pos hname] at hfirst
    rw [EvalM.collect, EvalM.bind_done hfirst, EvalM.bind_done (ih hnames)]
    rfl

/-- The first type that is not known is the one that is complained about. -/
theorem signatureTypes_unknown (host : Host) (module function : String) {names : List String} {t : String}
    (ht : names.find? (· ∉ knownTypes before) = some t) :
    EvalM.collect (EvalM.signatureType module function) names host m =
      (.failed (.moduleResolution module (.unknownType t function)), m) := by
  induction names with
  | nil => cases ht
  | cons name names ih =>
    have hfirst := h.signatureType_eq host module function name
    by_cases hname : name ∈ knownTypes before
    · rw [List.find?_cons_of_neg (by simpa using hname)] at ht
      rw [if_pos hname] at hfirst
      rw [EvalM.collect, EvalM.bind_done hfirst, EvalM.bind_failed (ih ht)]
    · rw [List.find?_cons_of_pos (by simpa using hname)] at ht
      cases ht
      rw [if_neg hname] at hfirst
      rw [EvalM.collect, EvalM.bind_failed hfirst]

variable {module : NativeModule} {s : Signature} {callable : NativeFunction}

theorem declareExternal_unknown (host : Host) {t : String}
    (hprovided : EvalM.provided module s = .ok callable)
    (ht : s.typeNames.find? (· ∉ knownTypes before) = some t) :
    EvalM.declareExternal module s host m =
      (.failed (.moduleResolution module.name (.unknownType t s.name)), m) := by
  rw [Signature.typeNames, List.find?_append] at ht
  unfold EvalM.declareExternal
  rw [hprovided, EvalM.bind_done (a := callable) (n := m) rfl]
  -- The return type is looked up after the types of the parameters.
  cases hparameters : s.parameterTypes.find? (· ∉ knownTypes before) with
  | some t' =>
    rw [hparameters] at ht
    cases ht
    exact EvalM.bind_failed (h.signatureTypes_unknown host _ _ hparameters)
  | none =>
    have hknown : ∀ t ∈ s.parameterTypes, t ∈ knownTypes before := by
      simpa using List.find?_eq_none.1 hparameters
    rw [EvalM.bind_done (h.signatureTypes_known host _ _ hknown)]
    rw [hparameters, Option.none_or] at ht
    cases hreturn : s.returnType with
    | none =>
      rw [hreturn] at ht
      cases ht
    | some name =>
      obtain ⟨hunknown, rfl⟩ : name ∉ knownTypes before ∧ name = t := by
        simpa [hreturn, List.find?_singleton] using ht
      have hreturns := h.signatureType_eq host module.name s.name name
      rw [if_neg hunknown] at hreturns
      exact EvalM.bind_failed hreturns

/-- Once its types are known, all that a signature declares is at hand. -/
theorem declareExternal_known (host : Host) (hprovided : EvalM.provided module s = .ok callable)
    (hknown : ∀ t ∈ s.typeNames, t ∈ knownTypes before) :
    EvalM.declareExternal module s host m =
      (EvalM.declare (.external s.external) >>= fun _ => EvalM.bindNative s.name callable) host m := by
  obtain ⟨hparameters, hreturn⟩ := List.forall_mem_append.1 hknown
  unfold EvalM.declareExternal
  rw [hprovided, EvalM.bind_done (a := callable) (n := m) rfl,
    EvalM.bind_done (h.signatureTypes_known host _ _ hparameters), Signature.external]
  cases hname : s.returnType with
  | none => rfl
  | some name =>
    have hreturns := h.signatureType_eq host module.name s.name name
    rw [if_pos (hreturn name (by simp [hname]))] at hreturns
    simp only [EvalM.bind_done hreturns]
    rfl

theorem get?_natives_new {name : String} (hnew : name ∉ boundNames before) :
    m.natives.get? name = none := by
  rw [Table.get?, h.natives, List.lookup_eq_none_iff]
  intro entry hentry
  obtain ⟨d, hd, hnative⟩ := List.mem_filterMap.1 hentry
  obtain ⟨use, s, module, rfl, -, -, hname⟩ := native?_eq_some.1 hnative
  rw [bne_iff_ne]
  rintro rfl
  -- Whatever is bound as a native function is bound in the global scope too.
  have hsymbol : .external s.external ∈ symbols before :=
    List.mem_append_right _ (List.mem_filterMap.2 ⟨_, hd, rfl⟩)
  exact hnew (List.mem_map.2 ⟨_, hsymbol, hname.symm⟩)

/-- A declaration with which nothing is wrong is made. -/
theorem add {d : Declaration} {x : Symbol} {natives : Table NativeFunction}
    (hfits : d.Fits registry before) (hx : d.symbol? = some x)
    (hnew : x.name ∉ boundNames before)
    (hnatives : natives.entries = m.natives.entries ++ (d.native? registry).toList) :
    Made registry env (before ++ [d])
      { m with scopes := ScopeStore.insert m.scopes x, natives := natives } where
  scopes := by
    rw [h.scopes, symbols_concat, hx, Option.toList_some]
    exact env.insert_global _ hnew
  distinct := by
    rw [boundNames, symbols_concat, hx, Option.toList_some, List.map_append, List.map_singleton]
    exact List.nodup_append_comm.1 (List.nodup_cons.2 ⟨hnew, h.distinct⟩)
  natives := by
    rw [hnatives, h.natives, List.filterMap_append]
    cases hnative : d.native? registry <;> simp [hnative]
  admissible := h.admissible.concat hfits

end

end Made

theorem provided_eq {module : NativeModule} {s : Signature} {f : NativeFunction}
    (hf : module.function? s.name = some f)
    (harity : ∀ n, f.arity = some n → n = s.parameterTypes.length) :
    EvalM.provided module s = .ok f := by
  unfold EvalM.provided
  rw [hf]
  cases hn : f.arity with
  | none => simp only [hn]
  | some n => simp only [hn, harity n hn, if_true]

theorem declare_function {host : Host} {name : String} {found : NativeModule}
    (hmodule : host.registry.resolve? name = some found) (s : Signature) (m : Machine Environment) :
    (function name s).declare host m = EvalM.declareExternal found s host m := by
  simp only [declare, hmodule]

theorem declareExternal_error {host : Host} {module : NativeModule} {s : Signature} {e : Error}
    (h : EvalM.provided module s = .error e) :
    EvalM.declareExternal module s host m = (.failed e, m) := by
  unfold EvalM.declareExternal
  rw [h]
  exact EvalM.bind_failed rfl

/-- A declaration is refused for what is wrong with it. -/
theorem Violates.declare_eq {host : Host} {d : Declaration} {e : Error}
    (hd : d.Violates host.registry before e) (h : Made host.registry env before m) :
    d.declare host m = (.failed e, m) := by
  cases hd with
  | typeTaken htaken => exact h.declare_taken host htaken
  | noSuchModule hname hnone =>
    cases d with
    | type => cases hname
    | module =>
      cases hname
      simp only [declare, hnone]
    | function =>
      cases hname
      simp only [declare, hnone]
  | notProvided hmodule hf =>
    rw [declare_function hmodule]
    exact declareExternal_error (by simp only [EvalM.provided, hf])
  | arity hmodule hf hn hne =>
    rw [declare_function hmodule]
    exact declareExternal_error (by simp only [EvalM.provided, hf, hn, hne, if_false])
  | unknownType hmodule hprovides ht =>
    obtain ⟨f, hf, harity⟩ := hprovides
    rw [declare_function hmodule]
    exact h.declareExternal_unknown host (provided_eq hf harity) ht
  | @functionTaken _ s _ hmodule hprovides hknown htaken =>
    obtain ⟨f, hf, harity⟩ := hprovides
    rw [declare_function hmodule, h.declareExternal_known host (provided_eq hf harity) hknown]
    exact EvalM.bind_failed (h.declare_taken host (x := .external s.external) htaken)

/-- A declaration that agrees with the ones before it is made. -/
theorem Fits.declare_eq {host : Host} {d : Declaration} (hd : d.Fits host.registry before)
    (h : Made host.registry env before m) :
    ∃ n, d.declare host m = (.done (), n) ∧ Made host.registry env (before ++ [d]) n := by
  cases d with
  | type name => exact ⟨_, h.declare_new host hd, h.add hd rfl hd (List.append_nil _).symm⟩
  | module name =>
    have hsymbols : symbols (before ++ [.module name]) = symbols before := by
      rw [symbols_concat]
      exact List.append_nil _
    refine ⟨m, ?_, ⟨hsymbols ▸ h.scopes, ?_, ?_, h.admissible.concat hd⟩⟩
    · obtain ⟨found, hfound⟩ := Option.isSome_iff_exists.1 hd
      simp only [declare, hfound]
    · rw [boundNames, hsymbols]
      exact h.distinct
    · rw [h.natives, List.filterMap_append]
      exact (List.append_nil _).symm
  | function name s =>
    obtain ⟨found, hmodule, ⟨f, hf, harity⟩, hknown, hnew⟩ := id hd
    have hnative : native? host.registry (.function name s) = some (s.name, f) :=
      native?_eq_some.2 ⟨name, s, found, rfl, hmodule, hf, rfl⟩
    rw [declare_function hmodule, h.declareExternal_known host (provided_eq hf harity) hknown]
    refine ⟨_, EvalM.bind_done (h.declare_new host (x := .external s.external) hnew),
      h.add hd rfl hnew ?_⟩
    rw [hnative]
    exact Table.bind_new (h.get?_natives_new hnew) f

/-- A declaration agrees with the ones before it, or something is wrong with it. -/
theorem fits_or_violates (registry : Registry) (before : List Declaration) (d : Declaration) :
    d.Fits registry before ∨ ∃ e, d.Violates registry before e := by
  cases d with
  | type name =>
    by_cases hname : name ∈ boundNames before
    · exact .inr ⟨_, .typeTaken hname⟩
    · exact .inl hname
  | module name =>
    cases hmodule : registry.resolve? name with
    | none => exact .inr ⟨_, .noSuchModule rfl hmodule⟩
    | some found => exact .inl (by simp [Fits, hmodule])
  | function name s =>
    -- The checks in the order in which they are made: each is reached if the ones before it passed.
    cases hmodule : registry.resolve? name with
    | none => exact .inr ⟨_, .noSuchModule rfl hmodule⟩
    | some found =>
      cases hf : found.function? s.name with
      | none => exact .inr ⟨_, .notProvided hmodule hf⟩
      | some f =>
        by_cases harity : ∀ n, f.arity = some n → n = s.parameterTypes.length
        · have hprovides : found.Provides s := ⟨f, hf, harity⟩
          cases hunknown : s.typeNames.find? (· ∉ knownTypes before) with
          | some t => exact .inr ⟨_, .unknownType hmodule hprovides hunknown⟩
          | none =>
            have hknown : ∀ t ∈ s.typeNames, t ∈ knownTypes before := by
              simpa using List.find?_eq_none.1 hunknown
            by_cases hname : s.name ∈ boundNames before
            · exact .inr ⟨_, .functionTaken hmodule hprovides hknown hname⟩
            · exact .inl ⟨found, hmodule, hprovides, hknown, hname⟩
        · push Not at harity
          obtain ⟨n, hn, hne⟩ := harity
          exact .inr ⟨_, .arity hmodule hf hn hne⟩

/-! ## A list of declarations -/

theorem made_openGlobal (registry : Registry) (env : Environment) :
    Made registry env [] (.fresh env.openGlobal) where
  scopes := env.openGlobal_eq
  distinct := by decide
  natives := rfl
  admissible := by
    intro front d back h
    simp at h

theorem Admissible.or_firstFault (registry : Registry) (ds : List Declaration) :
    Admissible registry ds ∨ ∃ e, FirstFault registry ds e := by
  -- From the end, because a declaration is judged by all that stand before it.
  induction ds using List.reverseRecOn with
  | nil =>
    refine .inl fun front d back h => ?_
    simp at h
  | append_singleton ds d ih =>
    rcases ih with hds | ⟨e, front, d', back, rfl, hfront, hd'⟩
    · rcases fits_or_violates registry ds d with hd | ⟨e, hd⟩
      · exact .inl (hds.concat hd)
      · exact .inr ⟨e, ds, d, [], rfl, hds, hd⟩
    · exact .inr ⟨e, front, d', back ++ [d], by simp, hfront, hd'⟩

/-- If all declarations agree, the ones behind those that were made are made too. -/
theorem Admissible.each_rest {host : Host} {rest : List Declaration}
    (hall : Admissible host.registry (before ++ rest)) (h : Made host.registry env before m) :
    ∃ n, EvalM.each declare rest host m = (.done (), n) ∧
      Made host.registry env (before ++ rest) n := by
  induction rest generalizing before m with
  | nil => exact ⟨m, rfl, by rwa [List.append_nil]⟩
  | cons d rest ih =>
    obtain ⟨n, hd, hn⟩ := (hall before d rest rfl).declare_eq h
    have hassoc : before ++ d :: rest = before ++ [d] ++ rest := by simp
    rw [hassoc] at hall ⊢
    obtain ⟨after, hrest, hafter⟩ := ih hall hn
    exact ⟨after, (EvalM.bind_done hd).trans hrest, hafter⟩

theorem Admissible.each_eq {host : Host} {ds : List Declaration}
    (hall : Admissible host.registry ds) (h : Made host.registry env [] m) :
    ∃ n, EvalM.each declare ds host m = (.done (), n) ∧ Made host.registry env ds n := by
  rw [← List.nil_append ds] at hall
  exact hall.each_rest h

/-- The first declaration with which something is wrong is refused. -/
theorem FirstFault.each_eq {host : Host} {ds : List Declaration} {e : Error}
    (hfault : FirstFault host.registry ds e) (h : Made host.registry env [] m) :
    ∃ n, EvalM.each declare ds host m = (.failed e, n) := by
  obtain ⟨front, d, back, rfl, hfront, hd⟩ := hfault
  obtain ⟨n, hdone, hn⟩ := hfront.each_eq h
  refine ⟨n, ?_⟩
  rw [EvalM.each_append, EvalM.bind_done hdone]
  exact EvalM.bind_failed (hd.declare_eq hn)

theorem Admissible.nodup_boundNames {ds : List Declaration} (h : Admissible registry ds) :
    (boundNames ds).Nodup := by
  have hall : Admissible (Host.mk registry {}).registry ds := h
  obtain ⟨n, -, hn⟩ := hall.each_eq (made_openGlobal registry .empty)
  exact hn.distinct

theorem notMem_boundNames {front back : List Declaration} {d : Declaration} {x : Symbol}
    (h : (boundNames (front ++ d :: back)).Nodup) (hx : d.symbol? = some x) :
    x.name ∉ boundNames front := by
  have happend : boundNames (front ++ d :: back) =
      boundNames front ++ x.name :: (back.filterMap symbol?).map Symbol.name := by
    simp [boundNames, symbols, hx]
  rw [happend] at h
  exact fun hmem => (List.nodup_append.1 h).2.2 _ hmem _ List.mem_cons_self rfl

/-- What is bound as a native function is bound in the global scope, in the same order. -/
theorem natives_sublist (registry : Registry) (ds : List Declaration) :
    ((ds.filterMap (native? registry)).map (·.1)).Sublist
      ((ds.filterMap symbol?).map Symbol.name) := by
  induction ds with
  | nil => exact .slnil
  | cons d ds ih =>
    cases hnative : d.native? registry with
    | none =>
      rw [List.filterMap_cons_none hnative]
      cases hsymbol : d.symbol? with
      | none => rwa [List.filterMap_cons_none hsymbol]
      | some x =>
        rw [List.filterMap_cons_some hsymbol]
        exact ih.cons _
    | some entry =>
      obtain ⟨use, s, module, rfl, -, -, hname⟩ := native?_eq_some.1 hnative
      have hsymbol : symbol? (.function use s) = some (.external s.external) := rfl
      rw [List.filterMap_cons_some hnative, List.filterMap_cons_some hsymbol, List.map_cons, hname]
      exact ih.cons_cons _

theorem Made.get?_natives {ds : List Declaration} (h : Made registry env ds m) {name : String}
    {f : NativeFunction} :
    m.natives.get? name = some f ↔ ∃ use s module, .function use s ∈ ds ∧
      registry.resolve? use = some module ∧ module.function? s.name = some f ∧ name = s.name := by
  have hdistinct : m.natives.names.Nodup := by
    rw [Table.names, h.natives]
    have hbound := h.distinct
    rw [boundNames, symbols, List.map_append] at hbound
    exact (List.nodup_append.1 hbound).2.1.sublist (natives_sublist registry ds)
  have hmem : m.natives.get? name = some f ↔ (name, f) ∈ m.natives.entries :=
    ⟨Table.mem_of_get?, Table.get?_of_mem hdistinct⟩
  rw [hmem, h.natives, List.mem_filterMap]
  constructor
  · rintro ⟨d, hd, hnative⟩
    obtain ⟨use, s, module, rfl, hspec⟩ := native?_eq_some.1 hnative
    exact ⟨use, s, module, hd, hspec⟩
  · rintro ⟨use, s, module, hd, hspec⟩
    exact ⟨_, hd, native?_eq_some.2 ⟨use, s, module, rfl, hspec⟩⟩

end Declaration

/-! ## Headers -/

theorem EvalM.declareModule_eq_each (use : ModuleUse) (host : Host) (m : Machine Environment) :
    declareModule use host m = each Declaration.declare
      (.module use.name :: use.functions.map (.function use.name)) host m := by
  rw [declareModule_eq, each, each_map]
  cases hmodule : host.registry.resolve? use.name with
  | none =>
    have hfailed : (Declaration.module use.name).declare host m =
        (.failed (.moduleResolution use.name .noSuchModule), m) := by
      simp only [Declaration.declare, hmodule]
    exact (bind_failed hfailed).symm
  | some module =>
    have hdone : (Declaration.module use.name).declare host m = (.done (), m) := by
      simp only [Declaration.declare, hmodule]
    rw [bind_done hdone]
    exact each_congr (fun s m => (Declaration.declare_function hmodule s m).symm) use.functions m

/-- A header is declared one declaration after the other. -/
theorem EvalM.declareHeader_eq_each (header : Header) (host : Host) (m : Machine Environment) :
    declareHeader header host m = each Declaration.declare header.declarations host m := by
  rw [Header.declarations, each_append, each_map, each_flatMap, declareHeader]
  change EvalM.bind _ _ host m = EvalM.bind _ _ host m
  unfold EvalM.bind
  have hmodules := each_congr (fun use => declareModule_eq_each use host) header.modules
  simp only [hmodules]
  rfl

/-- A header is declared to its end or refused. -/
theorem EvalM.declareHeader_ends (header : Header) (host : Host) (env : Environment) :
    ∃ n, declareHeader header host (.fresh env.openGlobal) = (.done (), n) ∨
      ∃ e, declareHeader header host (.fresh env.openGlobal) = (.failed e, n) := by
  have hmade := Declaration.made_openGlobal host.registry env
  rw [declareHeader_eq_each]
  rcases Declaration.Admissible.or_firstFault host.registry header.declarations with hall | ⟨e, he⟩
  · obtain ⟨n, hdone, -⟩ := hall.each_eq hmade
    exact ⟨n, .inl hdone⟩
  · obtain ⟨n, hfailed⟩ := he.each_eq hmade
    exact ⟨n, .inr ⟨e, hfailed⟩⟩

end Tremolo
