import Mathlib
import Tremolo.Native.Host
import Tremolo.Proofs.Run.Declarations

/-! # Consistent headers

A declaration is checked against the ones before it alone.  Since all types stand before the first
function, the checks come to a condition on the header as a whole (`Header.consistent_iff`). -/

namespace Tremolo

/-- A header without contradictions. -/
structure Header.Consistent (registry : Registry) (h : Header) : Prop where
  types_distinct : h.types.Nodup
  types_new : ∀ t ∈ h.types, t ∉ TokenKind.typeWords
  modules_resolve : ∀ use ∈ h.modules, (registry.resolve? use.name).isSome
  functions_provided : ∀ use ∈ h.modules, ∀ s ∈ use.functions, ∀ module,
    registry.resolve? use.name = some module → module.Provides s
  types_known : ∀ s ∈ h.signatures, ∀ t ∈ s.typeNames, t ∈ TokenKind.typeWords ∨ t ∈ h.types
  functions_distinct : (h.signatures.map (·.name)).Nodup
  functions_new : ∀ s ∈ h.signatures, s.name ∉ TokenKind.typeWords ∧ s.name ∉ h.types

namespace Header

variable {registry : Registry} {h : Header}

theorem mem_declarations {d : Declaration} : d ∈ h.declarations ↔
    (∃ t ∈ h.types, .type t = d) ∨ ∃ use ∈ h.modules, d = .module use.name ∨
      ∃ s ∈ use.functions, .function use.name s = d := by
  simp [declarations]

theorem mem_declarations_function {name : String} {s : Signature} :
    .function name s ∈ h.declarations ↔ ∃ use ∈ h.modules, s ∈ use.functions ∧ use.name = name := by
  simp [declarations]

theorem symbols_declarations : Declaration.symbols h.declarations =
    TokenKind.typeWords.map .type ++ h.types.map .type ++
      h.signatures.map (fun s => .external s.external) := by
  simp [Declaration.symbols, declarations, signatures, List.filterMap_append, List.filterMap_map,
    List.filterMap_flatMap, List.filterMap_cons, Declaration.symbol?, Function.comp_def,
    List.map_flatMap]

theorem knownTypes_declarations : Declaration.knownTypes h.declarations =
    TokenKind.typeWords ++ h.types := by
  simp [Declaration.knownTypes, declarations, List.filterMap_append, List.filterMap_map,
    List.filterMap_flatMap, Declaration.typeName?, Function.comp_def]

theorem boundNames_declarations : Declaration.boundNames h.declarations =
    TokenKind.typeWords ++ (h.types ++ h.signatures.map (·.name)) := by
  rw [Declaration.boundNames, symbols_declarations]
  simp [Function.comp_def, Symbol.name, Signature.external]

/-- All types stand before the first function. -/
theorem mem_knownTypes_front {front back : List Declaration} {use : String} {s : Signature}
    (hsplit : h.declarations = front ++ .function use s :: back) {t : String}
    (ht : t ∈ TokenKind.typeWords ∨ t ∈ h.types) : t ∈ Declaration.knownTypes front := by
  rcases ht with ht | ht
  · exact List.mem_append_left _ ht
  · refine List.mem_append_right _ (List.mem_filterMap.2 ⟨.type t, ?_, rfl⟩)
    have htype : .type t ∈ h.types.map Declaration.type := List.mem_map_of_mem ht
    rcases List.append_eq_append_iff.1 hsplit with ⟨rest, rfl, -⟩ | ⟨rest, htypes, hrest⟩
    · exact List.mem_append_left _ htype
    · cases rest with
      | nil => rwa [htypes, List.append_nil] at htype
      | cons d rest =>
        cases hrest
        have hfunction : .function use s ∈ h.types.map Declaration.type := by simp [htypes]
        simp at hfunction

theorem Consistent.nodup (hc : h.Consistent registry) :
    (Declaration.boundNames h.declarations).Nodup := by
  rw [boundNames_declarations, List.nodup_append, List.nodup_append]
  refine ⟨by decide, ⟨hc.types_distinct, hc.functions_distinct, ?_⟩, ?_⟩
  · rintro t ht name hname rfl
    obtain ⟨s, hs, rfl⟩ := List.mem_map.1 hname
    exact (hc.functions_new s hs).2 ht
  · rintro t ht name hname rfl
    rcases List.mem_append.1 hname with htype | hfunction
    · exact hc.types_new t htype ht
    · obtain ⟨s, hs, rfl⟩ := List.mem_map.1 hfunction
      exact (hc.functions_new s hs).1 ht

theorem Consistent.admissible (hc : h.Consistent registry) :
    Declaration.Admissible registry h.declarations := by
  intro front d back hsplit
  have hnodup := hc.nodup
  rw [hsplit] at hnodup
  have hd : d ∈ h.declarations := hsplit ▸ List.mem_append_right _ List.mem_cons_self
  rcases mem_declarations.1 hd with ⟨t, -, rfl⟩ | ⟨use, huse, rfl | ⟨s, hs, rfl⟩⟩
  · exact Declaration.notMem_boundNames (x := .type t) hnodup rfl
  · exact hc.modules_resolve use huse
  · obtain ⟨module, hmodule⟩ := Option.isSome_iff_exists.1 (hc.modules_resolve use huse)
    have hsignature : s ∈ h.signatures := List.mem_flatMap.2 ⟨use, huse, hs⟩
    refine ⟨module, hmodule, hc.functions_provided use huse s hs module hmodule, ?_, ?_⟩
    · exact fun t ht => mem_knownTypes_front hsplit (hc.types_known s hsignature t ht)
    · exact Declaration.notMem_boundNames (x := .external s.external) hnodup rfl

theorem fits_of_mem (ha : Declaration.Admissible registry h.declarations) {d : Declaration}
    (hd : d ∈ h.declarations) :
    ∃ front, d.Fits registry front ∧
      ∀ t ∈ Declaration.knownTypes front, t ∈ TokenKind.typeWords ∨ t ∈ h.types := by
  obtain ⟨front, back, hsplit⟩ := List.append_of_mem hd
  refine ⟨front, ha front d back hsplit, fun t ht => ?_⟩
  have hall : t ∈ Declaration.knownTypes h.declarations := by
    rw [hsplit, Declaration.knownTypes, List.filterMap_append, ← List.append_assoc]
    exact List.mem_append_left _ ht
  rwa [knownTypes_declarations, List.mem_append] at hall

theorem consistent_of_admissible (ha : Declaration.Admissible registry h.declarations) :
    h.Consistent registry := by
  have hnodup := ha.nodup_boundNames
  rw [boundNames_declarations] at hnodup
  -- All names that are bound differ, so the three groups of names are apart from each other.
  obtain ⟨-, hnames, hwords⟩ := List.nodup_append.1 hnodup
  obtain ⟨htypes, hfunctions, hapart⟩ := List.nodup_append.1 hnames
  have hfits : ∀ use ∈ h.modules, ∀ s ∈ use.functions, ∃ front,
      Declaration.Fits registry front (.function use.name s) ∧
        ∀ t ∈ Declaration.knownTypes front, t ∈ TokenKind.typeWords ∨ t ∈ h.types :=
    fun use huse s hs => fits_of_mem ha (mem_declarations.2 (.inr ⟨use, huse, .inr ⟨s, hs, rfl⟩⟩))
  refine ⟨htypes, ?_, ?_, ?_, ?_, hfunctions, ?_⟩
  · intro t ht hword
    exact hwords t hword t (List.mem_append_left _ ht) rfl
  · intro use huse
    obtain ⟨front, hfront, -⟩ := fits_of_mem ha (mem_declarations.2 (.inr ⟨use, huse, .inl rfl⟩))
    exact hfront
  · intro use huse s hs module hmodule
    obtain ⟨front, ⟨found, hfound, hprovides, -⟩, -⟩ := hfits use huse s hs
    rw [hmodule] at hfound
    cases hfound
    exact hprovides
  · intro s hs t ht
    obtain ⟨use, huse, hs⟩ := List.mem_flatMap.1 hs
    obtain ⟨front, ⟨-, -, -, hknown, -⟩, hfront⟩ := hfits use huse s hs
    exact hfront t (hknown t ht)
  · intro s hs
    have hname : s.name ∈ h.signatures.map (·.name) := List.mem_map_of_mem hs
    constructor
    · exact fun hword => hwords _ hword _ (List.mem_append_right _ hname) rfl
    · exact fun htype => hapart _ htype _ hname rfl

theorem consistent_iff : h.Consistent registry ↔ Declaration.Admissible registry h.declarations :=
  ⟨Consistent.admissible, consistent_of_admissible⟩

end Header

/-- Declaring a header in a new global scope succeeds exactly if the header is consistent.  The scope
    then holds the types that are always there, the declared types and the declared functions, and every
    function is that of its own module.  Otherwise the first declaration with which something is wrong
    causes the error. -/
theorem declareHeader_iff_consistent (header : Header) (host : Host) (env : Environment) :
    let run := EvalM.declareHeader header host (.fresh env.openGlobal)
    (run.1 = .done () ∨ ∃ e, run.1 = .failed e) ∧
    (run.1 = .done () ↔ header.Consistent host.registry) ∧
    (run.1 = .done () →
      run.2.scopes = env.push (.global (TokenKind.typeWords.map .type ++ header.types.map .type ++
        header.signatures.map (fun s => .external s.external))) ∧
      ∀ name f, run.2.natives.get? name = some f ↔
        ∃ use ∈ header.modules, ∃ s ∈ use.functions, s.name = name ∧ ∃ module,
          host.registry.resolve? use.name = some module ∧ module.function? name = some f) ∧
    ∀ e, run.1 = .failed e ↔ Declaration.FirstFault host.registry header.declarations e := by
  intro run
  have hmade := Declaration.made_openGlobal host.registry env
  have heach : run = EvalM.each Declaration.declare header.declarations host (.fresh env.openGlobal) :=
    EvalM.declareHeader_eq_each header host _
  have hfault : ∀ e, Declaration.FirstFault host.registry header.declarations e →
      run.1 = .failed e := by
    intro e he
    obtain ⟨n, hn⟩ := he.each_eq hmade
    rw [heach, hn]
  rcases Declaration.Admissible.or_firstFault host.registry header.declarations with hall | ⟨e, he⟩
  · obtain ⟨n, hdone, hn⟩ := hall.each_eq hmade
    rw [← heach] at hdone
    rw [hdone] at hfault ⊢
    refine ⟨.inl rfl, iff_of_true rfl (Header.consistent_iff.2 hall), fun _ => ⟨?_, ?_⟩,
      fun e => ⟨nofun, hfault e⟩⟩
    · rw [hn.scopes, Header.symbols_declarations]
    · intro name f
      rw [hn.get?_natives]
      constructor
      · rintro ⟨_, s, module, hmem, hmodule, hf, rfl⟩
        obtain ⟨use, huse, hs, rfl⟩ := Header.mem_declarations_function.1 hmem
        exact ⟨use, huse, s, hs, rfl, module, hmodule, hf⟩
      · rintro ⟨use, huse, s, hs, rfl, module, hmodule, hf⟩
        have hmem := Header.mem_declarations_function.2 ⟨use, huse, hs, rfl⟩
        exact ⟨use.name, s, module, hmem, hmodule, hf, rfl⟩
  · -- The error is that of the first fault, and by `hfault` no other one can be first.
    have hfailed := hfault e he
    rw [hfailed] at hfault ⊢
    refine ⟨.inr ⟨e, rfl⟩, iff_of_false nofun ?_, nofun, fun e' => ⟨?_, hfault e'⟩⟩
    · intro hc
      obtain ⟨n, hdone, -⟩ := hc.admissible.each_eq hmade
      rw [heach, hdone] at hfailed
      cases hfailed
    · rintro ⟨⟩
      exact he

/-- A host with two modules. -/
def Studio.host : Host :=
  ⟨.register (.register .empty (.ofFunctions "audio" [Native.loadSound "load" (some 1)]))
    (.ofFunctions "library" [Native.soundTitle "title" (some 1)]), {}⟩

def Studio.header : Header :=
  ⟨["SOUND"], [⟨"audio", [⟨"load", ["STRING"], some "SOUND"⟩]⟩,
    ⟨"library", [⟨"title", ["SOUND"], some "STRING"⟩]⟩]⟩

/-- With its second signature nothing is wrong but the name, and with the third one much is. -/
def Studio.faulty : Header :=
  ⟨["SOUND", "title"], [⟨"audio", [⟨"load", ["STRING"], none⟩]⟩,
    ⟨"library", [⟨"title", ["SOUND"], none⟩, ⟨"load", ["SONG", "SONG"], none⟩]⟩]⟩

open Studio in
theorem declareHeader_iff_consistent_studio :
    let start : Machine Environment := .fresh Environment.empty.openGlobal
    (EvalM.declareHeader header host start).1 = .done () ∧ header.Consistent host.registry ∧
      ((EvalM.declareHeader header host start).2.natives.get? "title").isSome ∧
      (EvalM.declareHeader faulty host start).1 = .failed (.duplicate "title") ∧
      Declaration.FirstFault host.registry faulty.declarations (.duplicate "title") := by
  intro start
  obtain ⟨-, hiff, hmade, -⟩ := declareHeader_iff_consistent header host .empty
  obtain ⟨-, -, -, hfault⟩ := declareHeader_iff_consistent faulty host .empty
  have hdone : (EvalM.declareHeader header host start).1 = .done () := by cbv
  have hfailed : (EvalM.declareHeader faulty host start).1 = .failed (.duplicate "title") := by cbv
  refine ⟨hdone, hiff.1 hdone, ?_, hfailed, (hfault _).1 hfailed⟩
  have htitle := ((hmade hdone).2 "title" (Native.soundTitle "title" (some 1))).2
    ⟨_, .tail _ (.head _), _, .head _, rfl, _, rfl, rfl⟩
  exact Option.isSome_iff_exists.2 ⟨_, htitle⟩

end Tremolo
