import Tremolo.Symbol.Basic
import Tremolo.Value.Operation

/-! # Values that are what their types say

The type beside a value is a promise about the value: a number, a string, nothing, or something that a
declared type was given to.  `TypedValue.Genuine` is that promise, for a set of declared types and for
what is known of the values that carry them.  Operators and literals keep it without looking at declared
types at all (`TypedValue.Plain`), and storing a value in a variable keeps it because the variable checks
what it stores. -/

namespace Tremolo

/-! ## Types and their names -/

theorem ValueType.ofName_ne_null (name : String) : ofName name ≠ .null := by
  simp only [ofName]
  split
  · simp
  · split
    · simp
    · split <;> simp

theorem ValueType.ofName_typeWords {word : String} (h : word ∈ TokenKind.typeWords) :
    ofName word ∈ [.number, .string, .var] := by
  revert word
  simp [TokenKind.typeWords, ofName, String.map_eq_internal]

/-- Only names that are no builtin type words name declared types. -/
theorem ValueType.ofName_eq_named {name n : String} (h : ofName name = .named n) :
    name = n ∧ name ∉ TokenKind.typeWords := by
  constructor
  · simp only [ofName] at h
    split at h
    · cases h
    · split at h
      · cases h
      · split at h
        · cases h
        · exact ValueType.named.inj h
  · intro hword
    have hbuiltin := ofName_typeWords hword
    rw [h] at hbuiltin
    simp at hbuiltin

/-! ## Values -/

/-- The type of a value is right about it, and is one of the declared types if it is no builtin one. -/
structure TypedValue.Sound (types : String → Prop) (v : TypedValue) : Prop where
  number : v.type = .number → (∃ n, v.value = .int n) ∨ ∃ x, v.value = .float x
  string : v.type = .string → ∃ s, v.value = .string s
  null : v.type = .null → v.value = .null
  named : ∀ n, v.type = .named n → types n

/-- A sound value that may carry its declared type. -/
structure TypedValue.Genuine (types : String → Prop) (vouched : String → Value → Prop)
    (v : TypedValue) : Prop extends TypedValue.Sound types v where
  vouched : ∀ n, v.type = .named n → vouched n v.value

/-- What literals and operators give. -/
inductive TypedValue.Plain : TypedValue → Prop
  | int (n : Int64) : Plain ⟨.number, .int n⟩
  | float (x : Float) : Plain ⟨.number, .float x⟩
  | string (s : String) : Plain ⟨.string, .string s⟩
  | bool (b : Bool) : Plain (.bool b)
  | null : Plain .null

variable {types : String → Prop} {vouched vouched' : String → Value → Prop} {v w : TypedValue}

theorem TypedValue.Plain.genuine (h : v.Plain) : v.Genuine types vouched := by
  cases h with
  | int | float | string => exact ⟨⟨by simp, by simp, by simp, by simp⟩, by simp⟩
  | bool b => exact ⟨⟨nofun, nofun, nofun, nofun⟩, nofun⟩
  | null => exact ⟨⟨nofun, nofun, fun _ => rfl, nofun⟩, nofun⟩

theorem TypedValue.Genuine.mono (h : v.Genuine types vouched)
    (hmono : ∀ n x, vouched n x → vouched' n x) : v.Genuine types vouched' :=
  ⟨h.toSound, fun n hn => hmono n _ (h.vouched n hn)⟩

theorem Value.isNumber_iff {x : Value} :
    x.isNumber = true ↔ (∃ n, x = .int n) ∨ ∃ y, x = .float y := by
  cases x <;> simp [Value.isNumber]

theorem Value.isString_iff {x : Value} : x.isString = true ↔ ∃ s, x = .string s := by
  cases x <;> simp [Value.isString]

/-- A type that accepts a value may be put beside it. -/
theorem TypedValue.genuine_of_accepts {type : ValueType} {x : TypedValue} (h : type.accepts x = true)
    (hnull : type ≠ .null) (htypes : ∀ n, type = .named n → types n)
    (hvouched : ∀ n, type = .named n → vouched n x.value) :
    TypedValue.Genuine types vouched ⟨type, x.value⟩ := by
  cases type with
  | number => exact ⟨⟨fun _ => Value.isNumber_iff.1 h, by simp, by simp, by simp⟩, by simp⟩
  | string => exact ⟨⟨by simp, fun _ => Value.isString_iff.1 h, by simp, by simp⟩, by simp⟩
  | var => exact ⟨⟨by simp, by simp, by simp, by simp⟩, by simp⟩
  | null => exact absurd rfl hnull
  | named n => exact ⟨⟨by simp, by simp, by simp, htypes⟩, hvouched⟩

theorem ValueType.accepts_named {n : String} {x : TypedValue} :
    (ValueType.named n).accepts x = true ↔ x.type = .named n := by
  simp [ValueType.accepts]

/-! ## Operators -/

theorem UnaryOp.apply_plain {op : UnaryOp} (h : op.apply v = .ok w) : w.Plain := by
  unfold UnaryOp.apply at h
  split at h
  · cases h; exact .int _
  · cases h; exact .float _
  · split at h
    · cases h; exact .int _
    · cases h
  · cases h; exact .float _
  · cases h

theorem BinaryOp.keep_plain {op : BinaryOp} {a b : Int64} {n : Int} (h : op.keep a b n = .ok w) :
    w.Plain := by
  unfold BinaryOp.keep at h
  split at h
  · cases h; exact .int _
  · cases h

theorem BinaryOp.applyInt_plain {op : BinaryOp} {a b : Int64} (h : op.applyInt a b = .ok w) :
    w.Plain := by
  cases op with
  | add | sub | mul => exact keep_plain h
  | div =>
    simp only [BinaryOp.applyInt] at h
    split at h
    · cases h
    · split at h
      · exact keep_plain h
      · cases h; exact .float _

theorem BinaryOp.applyFloat_plain {op : BinaryOp} {a b : Float} (h : op.applyFloat a b = .ok w) :
    w.Plain := by
  cases op with
  | add | sub | mul => cases h; exact .float _
  | div =>
    simp only [BinaryOp.applyFloat] at h
    split at h
    · cases h
    · cases h; exact .float _

theorem BinaryOp.apply_plain {op : BinaryOp} {l r : TypedValue} (h : op.apply l r = .ok w) :
    w.Plain := by
  unfold BinaryOp.apply at h
  split at h
  · cases h; exact .string _
  · exact applyInt_plain h
  · split at h
    · exact applyFloat_plain h
    · cases h

theorem CondOp.order_plain {op : CondOp} {l r : TypedValue} (h : op.order l r = .ok w) :
    w.Plain := by
  unfold CondOp.order at h
  split at h
  · cases h; exact .bool _
  · cases h

theorem CondOp.apply_plain {op : CondOp} {l r : TypedValue} (h : op.apply l r = .ok w) :
    w.Plain := by
  cases op with
  | lt | gt | le | ge => exact order_plain h
  | eq | ne | and | or => cases h; exact .bool _

/-! ## Variables -/

/-- The variable has a type that was declared, and its value is as the type says. -/
structure Variable.Sound (types : String → Prop) (v : Variable) : Prop where
  notNull : v.type ≠ .null
  named : ∀ n, v.type = .named n → types n
  accepted : ∀ x, v.value = some x → v.type.accepts x = true
  labelled : ∀ x, v.value = some x → v.type ≠ .var → x.type = v.type
  value : ∀ x, v.value = some x → x.Sound types

/-- A sound variable whose value may carry its declared type. -/
structure Variable.Genuine (types : String → Prop) (vouched : String → Value → Prop)
    (v : Variable) : Prop extends Variable.Sound types v where
  vouched : ∀ x n, v.value = some x → x.type = .named n → vouched n x.value

namespace Variable

variable {v w : Variable} {x : TypedValue}

theorem Genuine.mono (h : v.Genuine types vouched) (hmono : ∀ n x, vouched n x → vouched' n x) :
    v.Genuine types vouched' :=
  ⟨h.toSound, fun x n hx hn => hmono n _ (h.vouched x n hx hn)⟩

theorem Genuine.get (h : v.Genuine types vouched) (hx : v.value = some x) :
    x.Genuine types vouched :=
  ⟨h.value x hx, fun n hn => h.vouched x n hx hn⟩

theorem genuine_unset {name : String} {type : ValueType} (hnull : type ≠ .null)
    (hnamed : ∀ n, type = .named n → types n) : (unset name type).Genuine types vouched :=
  ⟨⟨hnull, hnamed, by simp [unset], by simp [unset], by simp [unset]⟩, by simp [unset]⟩

theorem assign_accepts (h : v.assign x = .ok w) : v.type.accepts x = true := by
  unfold assign at h
  split at h
  · assumption
  · cases h

/-- What is stored is accepted again, under the type of the variable. -/
theorem accepts_storedAs (h : v.type.accepts x = true) : v.type.accepts (v.storedAs x) = true := by
  unfold storedAs
  cases htype : v.type <;> simp_all [ValueType.accepts]

theorem storedAs_type (h : v.type ≠ .var) : (v.storedAs x).type = v.type := by
  unfold storedAs
  cases htype : v.type <;> simp_all

theorem genuine_storedAs (hv : v.Genuine types vouched) (hx : x.Genuine types vouched)
    (h : v.type.accepts x = true) : (v.storedAs x).Genuine types vouched := by
  by_cases hvar : v.type = .var
  · simpa [storedAs, hvar] using hx
  · have hstored : v.storedAs x = ⟨v.type, x.value⟩ := by
      unfold storedAs
      cases htype : v.type <;> simp_all
    rw [hstored]
    refine TypedValue.genuine_of_accepts h hv.notNull hv.named fun n hn => hx.vouched n ?_
    -- Only a value that has the declared type already is accepted under it.
    rw [hn] at h
    exact ValueType.accepts_named.1 h

theorem Genuine.assign (hv : v.Genuine types vouched) (hx : x.Genuine types vouched)
    (h : v.assign x = .ok w) : w.Genuine types vouched := by
  have haccepts := assign_accepts h
  have hstored := genuine_storedAs hv hx haccepts
  unfold Variable.assign at h
  rw [if_pos haccepts] at h
  cases h
  refine ⟨⟨hv.notNull, hv.named, ?_, ?_, ?_⟩, ?_⟩
  · rintro _ ⟨⟩
    exact accepts_storedAs haccepts
  · rintro _ ⟨⟩ hvar
    exact storedAs_type hvar
  · rintro _ ⟨⟩
    exact hstored.toSound
  · rintro _ n ⟨⟩ hn
    exact hstored.vouched n hn

end Variable

end Tremolo
