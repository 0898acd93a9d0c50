import Tremolo.Proofs.Value.Sound

/-! # Renaming in values

A `Renaming` takes names to names, no two to the same one, and leaves the builtin types alone.  Of a value
it changes only the declared type that the value carries, and nothing that is computed from values
depends on that: operators look at the values alone, and a type accepts the same values as before
(`ValueType.accepts_rename`). -/

namespace Tremolo

/-- An injective map of names that keeps the names of builtin types, in whichever case they are
    written. -/
structure Renaming where
  toFun : String → String
  injective : Function.Injective toFun
  builtin : ∀ name, name.map Char.toUpper ∈ TokenKind.typeWords → toFun name = name

instance : CoeFun Renaming fun _ => String → String where
  coe := Renaming.toFun

/-! ## Results -/

/-- Two results match: the second is what `f` makes of the first, or both are errors of one kind. -/
inductive Matched {α β : Type} (f : α → β) : Except Error α → Except Error β → Prop
  | ok (a : α) : Matched f (.ok a) (.ok (f a))
  | error {e e' : Error} : e'.kind = e.kind → Matched f (.error e) (.error e')

theorem Matched.refl {α : Type} (x : Except Error α) : Matched id x x := by
  cases x with
  | ok a => exact .ok a
  | error e => exact .error rfl

/-! ## Types -/

namespace ValueType

def rename (r : Renaming) : ValueType → ValueType
  | named n => named (r n)
  | type => type

variable (r : Renaming)

theorem ofName_of_mem {name : String} (h : name.map Char.toUpper ∈ TokenKind.typeWords) :
    (ofName name).rename r = ofName name := by
  simp only [TokenKind.typeWords, List.mem_cons, List.not_mem_nil, or_false] at h
  rcases h with h | h | h <;> simp [ofName, h, rename]

theorem ofName_of_not_mem {name : String} (h : name.map Char.toUpper ∉ TokenKind.typeWords) :
    ofName name = .named name := by
  simp only [TokenKind.typeWords, List.mem_cons, List.not_mem_nil, or_false, not_or] at h
  obtain ⟨hnumber, hstring, hvar⟩ := h
  simp [ofName, hnumber, hstring, hvar]

theorem ofName_rename (name : String) : ofName (r name) = (ofName name).rename r := by
  by_cases hname : name.map Char.toUpper ∈ TokenKind.typeWords
  · rw [r.builtin name hname, ofName_of_mem r hname]
  · -- A name that is renamed to a builtin one would have been the same name before.
    have hrenamed : (r name).map Char.toUpper ∉ TokenKind.typeWords := by
      intro hmem
      have hsame : r name = name := r.injective (r.builtin (r name) hmem)
      exact hname (hsame ▸ hmem)
    rw [ofName_of_not_mem hname, ofName_of_not_mem hrenamed]
    rfl

theorem rename_eq_named {type : ValueType} {n : String} :
    type.rename r = .named (r n) ↔ type = .named n := by
  cases type with
  | named => simp [rename, r.injective.eq_iff]
  | number | string | var | null => simp [rename]

end ValueType

/-! ## Values -/

def TypedValue.rename (r : Renaming) (v : TypedValue) : TypedValue :=
  ⟨v.type.rename r, v.value⟩

variable (r : Renaming)

@[simp] theorem TypedValue.value_rename (v : TypedValue) : (v.rename r).value = v.value :=
  rfl

@[simp] theorem TypedValue.text_rename (v : TypedValue) : (v.rename r).text = v.text :=
  rfl

theorem TypedValue.Plain.rename {v : TypedValue} (h : v.Plain) : v.rename r = v := by
  cases h <;> rfl

theorem ValueType.accepts_rename (type : ValueType) (v : TypedValue) :
    (type.rename r).accepts (v.rename r) = type.accepts v := by
  cases type with
  | number | string | var | null => rfl
  | named n =>
    rw [Bool.eq_iff_iff]
    exact ValueType.accepts_named.trans ((rename_eq_named r).trans ValueType.accepts_named.symm)

/-! ## Operators -/

/-- What gives plain values may as well be said to rename them. -/
theorem Matched.rename {x y : Except Error TypedValue} (h : Matched id x y)
    (hx : ∀ w, x = .ok w → w.Plain) : Matched (TypedValue.rename r) x y := by
  cases h with
  | error he => exact .error he
  | ok w =>
    have hok : Matched (TypedValue.rename r) (.ok w) (.ok (w.rename r)) := .ok w
    rw [(hx w rfl).rename r] at hok
    exact hok

theorem UnaryOp.apply_matched (op : UnaryOp) (v : TypedValue) :
    Matched (TypedValue.rename r) (op.apply v) (op.apply (v.rename r)) := by
  refine Matched.rename r ?_ fun _ => UnaryOp.apply_plain
  simp only [UnaryOp.apply, TypedValue.value_rename]
  split
  · exact .refl _
  · exact .refl _
  · exact .refl _
  · exact .refl _
  · exact .error rfl

theorem BinaryOp.apply_matched (op : BinaryOp) (left right : TypedValue) :
    Matched (TypedValue.rename r) (op.apply left right)
      (op.apply (left.rename r) (right.rename r)) := by
  refine Matched.rename r ?_ fun _ => BinaryOp.apply_plain
  simp only [BinaryOp.apply, TypedValue.value_rename]
  split
  · exact .refl _
  · exact .refl _
  · split
    · exact .refl _
    · exact .error rfl

theorem CondOp.apply_matched (op : CondOp) (left right : TypedValue) :
    Matched (TypedValue.rename r) (op.apply left right)
      (op.apply (left.rename r) (right.rename r)) := by
  refine Matched.rename r ?_ fun _ => CondOp.apply_plain
  cases op with
  | eq | ne | and | or => exact .refl _
  | lt | gt | le | ge =>
    simp only [CondOp.apply, CondOp.order, TypedValue.value_rename]
    split
    · exact .refl _
    · exact .error rfl

/-! ## Variables -/

def Variable.rename (v : Variable) : Variable :=
  ⟨r v.name, v.type.rename r, v.value.map (TypedValue.rename r)⟩

theorem Variable.storedAs_rename (v : Variable) (value : TypedValue) :
    (v.rename r).storedAs (value.rename r) = (v.storedAs value).rename r := by
  obtain ⟨name, type, _⟩ := v
  cases type <;> rfl

theorem Variable.assign_matched (v : Variable) (value : TypedValue) :
    Matched (Variable.rename r) (v.assign value) ((v.rename r).assign (value.rename r)) := by
  have haccepts : (v.rename r).type.accepts (value.rename r) = v.type.accepts value :=
    v.type.accepts_rename r value
  simp only [Variable.assign, haccepts, storedAs_rename]
  split
  · exact .ok { v with value := some (v.storedAs value) }
  · exact .error rfl

end Tremolo
