import Tremolo.Json.Parser
import Tremolo.Json.Printer

/-! # Written JSON is read back

* `Json.depth`, `Json.nesting?` — how deep a value or a text nests arrays and objects;
* `Json.Plain` — values with integers for numbers, in which every string has characters;
* `Json.Plain.readValue` — a plain value is read back from its text, whatever follows;
* `Json.Plain.parse?_toText` — so a text is parsed to the value it was made from. -/

namespace Tremolo.Json

/-! ## Depth -/

mutual

/-- How deep arrays and objects are nested. -/
def depth : Json → Nat
  | .array items => depthItems items + 1
  | .object fields => depthFields fields + 1
  | _ => 0

/-- The depth of the deepest item. -/
def depthItems : List Json → Nat
  | [] => 0
  | item :: rest => max item.depth (depthItems rest)

/-- The depth of the deepest field. -/
def depthFields : List (Option String × Json) → Nat
  | [] => 0
  | (_, value) :: rest => max value.depth (depthFields rest)

end

theorem depthItems_le {items : List Json} {k : Nat} :
    depthItems items ≤ k ↔ ∀ j ∈ items, j.depth ≤ k := by
  induction items with
  | nil => simp [depthItems]
  | cons item rest ih => simp only [depthItems, Nat.max_le, ih, List.forall_mem_cons]

theorem depthFields_le {fields : List (Option String × Json)} {k : Nat} :
    depthFields fields ≤ k ↔ ∀ f ∈ fields, f.2.depth ≤ k := by
  induction fields with
  | nil => simp [depthFields]
  | cons field rest ih =>
    obtain ⟨key, value⟩ := field
    simp only [depthFields, Nat.max_le, ih, List.forall_mem_cons]

theorem depth_lt_array {items : List Json} {j : Json} (h : j ∈ items) :
    j.depth < (Json.array items).depth :=
  Nat.lt_succ_of_le (depthItems_le.1 (Nat.le_refl _) j h)

theorem depth_lt_object {fields : List (Option String × Json)} {key : Option String} {j : Json}
    (h : (key, j) ∈ fields) : j.depth < (Json.object fields).depth :=
  Nat.lt_succ_of_le (depthFields_le.1 (Nat.le_refl _) (key, j) h)

@[simp] theorem depth_null : Json.null.depth = 0 :=
  rfl

@[simp] theorem depth_text (s : String) : (Json.text s).depth = 0 :=
  rfl

@[simp] theorem depth_array (items : List Json) : (Json.array items).depth = depthItems items + 1 :=
  rfl

@[simp] theorem depth_texts (ss : List String) : (Json.texts ss).depth = 1 := by
  have hitems : depthItems (ss.map Json.text) ≤ 0 := depthItems_le.2 (by simp)
  simp only [Json.texts, depth_array]
  omega

theorem depth_float (x : Float) : (Json.float x).depth = 0 := by
  unfold Json.float
  split <;> rfl

/-- The depth of the deepest value of a record. -/
@[simp] def deepest : List (String × Json) → Nat
  | [] => 0
  | (_, value) :: rest => max value.depth (deepest rest)

theorem deepest_le {fields : List (String × Json)} {k : Nat} :
    deepest fields ≤ k ↔ ∀ f ∈ fields, f.2.depth ≤ k := by
  induction fields with
  | nil => simp
  | cons field rest ih => simp only [deepest, Nat.max_le, ih, List.forall_mem_cons]

@[simp] theorem depth_record (fields : List (String × Json)) :
    (Json.record fields).depth = deepest fields + 1 := by
  change depthFields (fields.map fun f => (some f.1, f.2)) + 1 = _
  induction fields with
  | nil => rfl
  | cons field rest ih =>
    rw [List.map_cons, depthFields, deepest, Nat.succ.inj ih]

@[simp] theorem depth_variant (tag : String) (content : Json) :
    (Json.variant tag content).depth = content.depth + 1 := by
  simp [Json.variant]

/-! ## Numbers -/

/-- What can stand behind a value: the end of the text, or a sign that ends a value. -/
inductive Closing : List Char → Prop
  | nil : Closing []
  | comma (rest : List Char) : Closing (',' :: rest)
  | bracket (rest : List Char) : Closing (']' :: rest)
  | brace (rest : List Char) : Closing ('}' :: rest)

section Digits

variable {digits after : List Char} (hdigits : ∀ c ∈ digits, c.isDigit = true) (hafter : Closing after)

include hafter

theorem Closing.takeWhile_isDigit : after.takeWhile Char.isDigit = [] := by
  cases hafter <;> rfl

theorem Closing.dropWhile_isDigit : after.dropWhile Char.isDigit = after := by
  cases hafter <;> rfl

theorem Closing.readFraction : readFraction after = some ([], after) := by
  cases hafter <;> rfl

theorem Closing.readExponent : readExponent after = some (none, after) := by
  cases hafter <;> rfl

include hdigits

theorem readDigits_append (hne : digits ≠ []) :
    readDigits (digits ++ after) = some (digits, after) := by
  unfold readDigits
  rw [List.takeWhile_append_of_pos hdigits, List.dropWhile_append_of_pos hdigits,
    hafter.takeWhile_isDigit, hafter.dropWhile_isDigit, List.append_nil]
  cases digits with
  | nil => exact absurd rfl hne
  | cons c rest => rfl

end Digits

theorem isDigit_of_mem_toDigits (n : Nat) : ∀ c ∈ Nat.toDigits 10 n, c.isDigit = true :=
  fun _ hc => Nat.isDigit_of_mem_toDigits (by decide) (by decide) hc

/-- The digits of a number that is not zero do not start with a zero. -/
theorem head?_toDigits {n : Nat} (hn : 0 < n) : (Nat.toDigits 10 n).head? ≠ some '0' := by
  induction n using Nat.strongRecOn with
  | _ n ih =>
    by_cases hlt : n < 10
    · rw [Nat.toDigits_of_lt_base hlt]
      have hall : ∀ k < 10, 0 < k → [k.digitChar].head? ≠ some '0' := by decide
      exact hall n hlt hn
    · rw [Nat.toDigits_of_base_le (by decide) (by omega)]
      have hfront := ih (n / 10) (by omega) (by omega)
      cases hdigits : Nat.toDigits 10 (n / 10) with
      | nil => exact absurd hdigits Nat.toDigits_ne_nil
      | cons c rest =>
        rw [hdigits] at hfront
        exact hfront

theorem readWhole_toDigits (n : Nat) {after : List Char} (hafter : Closing after) :
    readWhole (Nat.toDigits 10 n ++ after) = some (Nat.toDigits 10 n, after) := by
  unfold readWhole
  rw [readDigits_append (isDigit_of_mem_toDigits n) hafter Nat.toDigits_ne_nil]
  split
  next c rest _ heq =>
    -- A zero in front of other digits cannot be.
    simp only [Option.some.injEq, Prod.mk.injEq] at heq
    by_cases hn : 0 < n
    · exact absurd (by rw [heq.1]; rfl) (head?_toDigits hn)
    · have hzero : n = 0 := by omega
      subst hzero
      cases heq.1
  next => rfl

theorem readNumeral_toDigits (negative : Bool) (n : Nat) {after : List Char} (hafter : Closing after) :
    readNumeral negative (Nat.toDigits 10 n ++ after) =
      some (⟨negative, Nat.toDigits 10 n, [], none⟩, after) := by
  simp [readNumeral, readWhole_toDigits n hafter, hafter.readFraction, hafter.readExponent]

/-! ## Strings -/

theorem hexDigit?_hexChar {n : Nat} (h : n < 16) : hexDigit? (hexChar n) = some n := by
  have hall : ∀ n < 16, hexDigit? (hexChar n) = some n := by decide
  exact hall n h

/-- A control character is read back from its code. -/
theorem readParts_code {c : Char} (h : c.toNat < 0x20) (rest : List Char) :
    readParts ('\\' :: 'u' :: '0' :: '0' :: hexChar (c.toNat / 16) :: hexChar (c.toNat % 16) :: rest) =
      (readParts rest).map fun r => (.char c :: r.1, r.2) := by
  have hcode : hexCode? '0' '0' (hexChar (c.toNat / 16)) (hexChar (c.toNat % 16)) = some c.toNat := by
    have hzero : hexDigit? '0' = some 0 := by decide
    simp only [hexCode?, hexDigit?_hexChar (show c.toNat / 16 < 16 by omega),
      hexDigit?_hexChar (show c.toNat % 16 < 16 by omega), hzero, bind, Option.bind, pure]
    congr
    omega
  have hpart : StringPart.ofCode c.toNat = .char c := by
    unfold StringPart.ofCode
    rw [if_neg (by omega), if_neg (by omega), Char.ofNat_toNat]
  rw [readParts, hcode]
  cases readParts rest with
  | none => rfl
  | some r => simp [hpart]

theorem readParts_escape {e c : Char} (he : e ≠ 'u') (hc : simpleEscape? e = some c)
    (rest : List Char) :
    readParts ('\\' :: e :: rest) = (readParts rest).map fun r => (.char c :: r.1, r.2) := by
  rw [readParts, hc]
  · cases readParts rest with
    | none => rfl
    | some r => rfl
  · intro _ _ _ _ _ hu
    exact absurd hu he

theorem readParts_plain {c : Char} (hquote : c ≠ '"') (hslash : c ≠ '\\') (hcontrol : ¬ c.toNat < 0x20)
    (rest : List Char) :
    readParts (c :: rest) = (readParts rest).map fun r => (.char c :: r.1, r.2) := by
  rw [readParts]
  · rw [if_neg (by simp [hcontrol, hslash])]
    cases readParts rest with
    | none => rfl
    | some r => rfl
  · exact fun h => absurd h hquote
  · intro _ _ _ _ _ h
    exact absurd h hslash
  · intro _ _ h
    exact absurd h hslash

/-- Every character is read back from what is written for it. -/
theorem readParts_charText (c : Char) (rest : List Char) :
    readParts (charText c ++ rest) = (readParts rest).map fun r => (.char c :: r.1, r.2) := by
  unfold charText
  split
  case h_8 c hquote hslash _ _ _ _ _ =>
    split
    next hcontrol => exact readParts_code hcontrol rest
    next hcontrol => exact readParts_plain hquote hslash hcontrol rest
  all_goals exact readParts_escape (by decide) rfl rest

theorem joinParts_chars (cs : List Char) : joinParts (cs.map .char) = some cs := by
  induction cs with
  | nil => rfl
  | cons c cs ih => simp [joinParts, ih]

theorem readText_stringText (s : String) (after : List Char) :
    readText (s.toList.flatMap charText ++ '"' :: after) = some (some s, after) := by
  have hparts : ∀ cs : List Char,
      readParts (cs.flatMap charText ++ '"' :: after) = some (cs.map .char, after) := by
    intro cs
    induction cs with
    | nil => rfl
    | cons c cs ih => simp [readParts_charText, ih]
  simp [readText, hparts, joinParts_chars]

/-! ## Lists

Items of arrays and fields of objects are written and read in the same way. -/

section Lists

variable {α : Type} (text : α → List Char)

/-- Texts with commas between them. -/
def joined : List α → List Char
  | [] => []
  | [a] => text a
  | a :: rest => text a ++ ',' :: joined rest

theorem joined_cons (a b : α) (rest : List α) :
    joined text (a :: b :: rest) = text a ++ ',' :: joined text (b :: rest) :=
  rfl

theorem length_le_joined {a : α} {as : List α} (h : a ∈ as) :
    (text a).length ≤ (joined text as).length := by
  induction as with
  | nil => cases h
  | cons b rest ih =>
    cases rest with
    | nil =>
      obtain rfl := List.mem_singleton.1 h
      exact Nat.le_refl _
    | cons b' rest' =>
      rw [joined_cons, List.length_append, List.length_cons]
      rcases List.mem_cons.1 h with rfl | h
      · omega
      · have := ih h
        omega

theorem count_le_joined (as : List α) : as.length ≤ (joined text as).length + 1 := by
  induction as with
  | nil => simp
  | cons b rest ih =>
    cases rest with
    | nil => simp
    | cons b' rest' =>
      simp only [joined_cons, List.length_append, List.length_cons] at ih ⊢
      omega

/-- The text starts with something that is neither a blank nor the sign that closes a list. -/
def Opens (close : Char) (cs : List Char) : Prop :=
  ∃ c rest, cs = c :: rest ∧ isSpace c = false ∧ c ≠ close

theorem Opens.append {close : Char} {cs : List Char} (h : Opens close cs) (rest : List Char) :
    Opens close (cs ++ rest) := by
  obtain ⟨c, cs, rfl, hspace, hclose⟩ := h
  exact ⟨c, cs ++ rest, rfl, hspace, hclose⟩

theorem Opens.joined {close : Char} {a : α} (h : Opens close (text a)) (rest : List α) :
    Opens close (joined text (a :: rest)) := by
  cases rest with
  | nil => exact h
  | cons b rest => exact h.append _

variable {text} {close : Char} (hclose : close = ']' ∨ close = '}')
  {item : List Char → Option (α × List Char)} {after : List Char}

include hclose

theorem skipSpace_close : skipSpace (close :: after) = close :: after := by
  rcases hclose with rfl | rfl <;> rfl

theorem closing_close : Closing (close :: after) := by
  rcases hclose with rfl | rfl
  · exact .bracket after
  · exact .brace after

theorem readItems_joined {as : List α} {a : α} {fuel : Nat} (hfuel : as.length < fuel)
    (hitem : ∀ b ∈ a :: as, ∀ rest, Closing rest → item (text b ++ rest) = some (b, rest)) :
    readItems close item fuel (joined text (a :: as) ++ close :: after) = some (a :: as, after) := by
  induction as generalizing a fuel with
  | nil =>
    obtain ⟨fuel, rfl⟩ : ∃ k, fuel = k + 1 := ⟨fuel - 1, by simp at hfuel; omega⟩
    have hfirst := hitem a (by simp) (close :: after) (closing_close hclose)
    rcases hclose with rfl | rfl
    · simp [readItems, joined, hfirst, skipSpace, isSpace]
    · simp [readItems, joined, hfirst, skipSpace, isSpace]
  | cons b rest ih =>
    obtain ⟨fuel, rfl⟩ : ∃ k, fuel = k + 1 := ⟨fuel - 1, by simp at hfuel; omega⟩
    have hfirst := hitem a (by simp) (',' :: (joined text (b :: rest) ++ close :: after)) (.comma _)
    have hrest : readItems close item fuel (joined text (b :: rest) ++ close :: after) =
        some (b :: rest, after) :=
      ih (by simpa using hfuel) fun c hc => hitem c (List.mem_cons_of_mem a hc)
    simp [readItems, joined_cons, hfirst, skipSpace, isSpace, hrest]

/-- A list is read back from its joined items, if the items are. -/
theorem readList_joined {as : List α} (hopens : ∀ a ∈ as, Opens close (text a))
    (hitem : ∀ a ∈ as, ∀ rest, Closing rest → item (text a ++ rest) = some (a, rest)) :
    readList close item (joined text as ++ close :: after) = some (as, after) := by
  cases as with
  | nil => simp [readList, joined, skipSpace_close hclose]
  | cons a as =>
    obtain ⟨c, cs, heq, hspace, hne⟩ :=
      ((hopens a (by simp)).joined text as).append (close :: after)
    have hlength : as.length < (joined text (a :: as) ++ close :: after).length := by
      have hcount := count_le_joined text (a :: as)
      simp only [List.length_append, List.length_cons] at hcount ⊢
      omega
    have hread : readItems close item (joined text (a :: as) ++ close :: after).length
        (joined text (a :: as) ++ close :: after) = some (a :: as, after) :=
      readItems_joined hclose hlength hitem
    unfold readList
    rw [heq] at hread ⊢
    have hskip : skipSpace (c :: cs) = c :: cs := by simp [skipSpace, hspace]
    rw [hskip]
    simp only [if_neg hne]
    exact hread

end Lists

/-! ## Values -/

/-- Values with integers for numbers, in which every string has characters. -/
inductive Plain : Json → Prop
  | null : Plain .null
  | bool (b : Bool) : Plain (.bool b)
  | int (n : Int) : Plain (.int n)
  | text (s : String) : Plain (.text s)
  | array {items : List Json} : (∀ j ∈ items, Plain j) → Plain (.array items)
  | record {fields : List (String × Json)} : (∀ f ∈ fields, Plain f.2) → Plain (.record fields)

theorem Plain.variant {c : Json} (h : c.Plain) (tag : String) : (Json.variant tag c).Plain :=
  .record (by simpa using h)

section Lists

variable {α : Type} {f : α → Json}

theorem Plain.map {items : List α} (h : ∀ a ∈ items, (f a).Plain) : (Json.array (items.map f)).Plain :=
  .array (List.forall_mem_map.2 h)

theorem Plain.texts (ss : List String) : (Json.texts ss).Plain :=
  .map fun s _ => .text s

theorem Plain.orNull {value : Option α} (h : ∀ a ∈ value, (f a).Plain) :
    ((value.map f).getD .null).Plain := by
  cases value with
  | none => exact .null
  | some a => exact h a rfl

end Lists

theorem renderItems_eq (items : List Json) : renderItems items = joined render items := by
  induction items with
  | nil => rfl
  | cons item rest ih =>
    cases rest with
    | nil => rfl
    | cons item' rest' => simp only [renderItems, joined_cons, ih]

/-- The text of a field. -/
def fieldText (field : Option String × Json) : List Char :=
  stringText field.1 ++ ':' :: field.2.render

theorem renderFields_eq (fields : List (Option String × Json)) :
    renderFields fields = joined fieldText fields := by
  induction fields with
  | nil => rfl
  | cons field rest ih =>
    obtain ⟨key, value⟩ := field
    cases rest with
    | nil => rfl
    | cons field' rest' => simp [renderFields, joined_cons, ih, fieldText]

theorem stringText_append (s : String) (after : List Char) :
    stringText (some s) ++ after = '"' :: (s.toList.flatMap charText ++ '"' :: after) := by
  have htext : stringText (some s) = '"' :: s.toList.flatMap charText ++ ['"'] := rfl
  rw [htext]
  simp only [List.cons_append, List.append_assoc, List.nil_append]

theorem opens_stringText {close : Char} (h : close ≠ '"') (s : String) :
    Opens close (stringText (some s)) :=
  ⟨'"', _, rfl, rfl, h.symm⟩

/-- A number starts with a digit or a sign. -/
theorem text_ofInt (n : Int) :
    (Numeral.ofInt n).text = (if n < 0 then ['-'] else []) ++ Nat.toDigits 10 n.natAbs := by
  simp [Numeral.ofInt, Numeral.text]

theorem opens_digit {c : Char} (h : c.isDigit = true) (rest : List Char) : Opens ']' (c :: rest) := by
  refine ⟨c, rest, rfl, ?_, ?_⟩
  · cases hspace : isSpace c with
    | false => rfl
    | true =>
      simp only [isSpace, Bool.or_eq_true, beq_iff_eq] at hspace
      rcases hspace with ((rfl | rfl) | rfl) | rfl <;> exact absurd h (by decide)
  · rintro rfl
    exact absurd h (by decide)

theorem Plain.opens {j : Json} (h : j.Plain) : Opens ']' j.render := by
  cases h with
  | null => exact ⟨'n', _, rfl, rfl, by decide⟩
  | bool b => cases b <;> exact ⟨_, _, rfl, rfl, by decide⟩
  | int n =>
    simp only [Json.int, render, text_ofInt]
    split
    · exact ⟨'-', _, rfl, rfl, by decide⟩
    · cases hdigits : Nat.toDigits 10 n.natAbs with
      | nil => exact absurd hdigits Nat.toDigits_ne_nil
      | cons c rest =>
        exact opens_digit (isDigit_of_mem_toDigits n.natAbs c (by simp [hdigits])) rest
  | text s => exact opens_stringText (by decide) s
  | array => exact ⟨'[', _, rfl, rfl, by decide⟩
  | record => exact ⟨'{', _, rfl, rfl, by decide⟩

theorem readValue_digit {c : Char} (h : c.isDigit = true) (d : Nat) (rest : List Char) :
    readValue (d + 1) (c :: rest) =
      (readNumeral false (c :: rest)).map fun r => (.number r.1, r.2) := by
  obtain ⟨c, rest, heq, hspace, -⟩ := opens_digit h rest
  cases heq
  have hskip : skipSpace (c :: rest) = c :: rest := by simp [skipSpace, hspace]
  simp only [readValue, hskip]
  -- Every other kind of value starts with a sign that is not a digit.
  split
  case h_8 => rfl
  all_goals
    next heq =>
      cases heq
      exact absurd h (by decide)

theorem readValue_int (n : Int) (d : Nat) {after : List Char} (hafter : Closing after) :
    readValue (d + 1) ((Json.int n).render ++ after) = some (.int n, after) := by
  have hnumeral := fun negative => readNumeral_toDigits negative n.natAbs hafter
  simp only [Json.int, render, text_ofInt]
  by_cases hn : n < 0
  · rw [if_pos hn]
    change (readNumeral true (Nat.toDigits 10 n.natAbs ++ after)).map _ = _
    simp [hnumeral, Numeral.ofInt, hn]
  · rw [if_neg hn, List.nil_append]
    cases hdigits : Nat.toDigits 10 n.natAbs with
    | nil => exact absurd hdigits Nat.toDigits_ne_nil
    | cons c rest =>
      rw [List.cons_append, readValue_digit (isDigit_of_mem_toDigits n.natAbs c (by simp [hdigits])),
        ← List.cons_append, ← hdigits, hnumeral]
      simp [Numeral.ofInt, hn]

theorem readField_fieldText {value : List Char → Option (Json × List Char)} {key : String} {j : Json}
    {after : List Char} (hj : value (j.render ++ after) = some (j, after)) :
    readField value (fieldText (some key, j) ++ after) = some ((some key, j), after) := by
  have htext := readText_stringText key (':' :: (j.render ++ after))
  simp only [fieldText, List.append_assoc, stringText_append, List.cons_append]
  simp [readField, skipSpace, isSpace, htext, hj]

/-- A plain value is read back from its text, whatever follows. -/
theorem Plain.readValue {j : Json} (h : j.Plain) :
    ∀ {d : Nat}, j.depth < d → ∀ after, Closing after →
      readValue d (j.render ++ after) = some (j, after) := by
  induction h with
  | null =>
    intro d hd after _
    obtain ⟨d, rfl⟩ : ∃ k, d = k + 1 := ⟨d - 1, by omega⟩
    rfl
  | bool b =>
    intro d hd after _
    obtain ⟨d, rfl⟩ : ∃ k, d = k + 1 := ⟨d - 1, by omega⟩
    cases b <;> rfl
  | int n =>
    intro d hd after hafter
    obtain ⟨d, rfl⟩ : ∃ k, d = k + 1 := ⟨d - 1, by omega⟩
    exact readValue_int n d hafter
  | text s =>
    intro d hd after _
    obtain ⟨d, rfl⟩ : ∃ k, d = k + 1 := ⟨d - 1, by omega⟩
    simp only [Json.text, render, stringText_append]
    change (readText (s.toList.flatMap charText ++ '"' :: after)).map _ = _
    rw [readText_stringText]
    rfl
  | @array items hitems ih =>
    intro d hd after _
    obtain ⟨d, rfl⟩ : ∃ k, d = k + 1 := ⟨d - 1, by omega⟩
    have hlist : readList ']' (Json.readValue d) (joined render items ++ ']' :: after) =
        some (items, after) :=
      readList_joined (.inl rfl) (fun j hj => (hitems j hj).opens) fun j hj rest hrest =>
        ih j hj (Nat.lt_of_lt_of_le (depth_lt_array hj) (Nat.le_of_lt_succ hd)) rest hrest
    simp only [render, renderItems_eq, List.append_assoc, List.cons_append, List.nil_append]
    change (readList ']' (Json.readValue d) _).map _ = _
    rw [hlist]
    rfl
  | @record fields hfields ih =>
    intro d hd after _
    obtain ⟨d, rfl⟩ : ∃ k, d = k + 1 := ⟨d - 1, by omega⟩
    have hlist : readList '}' (readField (Json.readValue d))
        (joined fieldText (fields.map fun f => (some f.1, f.2)) ++ '}' :: after) =
        some (fields.map fun f => (some f.1, f.2), after) := by
      refine readList_joined (.inr rfl) ?_ ?_
      · intro field hfield
        obtain ⟨f, -, rfl⟩ := List.mem_map.1 hfield
        exact (opens_stringText (by decide) f.1).append _
      · intro field hfield rest hrest
        have hlt := depth_lt_object hfield
        obtain ⟨f, hf, rfl⟩ := List.mem_map.1 hfield
        exact readField_fieldText
          (ih f hf (Nat.lt_of_lt_of_le hlt (Nat.le_of_lt_succ hd)) rest hrest)
    simp only [Json.record, render, renderFields_eq, List.append_assoc, List.cons_append,
      List.nil_append]
    change (readList '}' (readField (Json.readValue d)) _).map _ = _
    rw [hlist]
    rfl

/-! ## Texts -/

theorem Plain.depth_le {j : Json} (h : j.Plain) : j.depth ≤ j.render.length := by
  induction h with
  | null | bool | int | text => exact Nat.zero_le _
  | @array items _ ih =>
    have hitems : depthItems items ≤ (joined render items).length :=
      depthItems_le.2 fun j hj => Nat.le_trans (ih j hj) (length_le_joined render hj)
    simp only [depth, render, renderItems_eq, List.length_append, List.length_cons]
    omega
  | @record fields _ ih =>
    have hfields : depthFields (fields.map fun f => (some f.1, f.2)) ≤
        (joined fieldText (fields.map fun f => (some f.1, f.2))).length := by
      refine depthFields_le.2 fun field hfield => ?_
      have hlength := length_le_joined fieldText hfield
      obtain ⟨f, hf, rfl⟩ := List.mem_map.1 hfield
      have hvalue := ih f hf
      simp only [fieldText, List.length_append, List.length_cons] at hlength ⊢
      omega
    simp only [Json.record, depth, render, renderFields_eq, List.length_append, List.length_cons]
    omega

/-- How deep a text nests arrays and objects. -/
def nesting? (s : String) : Option Nat :=
  (parse? s).map depth

/-- The value that a text was made from is found again. -/
theorem Plain.parse?_toText {j : Json} (h : j.Plain) : parse? j.toText = some j := by
  -- There are as many levels as characters, and no value nests deeper than its text is long.
  have hread : Json.readValue (j.render.length + 1) (j.render ++ []) = some (j, []) :=
    h.readValue (Nat.lt_succ_of_le h.depth_le) [] .nil
  have htext : j.toText.toList = j.render := String.toList_ofList
  rw [List.append_nil] at hread
  unfold parse?
  simp only [htext, hread, bind, Option.bind]
  rfl

end Tremolo.Json
