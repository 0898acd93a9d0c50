import Tremolo.Table

/-! # Reading tables

What a table answers after a name was bound in it, and what binding does to its entries.

* `get?_insert` — the bound name has the new entry, every other name the old one;
* `mem_insert` — an entry of the table afterwards is the new one or an old one;
* `relabel` — other names and other entries, which commutes with reading and binding if no two names
  become one; `map` leaves the names alone. -/

namespace Tremolo.Table

variable {α β : Type}

/-! ## Binding -/

theorem lookup_cons (key : String) (entry : String × α) (rest : List (String × α)) :
    (entry :: rest).lookup key = if key = entry.1 then some entry.2 else rest.lookup key := by
  rw [List.lookup_cons]
  by_cases h : key = entry.1
  · simp [h]
  · have hne : (key == entry.1) = false := by simpa using h
    simp [h, hne]

theorem lookup_bind (name key : String) (a : α) (entries : List (String × α)) :
    (bind name a entries).lookup key = if key = name then some a else entries.lookup key := by
  induction entries with
  | nil => simp [bind, lookup_cons]
  | cons entry rest ih =>
    by_cases hk : entry.1 = name
    · subst hk
      simp only [bind, if_true, lookup_cons]
      split <;> rfl
    · simp only [bind, if_neg hk, lookup_cons, ih]
      by_cases h : key = entry.1
      · simp [h, hk]
      · simp [h]

/-- The bound name has the new entry, every other name the old one. -/
theorem get?_insert (table : Table α) (name key : String) (a : α) :
    (table.insert name a).get? key = if key = name then some a else table.get? key :=
  lookup_bind name key a table.entries

theorem mem_bind {name : String} {a : α} {entries : List (String × α)} {entry : String × α}
    (h : entry ∈ bind name a entries) : entry = (name, a) ∨ entry ∈ entries := by
  induction entries with
  | nil => simpa [bind] using h
  | cons head rest ih =>
    obtain ⟨k, b⟩ := head
    by_cases hk : k = name
    · subst hk
      simp only [bind, if_true, List.mem_cons] at h
      rcases h with rfl | h
      · exact .inl rfl
      · exact .inr (List.mem_cons_of_mem _ h)
    · simp only [bind, if_neg hk, List.mem_cons] at h
      rcases h with rfl | h
      · exact .inr List.mem_cons_self
      · exact (ih h).imp_right (List.mem_cons_of_mem _)

/-- An entry of the table afterwards is the new one or an old one. -/
theorem mem_insert {table : Table α} {name : String} {a : α} {entry : String × α}
    (h : entry ∈ (table.insert name a).entries) : entry = (name, a) ∨ entry ∈ table.entries :=
  mem_bind h

theorem mem_of_get? {table : Table α} {name : String} {a : α} (h : table.get? name = some a) :
    (name, a) ∈ table.entries := by
  obtain ⟨entries⟩ := table
  simp only [get?] at h
  induction entries with
  | nil => simp at h
  | cons head rest ih =>
    rw [lookup_cons] at h
    split at h
    next hname =>
      cases h
      subst hname
      exact List.mem_cons_self
    next => exact List.mem_cons_of_mem _ (ih h)

/-- A name that is new is bound at the end. -/
theorem bind_new {name : String} {entries : List (String × α)} (hnew : entries.lookup name = none)
    (a : α) : bind name a entries = entries ++ [(name, a)] := by
  induction entries with
  | nil => rfl
  | cons entry rest ih =>
    rw [lookup_cons] at hnew
    by_cases hname : name = entry.1
    · simp [hname] at hnew
    · rw [if_neg hname] at hnew
      rw [bind, if_neg (Ne.symm hname), ih hnew, List.cons_append]

/-- Binding a name adds it at the end, if it is new. -/
theorem names_bind (name : String) (a : α) (entries : List (String × α)) :
    (bind name a entries).map (·.1) =
      if name ∈ entries.map (·.1) then entries.map (·.1) else entries.map (·.1) ++ [name] := by
  induction entries with
  | nil => simp [bind]
  | cons entry rest ih =>
    by_cases hk : entry.1 = name
    · simp [bind, hk]
    · simp only [bind, if_neg hk, List.map_cons, ih, List.mem_cons, Ne.symm hk, false_or]
      split <;> rfl

theorem nodup_insert {table : Table α} (h : table.names.Nodup) (name : String) (a : α) :
    (table.insert name a).names.Nodup := by
  simp only [names, insert, names_bind]
  split
  · exact h
  next hnew =>
    have hother : ∀ key ∈ table.names, key ≠ name := fun key hkey heq => hnew (heq ▸ hkey)
    exact List.nodup_append.2 ⟨h, by simp, by simpa [names] using hother⟩

/-- If every name is bound once, the entries are the answers of the table. -/
theorem get?_of_mem {table : Table α} (h : table.names.Nodup) {name : String} {a : α}
    (hmem : (name, a) ∈ table.entries) : table.get? name = some a := by
  obtain ⟨entries⟩ := table
  simp only [get?, names] at h hmem ⊢
  induction entries with
  | nil => cases hmem
  | cons entry rest ih =>
    simp only [List.map_cons, List.nodup_cons] at h
    rw [lookup_cons]
    by_cases hname : name = entry.1
    · rcases List.mem_cons.1 hmem with rfl | hrest
      · simp
      · exact absurd (List.mem_map_of_mem (f := (·.1)) hrest) (hname ▸ h.1)
    · rw [if_neg hname]
      rcases List.mem_cons.1 hmem with rfl | hrest
      · exact absurd rfl hname
      · exact ih h.2 hrest

/-! ## Changing the entries -/

/-- Other names and other entries, in the same order. -/
def relabel (name : String → String) (f : α → β) (table : Table α) : Table β :=
  ⟨table.entries.map fun entry => (name entry.1, f entry.2)⟩

section Relabel

variable {name : String → String} (hname : Function.Injective name) (f : α → β)

include hname

theorem get?_relabel (table : Table α) (key : String) :
    (table.relabel name f).get? (name key) = (table.get? key).map f := by
  obtain ⟨entries⟩ := table
  simp only [get?, relabel]
  induction entries with
  | nil => rfl
  | cons head rest ih =>
    simp only [List.map_cons, lookup_cons, ih, hname.eq_iff]
    split <;> rfl

theorem bind_relabel (key : String) (a : α) (entries : List (String × α)) :
    bind (name key) (f a) (entries.map fun entry => (name entry.1, f entry.2)) =
      (bind key a entries).map fun entry => (name entry.1, f entry.2) := by
  induction entries with
  | nil => rfl
  | cons head rest ih =>
    by_cases h : head.1 = key
    · simp [bind, h]
    · simp [bind, h, hname.eq_iff, ih]

theorem insert_relabel (table : Table α) (key : String) (a : α) :
    (table.relabel name f).insert (name key) (f a) = (table.insert key a).relabel name f := by
  simp only [insert, relabel, bind_relabel hname]

end Relabel

/-- The same names in the same order, with other entries. -/
def map (f : α → β) (table : Table α) : Table β :=
  ⟨table.entries.map fun entry => (entry.1, f entry.2)⟩

theorem get?_map (f : α → β) (table : Table α) (name : String) :
    (table.map f).get? name = (table.get? name).map f :=
  get?_relabel Function.injective_id f table name

theorem insert_map (f : α → β) (table : Table α) (name : String) (a : α) :
    (table.map f).insert name (f a) = (table.insert name a).map f :=
  insert_relabel Function.injective_id f table name a

theorem map_eq_self {f : α → α} {table : Table α}
    (h : ∀ entry ∈ table.entries, f entry.2 = entry.2) : table.map f = table := by
  obtain ⟨entries⟩ := table
  simp only [map, mk.injEq]
  calc entries.map (fun entry => (entry.1, f entry.2))
      = entries.map id := List.map_congr_left fun entry hentry => by rw [h entry hentry]; rfl
    _ = entries := List.map_id entries

end Tremolo.Table
