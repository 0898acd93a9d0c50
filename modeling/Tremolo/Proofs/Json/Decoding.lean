import Tremolo.Json.Decoder
import Tremolo.Proofs.Json.Rendering

/-! # Decoders and depth

What a decoder does with a value depends on how deep it may enter.  Two things are said of a decoder
together with the way in which its data are written:

* `Decoder.Exact` — written data are read back if the levels suffice, and otherwise not at all;
* `Decoder.Bounded` — data that were read in whatever notation are never written deeper than the value
  they were read from, nor deeper than the levels that were entered. -/

namespace Tremolo.Json

/-! ## Levels that suffice -/

section Fits

variable {α β : Type}

/-- Something that needs `k` of `n` levels. -/
def fits (k : Nat) (a : α) (n : Nat) : Option α :=
  if k ≤ n then some a else none

@[simp] theorem fits_zero (a : α) (n : Nat) : fits 0 a n = some a := by
  simp [fits]

@[simp] theorem fits_succ_zero (k : Nat) (a : α) : fits (k + 1) a 0 = none := by
  simp [fits]

@[simp] theorem fits_succ_succ (k : Nat) (a : α) (n : Nat) : fits (k + 1) a (n + 1) = fits k a n := by
  simp [fits]

/-- One level more is needed than inside. -/
theorem fits_under {k : Nat} {a : α} {f : Nat → Option α} (hzero : f 0 = none)
    (hsucc : ∀ n, f (n + 1) = fits k a n) (n : Nat) : f n = fits (k + 1) a n := by
  cases n with
  | zero => rw [hzero, fits_succ_zero]
  | succ n => rw [hsucc, fits_succ_succ]

theorem map_fits (f : α → β) (k : Nat) (a : α) (n : Nat) : (fits k a n).map f = fits k (f a) n := by
  simp only [fits]
  split <;> rfl

theorem fits_bind_some (f : α → β) (k : Nat) (a : α) (n : Nat) :
    ((fits k a n).bind fun x => some (f x)) = fits k (f a) n := by
  rw [← map_fits, Option.map_eq_bind]
  rfl

/-- Two parts need the levels of the deeper one. -/
theorem bind_fits {k l n : Nat} {a : α} {b : β} {f : α → Option β} (hf : f a = fits l b n) :
    (fits k a n).bind f = fits (max k l) b n := by
  by_cases hk : k ≤ n
  · simp only [fits, Nat.max_le, hk, true_and, if_true, Option.bind_some, hf]
  · simp only [fits, Nat.max_le, hk, false_and, if_false, Option.bind_none]

end Fits

/-! ## Depth under which something was found -/

/-- Written as `c`, data nest no deeper than the value `j` they were found in, nor than the `n` levels
    that were entered. -/
structure Within (c : Json) (n : Nat) (j : Json) : Prop where
  levels : c.depth ≤ n
  depth : c.depth ≤ j.depth

theorem Within.flat {c : Json} (h : c.depth = 0) (n : Nat) (j : Json) : Within c n j :=
  ⟨by omega, by omega⟩

theorem Within.variant {c content : Json} {n : Nat} (h : Within c n content) (tag : String)
    (key : Option String) : Within (.variant tag c) (n + 1) (.object [(key, content)]) := by
  obtain ⟨hlevels, hdepth⟩ := h
  have hcontent : content.depth < (Json.object [(key, content)]).depth :=
    depth_lt_object List.mem_cons_self
  constructor
  · simp only [depth_variant]
    omega
  · simp only [depth_variant]
    omega

theorem Within.array {cs items : List Json} {n : Nat}
    (h : ∀ c ∈ cs, ∃ item ∈ items, Within c n item) :
    Within (.array cs) (n + 1) (.array items) := by
  constructor
  · refine Nat.succ_le_succ (depthItems_le.2 fun c hc => ?_)
    obtain ⟨item, -, hwithin⟩ := h c hc
    exact hwithin.levels
  · refine Nat.succ_le_succ (depthItems_le.2 fun c hc => ?_)
    obtain ⟨item, hitem, hwithin⟩ := h c hc
    exact Nat.le_trans hwithin.depth (depthItems_le.1 (Nat.le_refl _) item hitem)

/-- The data were found in one of the fields, or they need no level. -/
def Inside (c : Json) (n : Nat) (xs : List (Option Json)) : Prop :=
  c.depth = 0 ∨ ∃ value, some value ∈ xs ∧ Within c n value

@[simp] theorem Inside.text (s : String) (n : Nat) (xs : List (Option Json)) :
    Inside (.text s) n xs :=
  .inl rfl

theorem Within.inside {c value : Json} {n : Nat} {xs : List (Option Json)} (h : Within c n value)
    (hvalue : some value ∈ xs) : Inside c n xs :=
  .inr ⟨value, hvalue, h⟩

namespace Decoder

/-! ## Records -/

section Records

variable {names : List String} {j : Json} {xs : List (Option Json)}

/-- A value that was found in a field is not as deep as the record. -/
theorem depth_of_fields? (h : fields? names j = some xs) {value : Json} (hvalue : some value ∈ xs) :
    value.depth < j.depth := by
  cases j with
  | array items =>
    simp only [fields?, Option.ite_none_right_eq_some, Option.some.injEq] at h
    obtain ⟨-, rfl⟩ := h
    obtain ⟨item, hitem, hsome⟩ := List.mem_map.1 hvalue
    cases hsome
    exact depth_lt_array hitem
  | object fields =>
    simp only [fields?, Option.ite_none_right_eq_some, Option.some.injEq] at h
    obtain ⟨-, rfl⟩ := h
    obtain ⟨name, -, hlookup⟩ := List.mem_map.1 hvalue
    obtain ⟨front, back, rfl, -⟩ := List.lookup_eq_some_iff.1 hlookup
    exact depth_lt_object (List.mem_append_right front List.mem_cons_self)
  | null | bool | number | string => simp [fields?] at h

theorem depth_pos_of_fields? (h : fields? names j = some xs) : 0 < j.depth := by
  cases j with
  | array | object => exact Nat.succ_pos _
  | null | bool | number | string => simp [fields?] at h

/-- A record is within the value whose fields its own were found in. -/
theorem within_record {fields : List (String × Json)} {n : Nat} (h : fields? names j = some xs)
    (hfields : ∀ f ∈ fields, Inside f.2 n xs) : Within (.record fields) (n + 1) j := by
  obtain ⟨k, hk⟩ : ∃ k, j.depth = k + 1 := Nat.exists_eq_add_one.2 (depth_pos_of_fields? h)
  have hdepth : ∀ f ∈ fields, f.2.depth ≤ n ∧ f.2.depth ≤ k := by
    intro f hf
    rcases hfields f hf with hflat | ⟨value, hvalue, hwithin⟩
    · omega
    · have hlt := depth_of_fields? h hvalue
      have hle := hwithin.depth
      exact ⟨hwithin.levels, by omega⟩
  constructor
  · rw [depth_record]
    exact Nat.succ_le_succ (deepest_le.2 fun f hf => (hdepth f hf).1)
  · rw [depth_record, hk]
    exact Nat.succ_le_succ (deepest_le.2 fun f hf => (hdepth f hf).2)

theorem record_eq_some {β : Type} {build : Nat → List (Option Json) → Option β} {n : Nat} {r : β}
    (h : record names build n j = some r) :
    ∃ m xs, n = m + 1 ∧ fields? names j = some xs ∧ build m xs = some r := by
  cases n with
  | zero => cases h
  | succ m =>
    obtain ⟨xs, hxs, hbuild⟩ := Option.bind_eq_some_iff.1 h
    exact ⟨m, xs, rfl, hxs, hbuild⟩

end Records

/-! ## Decoders -/

variable {α : Type}

/-- What `enc` writes of `a` is read back if the levels suffice, and otherwise not at all. -/
def Exact (d : Decoder α) (enc : α → Json) (a : α) : Prop :=
  ∀ n, d n (enc a) = fits (enc a).depth a n

/-- Data that were read are written no deeper than they were found. -/
def Bounded (d : Decoder α) (enc : α → Json) : Prop :=
  ∀ n j a, d n j = some a → Within (enc a) n j

theorem exact_text (s : String) : Exact text Json.text s :=
  fun n => (fits_zero s n).symm

theorem bounded_text : Bounded text Json.text :=
  fun n j s _ => .flat (depth_text s) n j

theorem choice_text (variants : List (String × α)) (n : Nat) (tag : String) :
    choice variants n (.text tag) = variants.lookup tag := by
  cases n <;> rfl

section Combinators

variable {d : Decoder α} {enc : α → Json}

/-! ### Lists -/

theorem mapM_exact {as : List α} (h : ∀ a ∈ as, Exact d enc a) (n : Nat) :
    (as.map enc).mapM (d n) = fits (depthItems (as.map enc)) as n := by
  induction as with
  | nil => simp [depthItems]
  | cons a as ih =>
    obtain ⟨ha, has⟩ := List.forall_mem_cons.1 h
    rw [List.map_cons, List.mapM_cons, ha n, ih has]
    exact bind_fits (fits_bind_some (a :: ·) _ as n)

theorem exact_list {as : List α} (h : ∀ a ∈ as, Exact d enc a) :
    Exact (list d) (fun as => .array (as.map enc)) as :=
  fits_under rfl (mapM_exact h)

theorem list_texts (ss : List String) (n : Nat) : list text n (.texts ss) = fits 1 ss n := by
  rw [← depth_texts ss]
  exact exact_list (fun s _ => exact_text s) n

theorem exists_of_mapM {f : Json → Option α} {items : List Json} {as : List α}
    (h : items.mapM f = some as) : ∀ a ∈ as, ∃ j ∈ items, f j = some a := by
  induction items generalizing as with
  | nil =>
    simp only [List.mapM_nil, pure, Option.some.injEq] at h
    simp [← h]
  | cons item rest ih =>
    simp only [List.mapM_cons, bind, Option.bind_eq_some_iff, pure, Option.some.injEq] at h
    obtain ⟨first, hfirst, others, hothers, rfl⟩ := h
    intro a ha
    rcases List.mem_cons.1 ha with rfl | ha
    · exact ⟨item, List.mem_cons_self, hfirst⟩
    · obtain ⟨j, hj, hread⟩ := ih hothers a ha
      exact ⟨j, List.mem_cons_of_mem item hj, hread⟩

theorem within_of_mapM {n : Nat} {items : List Json} {as : List α}
    (hd : ∀ j a, d n j = some a → Within (enc a) n j) (h : items.mapM (d n) = some as) :
    Within (.array (as.map enc)) (n + 1) (.array items) := by
  refine .array fun c hc => ?_
  obtain ⟨a, ha, rfl⟩ := List.mem_map.1 hc
  obtain ⟨j, hj, hread⟩ := exists_of_mapM h a ha
  exact ⟨j, hj, hd j a hread⟩

theorem Bounded.list (hd : Bounded d enc) : Bounded (list d) fun as => .array (as.map enc) := by
  intro n j as h
  cases n with
  | zero => simp [Decoder.list] at h
  | succ n =>
    cases j with
    | array items => exact within_of_mapM (hd n) h
    | null | bool | number | string | object => simp [Decoder.list] at h

/-! ### Fields -/

/-- How something optional is written. -/
def orNull (enc : α → Json) (a : Option α) : Json :=
  (a.map enc).getD .null

theorem exact_missing {a : Option α} (h : ∀ b ∈ a, Exact d enc b) (hnull : ∀ b, enc b ≠ .null)
    (n : Nat) : missing d n (some (orNull enc a)) = fits (orNull enc a).depth a n := by
  cases a with
  | none => simp [missing, optional, orNull]
  | some b =>
    have hread : missing d n (some (enc b)) = (d n (enc b)).map some := by
      simp only [missing, optional]
      split
      next heq => exact absurd heq (hnull b)
      next => rfl
    simp only [orNull, Option.map_some, Option.getD_some, hread, h b rfl n, map_fits]

variable {n : Nat} {x : Option Json} {xs : List (Option Json)}

theorem Bounded.required (hd : Bounded d enc) {a : α} (ha : required d n x = some a) (hx : x ∈ xs) :
    Inside (enc a) n xs := by
  cases x with
  | none => simp [Decoder.required] at ha
  | some value => exact (hd n value a ha).inside hx

theorem Bounded.missing (hd : Bounded d enc) {a : Option α} (ha : missing d n x = some a)
    (hx : x ∈ xs) : Inside (orNull enc a) n xs := by
  cases a with
  | none => exact .inl rfl
  | some b =>
    cases x with
    | none => simp [Decoder.missing] at ha
    | some value =>
      have hread : d n value = some b := by
        simp only [Decoder.missing] at ha
        unfold optional at ha
        split at ha
        · cases ha
        · simpa using ha
      exact (hd n value b hread).inside hx

end Combinators

theorem inside_texts {n : Nat} {x : Option Json} {xs : List (Option Json)} {ss : List String}
    (hss : required (list text) n x = some ss) (hx : x ∈ xs) : Inside (.texts ss) n xs :=
  bounded_text.list.required hss hx

end Decoder

end Tremolo.Json
