import Tremolo.Proofs.Scope.Discipline

/-! # The frame of an evaluation

What evaluation leaves alone, scope by scope and entry by entry (`Environment.Framed`): the scopes are
the same ones, each entry stays at its place under its name and only a variable may get another value,
and new entries come behind the old ones, in the current scope alone and only if there may be any. -/

namespace Tremolo

/-! ## Entries -/

/-- What evaluation may make of the entries of a scope: each stays at its place, with the same symbol up
    to the value of a variable, and new ones come behind them, if the scope may grow. -/
inductive EntriesFramed (grows : Prop) : List (String × Symbol) → List (String × Symbol) → Prop
  | added {new : List (String × Symbol)} : (new ≠ [] → grows) → EntriesFramed grows [] new
  | kept {name : String} {x y : Symbol} {old now : List (String × Symbol)} : x.Later y →
      EntriesFramed grows old now → EntriesFramed grows ((name, x) :: old) ((name, y) :: now)

namespace EntriesFramed

variable {grows grows' : Prop} {old now last : List (String × Symbol)}

theorem refl (grows : Prop) (entries : List (String × Symbol)) :
    EntriesFramed grows entries entries := by
  induction entries with
  | nil => exact .added (by simp)
  | cons entry rest ih => exact .kept (.same _) ih

theorem mono (h : EntriesFramed grows old now) (hgrows : grows → grows') :
    EntriesFramed grows' old now := by
  induction h with
  | added hnew => exact .added fun hne => hgrows (hnew hne)
  | kept hxy _ ih => exact .kept hxy ih

theorem trans (h₁ : EntriesFramed grows old now) (h₂ : EntriesFramed grows now last) :
    EntriesFramed grows old last := by
  induction h₁ generalizing last with
  | @added new hnew =>
    cases new with
    | nil => exact h₂
    | cons entry rest =>
      -- New entries have come already, so there may be more.
      exact .added fun _ => hnew (by simp)
  | kept hxy _ ih =>
    cases h₂ with
    | kept hyz hrest => exact .kept (hxy.trans hyz) (ih hrest)

theorem append (hgrows : grows) (old new : List (String × Symbol)) :
    EntriesFramed grows old (old ++ new) := by
  induction old with
  | nil => exact .added fun _ => hgrows
  | cons entry rest ih => exact .kept (.same _) ih

/-- What a name is bound to is replaced in its place. -/
theorem bind_later {name : String} {x y : Symbol} (hx : old.lookup name = some x) (hxy : x.Later y) :
    EntriesFramed grows old (Table.bind name y old) := by
  induction old with
  | nil => cases hx
  | cons entry rest ih =>
    rw [Table.lookup_cons] at hx
    by_cases hname : name = entry.1
    · rw [if_pos hname] at hx
      cases hx
      rw [Table.bind, if_pos hname.symm]
      exact .kept hxy (refl grows rest)
    · rw [if_neg hname] at hx
      rw [Table.bind, if_neg (Ne.symm hname)]
      exact .kept (.same _) (ih hx)

end EntriesFramed

/-! ## Scopes -/

/-- What evaluation may make of a scope. -/
structure Scope.Framed (grows : Prop) (a b : Scope) : Prop where
  name : b.name = a.name
  level : b.level = a.level
  kind : b.kind = a.kind
  parent : b.parent = a.parent
  symbols : EntriesFramed grows a.symbols.entries b.symbols.entries

namespace Scope.Framed

variable {grows grows' : Prop} {a b c : Scope}

theorem refl (grows : Prop) (a : Scope) : a.Framed grows a :=
  ⟨rfl, rfl, rfl, rfl, .refl grows _⟩

theorem mono (h : a.Framed grows b) (hgrows : grows → grows') : a.Framed grows' b :=
  ⟨h.name, h.level, h.kind, h.parent, h.symbols.mono hgrows⟩

theorem trans (h₁ : a.Framed grows b) (h₂ : b.Framed grows c) : a.Framed grows c :=
  ⟨h₂.name.trans h₁.name, h₂.level.trans h₁.level, h₂.kind.trans h₁.kind, h₂.parent.trans h₁.parent,
    h₁.symbols.trans h₂.symbols⟩

theorem insert {x : Symbol} (hnew : a.get? x.name = none) : a.Framed True (a.insert x) := by
  refine ⟨rfl, rfl, rfl, rfl, ?_⟩
  rw [Scope.insert, Table.insert, Table.bind_new hnew]
  exact .append trivial _ _

theorem store {name : String} {v w : Variable} {value : TypedValue}
    (hv : a.get? name = some (.variable v)) (hw : v.assign value = .ok w) :
    a.Framed grows (a.store name w) := by
  obtain ⟨hname, htype, hvalue⟩ := Variable.assign_ok hw
  exact ⟨rfl, rfl, rfl, rfl, .bind_later hv (.stored hname htype fun _ => by simp [hvalue])⟩

end Scope.Framed

/-! ## Environments -/

namespace Environment

/-- What evaluation may make of the stack.  Only the current scope may have new entries, and only if the
    stack may grow. -/
structure Framed (grows : Prop) (before after : Environment) : Prop where
  depth : after.depth = before.depth
  current : after.current = before.current
  scope : ∀ i a, before.scope? i = some a →
    ∃ b, after.scope? i = some b ∧ a.Framed (grows ∧ before.current = some i) b

/-- The current scope is live. -/
def Occupied (env : Environment) : Prop :=
  ∃ i, env.current = some i ∧ i < env.depth

variable {grows grows' : Prop} {env before now after : Environment}

theorem Disciplined.isOccupied (h : env.Disciplined) : env.Occupied :=
  ⟨_, h.top, Nat.sub_lt h.occupied Nat.one_pos⟩

theorem occupied_push (env : Environment) (scope : Scope) : (env.push scope).Occupied :=
  ⟨env.depth, rfl, by simp⟩

namespace Framed

theorem refl (grows : Prop) (env : Environment) : env.Framed grows env :=
  ⟨rfl, rfl, fun _ a ha => ⟨a, ha, .refl _ a⟩⟩

theorem mono (h : before.Framed grows now) (hgrows : grows → grows') : before.Framed grows' now := by
  refine ⟨h.depth, h.current, fun i a ha => ?_⟩
  obtain ⟨b, hb, hab⟩ := h.scope i a ha
  exact ⟨b, hb, hab.mono fun hi => ⟨hgrows hi.1, hi.2⟩⟩

theorem trans (h₁ : before.Framed grows now) (h₂ : now.Framed grows after) :
    before.Framed grows after := by
  refine ⟨h₂.depth.trans h₁.depth, h₂.current.trans h₁.current, fun i a ha => ?_⟩
  obtain ⟨b, hb, hab⟩ := h₁.scope i a ha
  obtain ⟨c, hc, hbc⟩ := h₂.scope i b hb
  rw [h₁.current] at hbc
  exact ⟨c, hc, hab.trans hbc⟩

theorem occupied (h : before.Framed grows now) (hbefore : before.Occupied) : now.Occupied := by
  obtain ⟨i, hi, hlt⟩ := hbefore
  exact ⟨i, h.current.trans hi, Nat.lt_of_lt_of_eq hlt h.depth.symm⟩

theorem modify {id : ScopeId} {f : Scope → Scope}
    (hf : ∀ a, env.scope? id = some a → a.Framed (grows ∧ env.current = some id) (f a)) :
    env.Framed grows (env.modifyScope id f) := by
  refine ⟨env.depth_modifyScope id f, rfl, fun i a ha => ?_⟩
  rw [scope?_modifyScope]
  by_cases hi : id = i
  · subst hi
    exact ⟨f a, by simp [ha], hf a ha⟩
  · exact ⟨a, by simp [hi, ha], .refl _ a⟩

theorem insert {x : Symbol} (hnew : env.lookupHere x.name = none) :
    env.Framed True (env.insert x) := by
  unfold Environment.insert
  cases hcurrent : env.current with
  | none => exact refl True env
  | some id =>
    refine modify fun a ha => ?_
    simp only [lookupHere, hcurrent, ha, Option.bind_some] at hnew
    exact (Scope.Framed.insert hnew).mono fun _ => ⟨trivial, hcurrent⟩

theorem assign {name : String} {value : TypedValue} (h : env.assign name value = .stored after) :
    env.Framed grows after := by
  obtain ⟨i, a, v, w, -, ha, hv, hw, rfl⟩ := assign_stored h
  refine modify fun b hb => ?_
  rw [ha] at hb
  cases hb
  exact .store hv hw

/-- What was done in a scope of its own added nothing to those below it. -/
theorem close (hbefore : before.Occupied) {scope : Scope}
    (h : (before.push scope).Framed grows' now) :
    before.Framed grows (now.closeScope before.current) := by
  have hdepth : now.depth = before.depth + 1 := by rw [h.depth, depth_push]
  refine ⟨by simp [hdepth], ?_, fun i a ha => ?_⟩
  · obtain ⟨i, hi, hlt⟩ := hbefore
    rw [current_closeScope, hi, hdepth]
    simp [hlt]
  · have hi := lt_depth_of_scope? ha
    have hne : i ≠ before.depth := Nat.ne_of_lt hi
    have hpush : (before.push scope).scope? i = some a := by rw [scope?_push, if_neg hne, ha]
    obtain ⟨b, hb, hab⟩ := h.scope i a hpush
    refine ⟨b, by rw [scope?_closeScope_of_lt hdepth hi, hb], hab.mono fun hgrows => ?_⟩
    -- Inside, the new scope was the current one.
    exact absurd (Option.some.inj hgrows.2).symm hne

end Framed

end Environment

end Tremolo
