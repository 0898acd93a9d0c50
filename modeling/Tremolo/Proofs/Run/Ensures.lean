import Tremolo.Run.Eval

/-! # What computations ensure

A computation ensures something of its result if it does so from every machine with an invariant, and
keeps the invariant however it ends.  What is said of a result may depend on the native calls made by
then.  Calls are only ever added, so a fact that survives further calls can be carried along
(`Ensures.frame`).

There is one rule for each way of putting computations together. -/

namespace Tremolo

variable {σ α β : Type}

/-- Calls were added at the end. -/
def Grown (before after : Array NativeCall) : Prop :=
  ∃ more, after = before ++ more

namespace Grown

variable {a b c : Array NativeCall}

theorem refl (a : Array NativeCall) : Grown a a :=
  ⟨#[], by simp⟩

theorem trans (hab : Grown a b) (hbc : Grown b c) : Grown a c := by
  obtain ⟨more, rfl⟩ := hab
  obtain ⟨last, rfl⟩ := hbc
  exact ⟨more ++ last, by rw [Array.append_assoc]⟩

theorem push (a : Array NativeCall) (call : NativeCall) : Grown a (a.push call) :=
  ⟨#[call], by simp⟩

theorem size_le (h : Grown a b) : a.size ≤ b.size := by
  obtain ⟨more, rfl⟩ := h
  simp

theorem getElem? (h : Grown a b) {k : Nat} {call : NativeCall} (hk : a[k]? = some call) :
    b[k]? = some call := by
  obtain ⟨more, rfl⟩ := h
  obtain ⟨hlt, -⟩ := Array.getElem?_eq_some_iff.1 hk
  rw [Array.getElem?_append_left hlt, hk]

end Grown

/-- A fact about the calls made so far that further calls leave true. -/
def Lasting (F : Array NativeCall → Prop) : Prop :=
  ∀ a b, Grown a b → F a → F b

/-- How a computation ended that had started at `before`. -/
structure Ended (I : Machine σ → Prop) (Q : Array NativeCall → α → Prop) (before : Machine σ)
    (r : Outcome α × Machine σ) : Prop where
  kept : I r.2
  grown : Grown before.calls r.2.calls
  result : ∀ a, r.1 = .done a → Q r.2.calls a

theorem Ended.since {I : Machine σ → Prop} {Q : Array NativeCall → α → Prop} {before m : Machine σ}
    {r : Outcome α × Machine σ} (h : Ended I Q m r) (hgrown : Grown before.calls m.calls) :
    Ended I Q before r :=
  ⟨h.kept, hgrown.trans h.grown, h.result⟩

theorem Ended.done {I : Machine σ → Prop} {Q : Array NativeCall → α → Prop} {m : Machine σ} {a : α}
    (hm : I m) (ha : Q m.calls a) : Ended I Q m (.done a, m) := by
  refine ⟨hm, .refl _, ?_⟩
  intro b hb
  cases hb
  exact ha

theorem Ended.failed {I : Machine σ → Prop} {Q : Array NativeCall → α → Prop} {m : Machine σ}
    {e : Error} (hm : I m) : Ended I Q m (.failed e, m) :=
  ⟨hm, .refl _, nofun⟩

namespace EvalM

/-- From every machine with the invariant and calls as in `P`, the computation keeps the invariant, and
    its result is as in `Q`. -/
def Ensures (host : Host) (I : Machine σ → Prop) (P : Array NativeCall → Prop)
    (Q : Array NativeCall → α → Prop) (x : EvalM σ α) : Prop :=
  ∀ m, I m → P m.calls → Ended I Q m (x host m)

variable {host : Host} {I : Machine σ → Prop} {P P' F : Array NativeCall → Prop}
  {Q Q' : Array NativeCall → α → Prop} {R : Array NativeCall → β → Prop}

/-! ## Single steps -/

theorem Ended.ofExcept {m : Machine σ} {x : Except Error α} (hm : I m)
    (hx : ∀ a, x = .ok a → Q m.calls a) : Ended I Q m ((EvalM.ofExcept x : EvalM σ α) host m) := by
  cases x with
  | ok a => exact Ended.done hm (hx a rfl)
  | error e => exact Ended.failed hm

theorem Ensures.pure {a : α} (ha : ∀ calls, P calls → Q calls a) :
    Ensures host I P Q (Pure.pure a : EvalM σ α) :=
  fun m hm hP => Ended.done hm (ha m.calls hP)

theorem Ensures.fail (e : Error) : Ensures host I P Q (fail e : EvalM σ α) :=
  fun _ hm _ => Ended.failed hm

theorem Ensures.outOfFuel : Ensures host I P Q (outOfFuel : EvalM σ α) :=
  fun _ hm _ => ⟨hm, .refl _, nofun⟩

theorem Ensures.ofExcept {x : Except Error α} (hx : ∀ a calls, x = .ok a → P calls → Q calls a) :
    Ensures host I P Q (ofExcept x : EvalM σ α) :=
  fun m hm hP => Ended.ofExcept hm fun a ha => hx a m.calls ha hP

/-- Looking at the scopes changes nothing. -/
theorem Ensures.ask {f : σ → α} {k : α → EvalM σ β}
    (hk : ∀ m, I m → P m.calls → Ended I R m (k (f m.scopes) host m)) :
    Ensures host I P R (ask f >>= k) :=
  hk

/-- A change to the scopes that keeps the invariant. -/
theorem Ensures.change {f : σ → σ} (hf : ∀ m, I m → P m.calls → I { m with scopes := f m.scopes }) :
    Ensures host I P (fun _ _ => True) (change f) := by
  intro m hm hP
  exact ⟨hf m hm hP, .refl _, fun _ _ => trivial⟩

/-! ## Sequences -/

theorem Ended.bind {x : EvalM σ α} {k : α → EvalM σ β} {m : Machine σ}
    (hx : Ended I Q m (x host m)) (hk : ∀ a, Ensures host I (fun calls => Q calls a) R (k a)) :
    Ended I R m ((x >>= k) host m) := by
  obtain ⟨hkept, hgrown, hresult⟩ := hx
  change Ended I R m (EvalM.bind x k host m)
  unfold EvalM.bind
  generalize x host m = r at hkept hgrown hresult
  obtain ⟨outcome, after⟩ := r
  cases outcome with
  | done a => exact (hk a after hkept (hresult a rfl)).since hgrown
  | failed | deadScope | outOfFuel => exact ⟨hkept, hgrown, fun b hb => by cases hb⟩

theorem Ensures.bind {x : EvalM σ α} {k : α → EvalM σ β} (hx : Ensures host I P Q x)
    (hk : ∀ a, Ensures host I (fun calls => Q calls a) R (k a)) : Ensures host I P R (x >>= k) :=
  fun m hm hP => Ended.bind (hx m hm hP) hk

theorem Ensures.weaken {x : EvalM σ α} (hx : Ensures host I P Q x) (hP : ∀ calls, P' calls → P calls)
    (hQ : ∀ calls a, Q calls a → Q' calls a) : Ensures host I P' Q' x := by
  intro m hm hP'
  obtain ⟨hkept, hgrown, hresult⟩ := hx m hm (hP _ hP')
  exact ⟨hkept, hgrown, fun a ha => hQ _ a (hresult a ha)⟩

/-- What is ensured from everywhere is ensured from here. -/
theorem Ensures.here {x : EvalM σ α} (hx : Ensures host I (fun _ => True) Q x) :
    Ensures host I P Q x :=
  hx.weaken (fun _ _ => trivial) fun _ _ h => h

theorem Ensures.frame {x : EvalM σ α} (hx : Ensures host I P Q x) (hF : Lasting F) :
    Ensures host I (fun calls => P calls ∧ F calls) (fun calls a => Q calls a ∧ F calls) x := by
  intro m hm hPF
  obtain ⟨hkept, hgrown, hresult⟩ := hx m hm hPF.1
  exact ⟨hkept, hgrown, fun a ha => ⟨hresult a ha, hF _ _ hgrown hPF.2⟩⟩

theorem Ensures.each {f : α → EvalM σ Unit} {as : List α} (hP : Lasting P)
    (hf : ∀ a ∈ as, Ensures host I P (fun _ _ => True) (f a)) :
    Ensures host I P (fun _ _ => True) (each f as) := by
  induction as with
  | nil => exact .pure fun _ _ => trivial
  | cons a as ih =>
    -- The fact is handed on from one element to the next.
    have hfirst : Ensures host I P (fun calls _ => True ∧ P calls) (f a) :=
      ((hf a List.mem_cons_self).frame hP).weaken (fun _ h => ⟨h, h⟩) fun _ _ h => h
    have hrest := ih fun b hb => hf b (List.mem_cons_of_mem a hb)
    exact hfirst.bind fun _ => hrest.weaken (fun _ h => h.2) fun _ _ h => h

theorem Ensures.collect {f : α → EvalM σ β} (hR : ∀ b, Lasting (R · b))
    (hf : ∀ a, Ensures host I (fun _ => True) R (f a)) (as : List α) :
    Ensures host I (fun _ => True) (fun calls bs => bs.length = as.length ∧ ∀ b ∈ bs, R calls b)
      (collect f as) := by
  induction as with
  | nil => exact .pure fun _ _ => ⟨rfl, by simp⟩
  | cons a as ih =>
    refine (hf a).bind fun b => ?_
    -- What holds of the first result still holds when the others are there.
    have hrest : Ensures host I (R · b)
        (fun calls bs => (bs.length = as.length ∧ ∀ c ∈ bs, R calls c) ∧ R calls b)
        (EvalM.collect f as) :=
      (ih.frame (hR b)).weaken (fun _ h => ⟨trivial, h⟩) fun _ _ h => h
    refine hrest.bind fun bs => .pure fun calls h => ?_
    obtain ⟨⟨hlength, hbs⟩, hb⟩ := h
    exact ⟨by simp [hlength], List.forall_mem_cons.2 ⟨hb, hbs⟩⟩

theorem Ensures.truth {x : EvalM σ TypedValue} {Q : Array NativeCall → TypedValue → Prop}
    (hx : Ensures host I P Q x) : Ensures host I P (fun _ _ => True) (truth x) :=
  hx.bind fun _ => .pure fun _ _ => trivial

section Flows

variable {Q : Array NativeCall → Flow → Prop} (hnone : ∀ calls, Q calls (.normal none))

include hnone

theorem Ensures.sequence {exec : Stmt → EvalM σ Flow}
    (hexec : ∀ s, Ensures host I (fun _ => True) Q (exec s)) (body : List Stmt) :
    Ensures host I (fun _ => True) Q (sequence exec body) := by
  induction body with
  | nil => exact .pure fun calls _ => hnone calls
  | cons s rest ih =>
    refine (hexec s).bind fun flow => ?_
    cases flow with
    | normal _ => exact ih.here
    | returned value => exact .pure fun _ h => h

theorem Ensures.iterate {condition : EvalM σ Bool} {body : EvalM σ Flow}
    (hcondition : Ensures host I (fun _ => True) (fun _ _ => True) condition)
    (hbody : Ensures host I (fun _ => True) Q body) (fuel : Nat) :
    Ensures host I (fun _ => True) Q (iterate condition body fuel) := by
  induction fuel with
  | zero => exact .outOfFuel
  | succ fuel ih =>
    refine hcondition.bind fun holds => ?_
    cases holds with
    | false => exact .pure fun calls _ => hnone calls
    | true =>
      refine hbody.here.bind fun flow => ?_
      cases flow with
      | normal _ => exact ih.here
      | returned value => exact .pure fun _ h => h

end Flows

end EvalM

end Tremolo
