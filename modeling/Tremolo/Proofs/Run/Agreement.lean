import Tremolo.Run.Eval

/-! # Computations that agree

Two computations, over stores of their own, agree if from related machines they end alike and in
related machines again.  Ending alike means with related results, with the same error, or both cut
off; a computation that meets a dead scope agrees with nothing.

* `Outcome.Alike`, `Agree` — two ends that match;
* `EvalM.Simulates` — two computations that match from all related machines;
* one rule for each way of putting computations together. -/

namespace Tremolo

variable {σ τ α β γ δ : Type}

/-- Two outcomes match.  A dead scope matches nothing. -/
inductive Outcome.Alike (Q : α → β → Prop) : Outcome α → Outcome β → Prop
  | done {a b} : Q a b → Alike Q (.done a) (.done b)
  | failed {e} : Alike Q (.failed e) (.failed e)
  | outOfFuel : Alike Q .outOfFuel .outOfFuel

theorem Outcome.Alike.eq {x y : Outcome α} (h : Outcome.Alike Eq x y) : x = y := by
  cases h with
  | done hab => rw [hab]
  | failed => rfl
  | outOfFuel => rfl

theorem Outcome.Alike.not_deadScope {Q : α → β → Prop} {x : Outcome α} {y : Outcome β}
    (h : x.Alike Q y) (id : ScopeId) : x ≠ .deadScope id := by
  rintro rfl
  cases h

/-- Two ends of computations match. -/
structure Agree (P : Machine σ → Machine τ → Prop) (Q : α → β → Prop)
    (r : Outcome α × Machine σ) (r' : Outcome β × Machine τ) : Prop where
  outcome : r.1.Alike Q r'.1
  machine : P r.2 r'.2

theorem Agree.mono {P P' : Machine σ → Machine τ → Prop} {Q : α → β → Prop}
    {r : Outcome α × Machine σ} {r' : Outcome β × Machine τ} (h : Agree P Q r r')
    (hP : ∀ m n, P m n → P' m n) : Agree P' Q r r' :=
  ⟨h.outcome, hP _ _ h.machine⟩

namespace EvalM

/-- Two computations match from all related machines. -/
def Simulates (h h' : Host) (P : Machine σ → Machine τ → Prop) (Q : α → β → Prop)
    (x : EvalM σ α) (y : EvalM τ β) : Prop :=
  ∀ m n, P m n → Agree P Q (x h m) (y h' n)

variable {h h' : Host} {P : Machine σ → Machine τ → Prop} {Q : α → β → Prop} {R : γ → δ → Prop}

/-! ## Single steps -/

theorem Simulates.pure {a : α} {b : β} (hab : Q a b) :
    Simulates h h' P Q (Pure.pure a : EvalM σ α) (Pure.pure b : EvalM τ β) :=
  fun _ _ hP => ⟨.done hab, hP⟩

theorem Simulates.fail (e : Error) :
    Simulates h h' P Q (fail e : EvalM σ α) (fail e : EvalM τ β) :=
  fun _ _ hP => ⟨.failed, hP⟩

theorem Simulates.outOfFuel :
    Simulates h h' P Q (outOfFuel : EvalM σ α) (outOfFuel : EvalM τ β) :=
  fun _ _ hP => ⟨.outOfFuel, hP⟩

theorem Simulates.ofExcept (x : Except Error α) :
    Simulates h h' P Eq (ofExcept x : EvalM σ α) (ofExcept x : EvalM τ α) := by
  cases x with
  | ok a => exact .pure rfl
  | error e => exact .fail e

/-! ## Sequences -/

theorem Agree.bind {x : EvalM σ α} {y : EvalM τ β} {f : α → EvalM σ γ} {g : β → EvalM τ δ}
    {m : Machine σ} {n : Machine τ} (hxy : Agree P Q (x h m) (y h' n))
    (hfg : ∀ a b, Q a b → Simulates h h' P R (f a) (g b)) :
    Agree P R ((x >>= f) h m) ((y >>= g) h' n) := by
  obtain ⟨houtcome, hmachine⟩ := hxy
  change Agree P R (EvalM.bind x f h m) (EvalM.bind y g h' n)
  unfold EvalM.bind
  generalize x h m = r at houtcome hmachine ⊢
  generalize y h' n = r' at houtcome hmachine ⊢
  obtain ⟨outcome, after⟩ := r
  obtain ⟨outcome', after'⟩ := r'
  -- Only a result is handed on; every other end is the end of the whole.
  cases houtcome with
  | done hab => exact hfg _ _ hab after after' hmachine
  | failed => exact ⟨.failed, hmachine⟩
  | outOfFuel => exact ⟨.outOfFuel, hmachine⟩

theorem Simulates.bind {x : EvalM σ α} {y : EvalM τ β} {f : α → EvalM σ γ} {g : β → EvalM τ δ}
    (hxy : Simulates h h' P Q x y) (hfg : ∀ a b, Q a b → Simulates h h' P R (f a) (g b)) :
    Simulates h h' P R (x >>= f) (y >>= g) :=
  fun m n hP => Agree.bind (hxy m n hP) hfg

/-- The rule for computations with equal results. -/
theorem Simulates.andThen {x : EvalM σ α} {y : EvalM τ α} {f : α → EvalM σ γ} {g : α → EvalM τ δ}
    (hxy : Simulates h h' P Eq x y) (hfg : ∀ a, Simulates h h' P R (f a) (g a)) :
    Simulates h h' P R (x >>= f) (y >>= g) :=
  hxy.bind fun a _ hab => hab ▸ hfg a

theorem Simulates.each {f : α → EvalM σ Unit} {g : α → EvalM τ Unit}
    (hfg : ∀ a, Simulates h h' P Eq (f a) (g a)) (as : List α) :
    Simulates h h' P Eq (each f as) (each g as) := by
  induction as with
  | nil => exact .pure rfl
  | cons a as ih => exact (hfg a).andThen fun _ => ih

theorem Simulates.collect {f : α → EvalM σ γ} {g : α → EvalM τ γ}
    (hfg : ∀ a, Simulates h h' P Eq (f a) (g a)) (as : List α) :
    Simulates h h' P Eq (collect f as) (collect g as) := by
  induction as with
  | nil => exact .pure rfl
  | cons a as ih => exact (hfg a).andThen fun _ => ih.andThen fun _ => .pure rfl

theorem Simulates.sequence {exec : Stmt → EvalM σ Flow}
    {exec' : Stmt → EvalM τ Flow} (hexec : ∀ s, Simulates h h' P Eq (exec s) (exec' s))
    (body : List Stmt) : Simulates h h' P Eq (sequence exec body) (sequence exec' body) := by
  induction body with
  | nil => exact .pure rfl
  | cons s rest ih =>
    refine (hexec s).andThen fun flow => ?_
    cases flow with
    | normal _ => exact ih
    | returned value => exact .pure rfl

theorem Simulates.iterate {c : EvalM σ Bool} {c' : EvalM τ Bool}
    {body : EvalM σ Flow} {body' : EvalM τ Flow} (hc : Simulates h h' P Eq c c')
    (hbody : Simulates h h' P Eq body body') (fuel : Nat) :
    Simulates h h' P Eq (iterate c body fuel) (iterate c' body' fuel) := by
  induction fuel with
  | zero => exact .outOfFuel
  | succ fuel ih =>
    refine hc.andThen fun holds => ?_
    cases holds with
    | false => exact .pure rfl
    | true =>
      refine hbody.andThen fun flow => ?_
      cases flow with
      | normal _ => exact ih
      | returned value => exact .pure rfl

theorem Simulates.truth {x : EvalM σ TypedValue} {y : EvalM τ TypedValue}
    (hxy : Simulates h h' P Eq x y) : Simulates h h' P Eq (truth x) (truth y) :=
  hxy.andThen fun _ => .pure rfl

/-! ## Looking at the scopes -/

/-- Looking at the scopes changes nothing, so what follows may be compared at the machines at
    hand. -/
theorem Simulates.ask {f : σ → α} {g : τ → β} {k : α → EvalM σ γ} {l : β → EvalM τ δ}
    (hkl : ∀ m n, P m n → Agree P R (k (f m.scopes) h m) (l (g n.scopes) h' n)) :
    Simulates h h' P R (ask f >>= k) (ask g >>= l) :=
  hkl

end EvalM

end Tremolo
