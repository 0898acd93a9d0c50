import Tremolo.Run.Eval

/-! # What computations uphold

Evaluation fails in many places, and what is to be said of a failure may differ from what is to be said
of a result.  A computation upholds an invariant if it keeps it however it ends; besides, its result is
as in `Q`, and if it fails, then with an error and in a machine as in `F`.

There is one rule for each way of putting computations together. -/

namespace Tremolo

variable {σ α β : Type}

/-- The end of a computation: the invariant holds, a result is as in `Q` and a failure as in `F`. -/
structure Upheld (I : Machine σ → Prop) (F : Error → Machine σ → Prop) (Q : α → Prop)
    (r : Outcome α × Machine σ) : Prop where
  kept : I r.2
  result : ∀ a, r.1 = .done a → Q a
  failure : ∀ e, r.1 = .failed e → F e r.2

namespace Upheld

variable {I I' : Machine σ → Prop} {F : Error → Machine σ → Prop} {Q : α → Prop} {m : Machine σ}

theorem done {a : α} (hm : I m) (ha : Q a) : Upheld I F Q (.done a, m) := by
  refine ⟨hm, ?_, ?_⟩
  · intro b hb
    cases hb
    exact ha
  · simp

theorem failed {e : Error} (hm : I m) (he : F e m) : Upheld I F Q (.failed e, m) := by
  refine ⟨hm, ?_, ?_⟩
  · simp
  · intro e' he'
    cases he'
    exact he

theorem of_kept {r : Outcome α × Machine σ} (h : I r.2) :
    Upheld I (fun _ _ => True) (fun _ => True) r :=
  ⟨h, fun _ _ => trivial, fun _ _ => trivial⟩

theorem mono {r : Outcome α × Machine σ} (h : Upheld I F Q r) (hI : ∀ m, I m → I' m) :
    Upheld I' F Q r :=
  ⟨hI _ h.kept, h.result, h.failure⟩

end Upheld

namespace EvalM

/-- From every machine with the invariant the computation ends as it should. -/
def Upholds (host : Host) (I : Machine σ → Prop) (F : Error → Machine σ → Prop) (Q : α → Prop)
    (x : EvalM σ α) : Prop :=
  ∀ m, I m → Upheld I F Q (x host m)

variable {host : Host} {I : Machine σ → Prop} {F : Error → Machine σ → Prop} {Q : α → Prop}
  {R : β → Prop}

/-! ## Single steps -/

theorem Upholds.pure {a : α} (ha : Q a) : Upholds host I F Q (Pure.pure a : EvalM σ α) :=
  fun _ hm => .done hm ha

theorem Upholds.fail {e : Error} (he : ∀ m, F e m) : Upholds host I F Q (fail e : EvalM σ α) :=
  fun m hm => .failed hm (he m)

theorem Upholds.outOfFuel : Upholds host I F Q (outOfFuel : EvalM σ α) :=
  fun _ hm => ⟨hm, by simp [EvalM.outOfFuel], by simp [EvalM.outOfFuel]⟩

theorem Upholds.ofExcept {x : Except Error α} (hok : ∀ a, x = .ok a → Q a)
    (herror : ∀ e m, x = .error e → F e m) : Upholds host I F Q (ofExcept x : EvalM σ α) := by
  cases x with
  | ok a => exact .pure (hok a rfl)
  | error e => exact .fail fun m => herror e m rfl

/-- Looking at the scopes changes nothing. -/
theorem Upholds.ask {f : σ → α} {k : α → EvalM σ β}
    (hk : ∀ m, I m → Upheld I F R (k (f m.scopes) host m)) : Upholds host I F R (ask f >>= k) :=
  hk

/-! ## Sequences -/

theorem Upheld.bind {x : EvalM σ α} {k : α → EvalM σ β} {m : Machine σ}
    (hx : Upheld I F Q (x host m)) (hk : ∀ a, Q a → Upholds host I F R (k a)) :
    Upheld I F R ((x >>= k) host m) := by
  obtain ⟨hkept, hresult, hfailure⟩ := hx
  change Upheld I F R (EvalM.bind x k host m)
  unfold EvalM.bind
  generalize x host m = r at hkept hresult hfailure
  obtain ⟨outcome, after⟩ := r
  cases outcome with
  | done a => exact hk a (hresult a rfl) after hkept
  | failed e => exact .failed hkept (hfailure e rfl)
  | deadScope | outOfFuel => exact ⟨hkept, by simp, by simp⟩

theorem Upholds.bind {x : EvalM σ α} {k : α → EvalM σ β} (hx : Upholds host I F Q x)
    (hk : ∀ a, Q a → Upholds host I F R (k a)) : Upholds host I F R (x >>= k) :=
  fun m hm => Upheld.bind (hx m hm) hk

theorem Upholds.each {f : α → EvalM σ Unit} {as : List α}
    (hf : ∀ a ∈ as, Upholds host I F (fun _ => True) (f a)) :
    Upholds host I F (fun _ => True) (each f as) := by
  induction as with
  | nil => exact .pure trivial
  | cons a as ih =>
    obtain ⟨hfirst, hrest⟩ := List.forall_mem_cons.1 hf
    exact hfirst.bind fun _ _ => ih hrest

theorem Upholds.collect {f : α → EvalM σ β} (hf : ∀ a, Upholds host I F (fun _ => True) (f a))
    (as : List α) : Upholds host I F (fun _ => True) (collect f as) := by
  induction as with
  | nil => exact .pure trivial
  | cons a as ih => exact (hf a).bind fun _ _ => ih.bind fun _ _ => .pure trivial

theorem Upholds.truth {x : EvalM σ TypedValue} (hx : Upholds host I F (fun _ => True) x) :
    Upholds host I F (fun _ => True) (truth x) :=
  hx.bind fun _ _ => .pure trivial

section Flows

variable {Q : Flow → Prop} (hnone : Q (.normal none))

include hnone

theorem Upholds.sequence {exec : Stmt → EvalM σ Flow} {body : List Stmt}
    (hexec : ∀ s ∈ body, Upholds host I F Q (exec s)) : Upholds host I F Q (sequence exec body) := by
  induction body with
  | nil => exact .pure hnone
  | cons s rest ih =>
    obtain ⟨hfirst, hrest⟩ := List.forall_mem_cons.1 hexec
    refine hfirst.bind fun flow hflow => ?_
    cases flow with
    | normal _ => exact ih hrest
    | returned _ => exact .pure hflow

theorem Upholds.iterate {condition : EvalM σ Bool} {body : EvalM σ Flow}
    (hcondition : Upholds host I F (fun _ => True) condition) (hbody : Upholds host I F Q body)
    (fuel : Nat) : Upholds host I F Q (iterate condition body fuel) := by
  induction fuel with
  | zero => exact .outOfFuel
  | succ fuel ih =>
    refine hcondition.bind fun holds _ => ?_
    cases holds with
    | false => exact .pure hnone
    | true =>
      refine hbody.bind fun flow hflow => ?_
      cases flow with
      | normal _ => exact ih
      | returned _ => exact .pure hflow

end Flows

end EvalM

end Tremolo
