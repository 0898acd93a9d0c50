import Tremolo.Proofs.Run.Discipline
import Tremolo.Proofs.Run.Sequence
import Tremolo.Run.Evaluator

/-! # A configuration only observes

Two runs of a program under different configurations take the same way and make the same native calls
(`Tally.alongside`), so that only their records can differ.  What a run shows is read off the program,
statement by statement: it is the value of each expression statement in the state that the statements
before it lead to (`Machine.valueAt?`). -/

namespace Tremolo

/-! ## Records of runs that make the same calls -/

section Alongside

variable {σ τ : Type} {h h' : Host} (T : Array (String × TypedValue) → Array (String × TypedValue) → Prop)
  (S : Array String → Array String → Prop)

/-- The same native functions are bound, the same calls were made, the assignments on record are related
    by `T`, and the lines shown by `S`. -/
def Tally.alongside (hT : ∀ x y entry, T x y → T (if h.config.trace then x.push entry else x)
    (if h'.config.trace then y.push entry else y)) : Tally σ τ h h' where
  Rel m n := m.natives = n.natives ∧ m.calls = n.calls ∧ T m.trace n.trace ∧ S m.shown n.shown
  scopes hmn _ _ := hmn
  record := by
    rintro m n ⟨hnatives, hcalls, htrace, hshown⟩ name value
    have hpush := hT _ _ (name, value) htrace
    cases htrace : h.config.trace <;> cases htrace' : h'.config.trace <;>
      simp only [EvalM.record, htrace, htrace'] at hpush ⊢ <;>
      exact ⟨hnatives, hcalls, hpush, hshown⟩
  native := by
    rintro m n ⟨hnatives, hcalls, htrace, hshown⟩ name
    rw [← hnatives]
    cases m.natives.get? name with
    | none => exact .none
    | some c =>
      refine .some fun f args => ⟨by rw [hcalls], hnatives, ?_, htrace, hshown⟩
      simp only [Machine.afterCall, hcalls]

variable {T S} {hT : ∀ x y entry, T x y → T (if h.config.trace then x.push entry else x)
  (if h'.config.trace then y.push entry else y)}

theorem Tally.alongside_admitsNatives :
    (Tally.alongside (σ := σ) (τ := τ) T S hT).AdmitsNatives := by
  rintro m n name callable ⟨hnatives, hrest⟩
  exact ⟨by simp only [hnatives], hrest⟩

end Alongside

/-- The records of two runs under different configurations: an assignment is on both or on neither, if
    both configurations say the same about it. -/
def Tally.observed {σ τ : Type} (h h' : Host) : Tally σ τ h h' :=
  .alongside (fun x y => (h.config.trace = h'.config.trace → x = y) ∧ (h.config.trace = false → x = #[]))
    (fun _ _ => True) <| by
    rintro x y entry ⟨hsame, hoff⟩
    cases htrace : h.config.trace with
    | false => simp_all
    | true => simp_all

theorem Tally.observed_admitsEcho {σ τ : Type} (h h' : Host) :
    (Tally.observed (σ := σ) (τ := τ) h h').AdmitsEcho := by
  intro m n value hmn
  simp only [EvalM.echo]
  split <;> split <;> exact hmn

/-- The records of a run that has shown some lines and shows no more. -/
def Tally.showing {σ τ : Type} (lines : Array String) (h h' : Host) : Tally σ τ h h' :=
  .alongside (fun _ _ => True) (fun x _ => x = lines) fun _ _ _ _ => trivial

/-! ## What is to be shown -/

/-- The result of a computation that was not cut short. -/
def Outcome.result? {α : Type} : Outcome α → Option α
  | .done a => some a
  | _ => none

namespace Machine

section Values

variable {σ : Type} [ScopeStore σ]

/-- Evaluates an expression after the first `k` statements of a program, which spends the fuel that an
    expression statement leaves to its expression. -/
def evalAfter (fuel : Nat) (p : Program) (k : Nat) (e : Expr) : EvalM σ TypedValue := do
  let _ ← evalProgram fuel ⟨p.header, p.body.take k⟩
  evalExpr (fuel - 1) e

/-- The value of the `k`-th statement of a program, if it is an expression statement that is reached and
    completes. -/
def valueAt? (m : Machine σ) (fuel : Nat) (p : Program) (host : Host) (k : Nat) : Option TypedValue :=
  match p.body[k]? with
  | some (.expr e) => (evalAfter fuel p k e host (fresh (ScopeStore.openGlobal m.scopes))).1.result?
  | _ => none

/-- The values of the expression statements that complete, in order. -/
def completed (m : Machine σ) (fuel : Nat) (p : Program) (host : Host) : List TypedValue :=
  (List.range p.body.length).filterMap (m.valueAt? fuel p host)

end Values

variable {m : Machine Environment} (hm : m.scopes = .empty) (fuel : Nat) (p : Program) (host : Host)

include hm

/-! ## Two runs under different configurations -/

section Configurations

variable {host} {host' : Host} (hregistry : host.registry = host'.registry)

theorem observed_agree {α : Type} {x : EvalM Environment α}
    (hx : EvalM.Simulates host host' ((Simulation.disciplined fun _ => True).Pairs
      (Tally.observed host host') Environment.empty.openGlobal) Eq x x) :
    let start := fresh (ScopeStore.openGlobal m.scopes)
    Agree ((Simulation.disciplined fun _ => True).Pairs (Tally.observed host host')
      Environment.empty.openGlobal) Eq (x host start) (x host' start) := by
  intro start
  apply hx
  exact ⟨⟨rfl, opened_kept hm⟩, rfl, rfl, ⟨fun _ => rfl, fun _ => rfl⟩, trivial⟩

omit hm in
theorem evalProgram_observed (h h' : Host) (hregistry : h.registry = h'.registry) :
    EvalM.Simulates h h' ((Simulation.disciplined fun _ => True).Pairs (Tally.observed h h')
      Environment.empty.openGlobal) Eq (evalProgram fuel p) (evalProgram fuel p) :=
  (Simulation.disciplined _).evalProgram_simulates _ (Tally.observed_admitsEcho h h')
    Simulation.disciplined_admitsHeader Tally.alongside_admitsNatives hregistry fuel p

include hregistry in
theorem valueAt?_congr (k : Nat) : m.valueAt? fuel p host k = m.valueAt? fuel p host' k := by
  unfold valueAt?
  split
  · rename_i e _
    have hvalue := observed_agree hm ((evalProgram_observed fuel ⟨p.header, p.body.take k⟩
      host host' hregistry).andThen fun _ => Simulation.evalExpr_simulates _ _ (fuel - 1) _ e)
    exact congrArg _ hvalue.outcome.eq
  · rfl

include hregistry in
theorem completed_congr : m.completed fuel p host = m.completed fuel p host' := by
  have hvalues : m.valueAt? fuel p host = m.valueAt? fuel p host' :=
    funext (valueAt?_congr hm fuel p hregistry)
  simp only [completed, hvalues]

end Configurations

/-! ## One run, statement by statement -/

theorem run_kept : Environment.empty.openGlobal.Kept (fun _ => True) (m.run fuel p host).2.scopes :=
  ((Simulation.disciplined _).run_agree (n := m) Simulation.disciplined_admitsHeader
    ⟨rfl, opened_kept hm⟩ fuel p host).machine.1.2

omit hm in
/-- A statement shows nothing by itself. -/
theorem evalStmt_shown (s : Stmt) {n : Machine Environment} {before : Environment}
    (hn : before.Kept (fun _ => True) n.scopes) :
    (evalStmt fuel s host n).2.shown = n.shown := by
  have hagree := (Simulation.disciplined fun _ => True).evalStmt_simulates
    (Tally.showing n.shown host host) fuel before s n n ⟨⟨rfl, hn⟩, rfl, rfl, trivial, rfl⟩
  exact hagree.machine.2.2.2.2

/-- Nor does the header. -/
theorem run_header (header : Option Header) : (m.run fuel ⟨header, []⟩ host).2.shown = #[] := by
  let sim := Simulation.disciplined fun _ => True
  have hbody : EvalM.Simulates host host (sim.Pairs (Tally.showing #[] host host)
      Environment.empty.openGlobal) Eq (evalBody fuel []) (evalBody fuel []) := .pure rfl
  have hprogram := Translation.evalProgramWith_simulates sim _ Simulation.disciplined_admitsHeader
    Tally.alongside_admitsNatives rfl header hbody
  have hagree := hprogram (fresh (ScopeStore.openGlobal m.scopes)) _
    ⟨⟨rfl, opened_kept hm⟩, rfl, rfl, trivial, rfl⟩
  exact hagree.machine.2.2.2.2

omit hm in
theorem run_header_results (header : Option Header) :
    EvalM.Yields (fun x => x.results = [])
      (evalProgram fuel ⟨header, []⟩ : EvalM Environment Execution) := by
  have hrest : EvalM.Yields (fun x => x.results = [])
      (do return ⟨[], ← EvalM.ask ScopeStore.variablesHere⟩ : EvalM Environment Execution) :=
    .bind fun _ => .pure rfl
  cases header with
  | none => exact hrest
  | some header => exact .bind fun _ => hrest

end Machine

/-- The value that a statement has from here, if it is an expression statement and completes. -/
def Stmt.value? (fuel : Nat) (host : Host) (n : Machine Environment) : Stmt → Option TypedValue
  | .expr e => (evalExpr (fuel - 1) e host n).1.result?
  | _ => none

/-- The value in what a statement ended with. -/
def Outcome.value? : Outcome Flow → Option TypedValue
  | .done (.normal value) => value
  | _ => none

theorem Stmt.value?_eq (fuel : Nat) (host : Host) (n : Machine Environment) (s : Stmt) :
    s.value? fuel host n = (evalStmt fuel s host n).1.value? := by
  by_cases hs : ∃ e, s = .expr e
  · obtain ⟨e, rfl⟩ := hs
    simp only [evalStmt_expr, bind, EvalM.bind, Stmt.value?]
    rcases evalExpr (fuel - 1) e host n with ⟨_ | _ | _ | _, n'⟩ <;> rfl
  · have hnone : s.value? fuel host n = none := by
      cases s with
      | expr e => exact absurd ⟨e, rfl⟩ hs
      | _ => rfl
    have hvalueless := evalStmt_valueless (fun e he => hs ⟨e, he⟩) fuel host n
    rw [hnone]
    generalize (evalStmt fuel s host n).1 = outcome at hvalueless
    cases outcome with
    | done flow =>
      rcases flow with (_ | v) | _
      · rfl
      · exact absurd rfl (hvalueless _ rfl v)
      · rfl
    | failed | deadScope | outOfFuel => rfl

namespace Machine

/-- A statement at the end of a program adds its value to what is shown and to the results. -/
theorem lastly_shown (fuel : Nat) (host : Host) (s : Stmt) (x : Execution) {n : Machine Environment}
    {before : Environment} (hn : before.Kept (fun _ => True) n.scopes) :
    let r := EvalM.lastly fuel s x host n
    let value := (s.value? fuel host n).toList
    r.2.shown.toList =
      n.shown.toList ++ (if host.config.echo then value.map TypedValue.text else []) ∧
    ∀ y, r.1 = .done y → y.results = x.results ++ value := by
  have hshown := evalStmt_shown fuel host s hn
  have hvalue := s.value?_eq fuel host n
  simp only [EvalM.lastly, evalBody, evalBodyWith, bind, EvalM.bind, hvalue]
  generalize evalStmt fuel s host n = r at hshown
  obtain ⟨outcome, n'⟩ := r
  change n'.shown = n.shown at hshown
  cases outcome with
  | done flow =>
    rcases flow with (_ | v) | _
    · simp [Outcome.value?, pure, EvalM.pure, EvalM.ask, hshown]
    · cases hecho : host.config.echo <;>
        simp [Outcome.value?, pure, EvalM.bind, EvalM.pure, EvalM.ask, EvalM.echo, hshown, hecho]
    · -- A stray `return` fails before anything is shown.
      simp [Outcome.value?, EvalM.fail, hshown]
  | failed | deadScope | outOfFuel => simp [Outcome.value?, hshown]

variable {m : Machine Environment} (hm : m.scopes = .empty) (fuel : Nat) (p : Program) (host : Host)

/-- The value of the `k`-th statement is the one that it has where the statements before it end. -/
theorem valueAt?_eq {k : Nat} {s : Stmt} (hs : p.body[k]? = some s) :
    m.valueAt? fuel p host k =
      match m.run fuel ⟨p.header, p.body.take k⟩ host with
      | (.done _, n) => s.value? fuel host n
      | _ => none := by
  unfold valueAt?
  rw [hs]
  cases s with
  | expr e =>
    simp only [evalAfter, bind, EvalM.bind, Stmt.value?, run]
    rcases evalProgram fuel ⟨p.header, p.body.take k⟩ host (fresh (ScopeStore.openGlobal m.scopes))
      with ⟨_ | _ | _ | _, n⟩ <;> rfl
  | _ =>
    simp only [Stmt.value?]
    split <;> rfl

include hm

/-- After the first statements of a program, what was shown and the results are the values of those that
    completed.  By induction on their number: each is run where the ones before it end. -/
theorem run_take (k : Nat) (hk : k ≤ p.body.length) :
    let r := m.run fuel ⟨p.header, p.body.take k⟩ host
    let values := (List.range k).filterMap (m.valueAt? fuel p host)
    r.2.shown.toList = (if host.config.echo then values.map TypedValue.text else []) ∧
    ∀ x, r.1 = .done x → x.results = values := by
  induction k with
  | zero =>
    simp only [List.take_zero, List.range_zero, List.filterMap_nil, List.map_nil, ite_self]
    exact ⟨by rw [run_header hm], run_header_results fuel p.header host _⟩
  | succ k ih =>
    obtain ⟨hshown, hresults⟩ := ih (by omega)
    have hs : p.body[k]? = some p.body[k] := List.getElem?_eq_getElem hk
    have hvalue := valueAt?_eq (m := m) fuel p host hs
    have hkept := run_kept hm fuel ⟨p.header, p.body.take k⟩ host
    have hrun := m.run_concat fuel p.header (p.body.take k) p.body[k] host
    have hvalues : (List.range (k + 1)).filterMap (m.valueAt? fuel p host) =
        (List.range k).filterMap (m.valueAt? fuel p host) ++ (m.valueAt? fuel p host k).toList := by
      rw [List.range_succ, List.filterMap_append]
      cases hk : m.valueAt? fuel p host k <;> simp [hk]
    rw [List.take_add_one, hs, Option.toList_some, hrun, hvalues, hvalue]
    generalize m.run fuel ⟨p.header, p.body.take k⟩ host = r at hshown hresults hkept
    obtain ⟨outcome, n⟩ := r
    change n.shown.toList = _ at hshown
    cases outcome with
    | done x =>
      obtain ⟨hlast, hadded⟩ := lastly_shown fuel host p.body[k] x hkept
      refine ⟨?_, fun y hy => ?_⟩
      · rw [hlast, hshown]
        cases host.config.echo <;> simp
      · rw [hadded y hy, hresults x rfl]
    | failed | deadScope | outOfFuel =>
      -- The statement is not reached, so it has no value and shows none.
      simpa using hshown

theorem run_shown : (m.run fuel p host).2.shown.toList =
    if host.config.echo then (m.completed fuel p host).map TypedValue.text else [] := by
  have htake := (run_take hm fuel p host p.body.length (Nat.le_refl _)).1
  rwa [List.take_length] at htake

theorem run_results {x : Execution} (hx : (m.run fuel p host).1 = .done x) :
    x.results = m.completed fuel p host := by
  have htake := (run_take hm fuel p host p.body.length (Nat.le_refl _)).2 x
  rw [List.take_length] at htake
  exact htake hx

end Machine

/-- A run ends with the same outcome under every configuration.  Assignments are on record only if that
    is asked for, whether or not values are shown; and what is shown, if that is asked for, are the values
    of the expression statements that completed, one to a line, which are the results of a run that
    succeeds. -/
theorem configuration_only_observes (earlier : List (Nat × Program × Host)) (registry : Registry)
    (fuel : Nat) (p : Program) :
    let start : Evaluator := ⟨⟨registry, {}⟩, .after earlier⟩
    let report (config : Config) : Evaluator.Report := ((start.withConfig config).execute fuel p).1
    let values := start.machine.completed fuel p start.host
    (∀ config config', (report config).outcome = (report config').outcome) ∧
    (∀ config config', config.trace = config'.trace → (report config).trace = (report config').trace) ∧
    (∀ config, config.trace = false → (report config).trace = #[]) ∧
    (∀ config, (report config).shown =
      if config.echo then String.join (values.map fun v => v.text ++ "\n") else "") ∧
    (∀ config x, (report config).outcome = .done x → x.results = values) := by
  intro start report values
  have hm : start.machine.scopes = .empty := Machine.after_scopes earlier
  have hagree := fun config config' : Config => Machine.observed_agree hm
    (Machine.evalProgram_observed fuel p ⟨registry, config⟩ ⟨registry, config'⟩ rfl)
  have hvalues : ∀ config, start.machine.completed fuel p ⟨registry, config⟩ = values :=
    fun config => Machine.completed_congr hm fuel p rfl
  refine ⟨fun config config' => ?_, fun config config' => ?_, fun config => ?_, fun config => ?_,
    fun config x hx => ?_⟩
  · exact (hagree config config').outcome.eq
  · exact (hagree config config').machine.2.2.2.1.1
  · exact (hagree config config).machine.2.2.2.1.2
  · have hshown := Machine.run_shown hm fuel p ⟨registry, config⟩
    rw [hvalues] at hshown
    change String.join ((start.machine.run fuel p ⟨registry, config⟩).2.shown.toList.map _) = _
    rw [hshown]
    cases config.echo with
    | true => simp [Function.comp_def]
    | false => simp
  · rw [← hvalues config]
    exact Machine.run_results hm fuel p _ hx

end Tremolo
