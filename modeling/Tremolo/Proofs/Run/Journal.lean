import Tremolo.Proofs.Run.Visited

/-! # Journals of evaluated statements

An evaluator that keeps a journal: before it evaluates a statement it writes down the statement, whether
the statement stands in the body of a function, and the scopes at that moment.  Whether a statement
stands in the body of a function is read off the program and handed down with the statements; scopes
have no part in it.

* `Program.places` — all statements of a program, and where they stand;
* `journalExpr`, `journalStmt` — the evaluator of `Run.Eval` with a journal;
* `Simulation.journal_agree` — a run goes the same way with a journal and without. -/

namespace Tremolo

/-! ## Where statements stand -/

/-- The statements directly in a statement, each with whether it stands in the body of a function;
    `inside` says it of the statement around them. -/
def Stmt.parts (inside : Bool) : Stmt → List (Bool × Stmt)
  | .block body | .when _ body | .loop _ body => body.map (inside, ·)
  | .define _ _ body => body.map (true, ·)
  | .skip | .declare .. | .assign .. | .ret .. | .expr .. => []

mutual

/-- A statement and all statements in it, each with whether it stands in the body of a function. -/
def Stmt.places (inside : Bool) : Stmt → List (Bool × Stmt)
  | .skip => [(inside, .skip)]
  | .block body => (inside, .block body) :: stmtPlaces inside body
  | .declare type names => [(inside, .declare type names)]
  | .define name params body => (inside, .define name params body) :: stmtPlaces true body
  | .assign name value => [(inside, .assign name value)]
  | .when condition body => (inside, .when condition body) :: stmtPlaces inside body
  | .loop condition body => (inside, .loop condition body) :: stmtPlaces inside body
  | .ret value => [(inside, .ret value)]
  | .expr e => [(inside, .expr e)]

def stmtPlaces (inside : Bool) : List Stmt → List (Bool × Stmt)
  | [] => []
  | s :: rest => s.places inside ++ stmtPlaces inside rest

end

/-- All statements of a program, each with whether it stands in the body of a function. -/
def Program.places (p : Program) : List (Bool × Stmt) :=
  stmtPlaces false p.body

theorem Stmt.self_mem_places (inside : Bool) (s : Stmt) : (inside, s) ∈ s.places inside := by
  cases s <;> simp [Stmt.places]

theorem mem_stmtPlaces {inside : Bool} {body : List Stmt} {s : Stmt} (h : s ∈ body) :
    (inside, s) ∈ stmtPlaces inside body := by
  induction body with
  | nil => cases h
  | cons t rest ih =>
    simp only [stmtPlaces, List.mem_append]
    cases h with
    | head => exact .inl (s.self_mem_places inside)
    | tail _ h => exact .inr (ih h)

theorem parts_subset_stmtPlaces {inside : Bool} {body : List Stmt} {q : Bool × Stmt}
    (h : q ∈ body.map (inside, ·)) : q ∈ stmtPlaces inside body := by
  obtain ⟨s, hs, rfl⟩ := List.mem_map.1 h
  exact mem_stmtPlaces hs

section

variable {b : Bool} {s : Stmt} {q : Bool × Stmt}

mutual

theorem Stmt.places_closed (inside : Bool) (t : Stmt) (h : (b, s) ∈ t.places inside)
    (hq : q ∈ s.parts b) : q ∈ t.places inside := by
  match t with
  | .skip | .declare .. | .assign .. | .ret .. | .expr .. =>
    simp only [Stmt.places, List.mem_singleton, Prod.mk.injEq] at h
    obtain ⟨rfl, rfl⟩ := h
    cases hq
  | .block body | .when _ body | .loop _ body | .define _ _ body =>
    simp only [Stmt.places, List.mem_cons, Prod.mk.injEq] at h ⊢
    rcases h with ⟨rfl, rfl⟩ | h
    · exact .inr (parts_subset_stmtPlaces hq)
    · exact .inr (stmtPlaces_closed _ body h hq)

theorem stmtPlaces_closed (inside : Bool) (body : List Stmt) (h : (b, s) ∈ stmtPlaces inside body)
    (hq : q ∈ s.parts b) : q ∈ stmtPlaces inside body := by
  match body with
  | [] => cases h
  | t :: rest =>
    simp only [stmtPlaces, List.mem_append] at h ⊢
    rcases h with h | h
    · exact .inl (t.places_closed inside h hq)
    · exact .inr (stmtPlaces_closed inside rest h hq)

end

end

namespace Program

variable {p : Program} {b : Bool} {s : Stmt}

theorem mem_places (h : s ∈ p.body) : (false, s) ∈ p.places :=
  mem_stmtPlaces h

/-- With a statement, all statements in it are statements of the program. -/
theorem parts_mem_places (h : (b, s) ∈ p.places) {q : Bool × Stmt} (hq : q ∈ s.parts b) :
    q ∈ p.places :=
  stmtPlaces_closed false p.body h hq

end Program

/-! ## Journals -/

/-- A statement that was about to be evaluated: whether it stands in the body of a function, and the
    scopes at that moment. -/
structure Visit (σ : Type) where
  inside : Bool
  stmt : Stmt
  scopes : σ

/-- A store with a journal, the latest visit first. -/
structure Journal (σ : Type) where
  now : σ
  visits : List (Visit σ)

namespace Journal

variable {σ τ : Type}

/-- Goes on to another state. -/
def move (j : Journal σ) (s : σ) : Journal σ :=
  { j with now := s }

variable [ScopeStore σ] [ScopeStore τ]

instance : ScopeStore (Journal σ) where
  empty := ⟨ScopeStore.empty, []⟩
  current j := ScopeStore.current j.now
  openGlobal j := j.move (ScopeStore.openGlobal j.now)
  openScope? j name kind parent := (ScopeStore.openScope? j.now name kind parent).map j.move
  closeScope j restore := j.move (ScopeStore.closeScope j.now restore)
  insert j symbol := j.move (ScopeStore.insert j.now symbol)
  lookupHere j := ScopeStore.lookupHere j.now
  lookup j := ScopeStore.lookup j.now
  assign j name value := (ScopeStore.assign j.now name value).map j.move
  inFunction j := ScopeStore.inFunction j.now
  variablesHere j := ScopeStore.variablesHere j.now

/-- Evaluation does not see the visits. -/
def overlay : Overlay (Journal σ) σ where
  inner := now
  current _ := rfl
  openScope? j name kind parent := by
    change ((ScopeStore.openScope? j.now name kind parent).map j.move).map now = _
    rw [Option.map_map]
    exact Option.map_id'
  closeScope _ _ := rfl
  insert _ _ := rfl
  lookupHere _ _ := rfl
  lookup _ _ := rfl
  assign j name value := by
    change ((ScopeStore.assign j.now name value).map j.move).map now = _
    cases ScopeStore.assign j.now name value <;> rfl
  inFunction _ := rfl
  variablesHere _ := rfl

end Journal

/-! ## Evaluation with a journal -/

section

variable {σ τ : Type} [ScopeStore σ] [ScopeStore τ]

/-- Writes down a statement that is about to be evaluated. -/
def EvalM.visit (inside : Bool) (s : Stmt) : EvalM (Journal σ) Unit :=
  change fun j => { j with visits := ⟨inside, s, j.now⟩ :: j.visits }

open EvalM

mutual

/-- Evaluates an expression that stands in the body of a function or not.  The statements of a function
    that it calls do. -/
def journalExpr : (fuel : Nat) → (inside : Bool) → Expr → EvalM (Journal σ) TypedValue
  | 0, _, _ => outOfFuel
  | fuel + 1, inside, e => evalExprWith (journalExpr fuel inside) (journalStmt fuel true) e

/-- Evaluates a statement that stands in the body of a function or not, and so do the statements in
    it. -/
def journalStmt : (fuel : Nat) → (inside : Bool) → Stmt → EvalM (Journal σ) Flow
  | 0, _, _ => outOfFuel
  | fuel + 1, inside, s => do
    visit inside s
    evalStmtWith (journalExpr fuel inside) (journalStmt fuel inside) fuel s

end

/-- The run of a program with a journal, up to where the global scope is closed. -/
def Machine.journal (fuel : Nat) (p : Program) (host : Host) (m : Machine σ) :
    Outcome Execution × Machine (Journal σ) :=
  evalProgramWith (journalStmt fuel false) p host (fresh ⟨ScopeStore.openGlobal m.scopes, []⟩)

namespace Simulation

variable (sim : Simulation σ τ)

/-- Writing down a visit changes nothing that evaluation sees. -/
theorem journal_simulates {h h' : Host} (tally : Tally (Journal σ) τ h h') (fuel : Nat) :
    (∀ inside w e, Simulates h h' ((Journal.overlay.simulation sim).Pairs tally w) Eq
      (journalExpr fuel inside e) (evalExpr fuel e)) ∧
    (∀ inside w s, Simulates h h' ((Journal.overlay.simulation sim).Pairs tally w) Eq
      (journalStmt fuel inside s) (evalStmt fuel s)) := by
  induction fuel with
  | zero => exact ⟨fun _ _ _ => .outOfFuel, fun _ _ _ => .outOfFuel⟩
  | succ fuel ih =>
    obtain ⟨hexpr, hstmt⟩ := ih
    constructor
    · intro inside w e
      exact Simulation.evalExprWith_simulates (Journal.overlay.simulation sim) tally (hexpr inside)
        (hstmt true) e
    · intro inside w s m n hmn
      have hstep := Simulation.evalStmtWith_simulates (Journal.overlay.simulation sim) tally (w := w)
        (hexpr inside) (hstmt inside) fuel s
      exact hstep _ n ⟨hmn.1, tally.scopes hmn.2 _ n.scopes⟩

theorem journalProgram_simulates {h h' : Host} (tally : Tally (Journal σ) τ h h') {w : sim.World}
    (hecho : tally.AdmitsEcho) (hheader : sim.AdmitsHeader) (hnatives : tally.AdmitsNatives)
    (hregistry : h.registry = h'.registry) (fuel : Nat) (p : Program) :
    Simulates h h' ((Journal.overlay.simulation sim).Pairs tally w) Eq
      (evalProgramWith (journalStmt fuel false) p) (evalProgram fuel p) :=
  Simulation.evalProgramWith_simulates (Journal.overlay.simulation sim) tally hecho
    ((sim.journal_simulates tally fuel).2 false w) (Journal.overlay.simulation_admitsHeader hheader)
    hnatives hregistry p

section Runs

variable {w : sim.World} {m : Machine σ} {n : Machine τ} (hheader : sim.AdmitsHeader)
  (hopen : sim.Rel w (ScopeStore.openGlobal m.scopes) (ScopeStore.openGlobal n.scopes)) (fuel : Nat)
  (p : Program) (host : Host)

include hheader hopen

/-- A run goes the same way with a journal and without. -/
theorem journal_agree :
    Agree (fun j n => sim.Rel w j.scopes.now n.scopes ∧ j.SameRecords n) Eq (m.journal fuel p host)
      (n.run fuel p host) :=
  (Journal.overlay.simulation sim).agree_of_simulates (w := w)
    (s := ⟨ScopeStore.openGlobal m.scopes, []⟩) hopen
    (sim.journalProgram_simulates _ (Tally.since_admitsEcho host _ _ _ _) hheader
      (Tally.since_admitsNatives host _ _ _) rfl fuel p)

/-- So does a statement after a run. -/
theorem journalThen_agree (s : Stmt) :
    Agree (fun j n => sim.Rel w j.scopes.now n.scopes ∧ j.SameRecords n) Eq
      ((evalProgramWith (journalStmt fuel false) p >>= fun _ => journalStmt fuel false s) host
        (.fresh ⟨ScopeStore.openGlobal m.scopes, []⟩))
      ((evalProgram fuel p >>= fun _ => evalStmt fuel s) host
        (.fresh (ScopeStore.openGlobal n.scopes))) :=
  (Journal.overlay.simulation sim).agree_of_simulates (w := w)
    (s := ⟨ScopeStore.openGlobal m.scopes, []⟩) hopen
    ((sim.journalProgram_simulates _ (Tally.since_admitsEcho host _ _ _ _) hheader
      (Tally.since_admitsNatives host _ _ _) rfl fuel p).andThen
      fun _ => (sim.journal_simulates _ fuel).2 false w s)

end Runs

end Simulation

end

end Tremolo
