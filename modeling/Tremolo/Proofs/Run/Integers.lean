import Tremolo.Proofs.Run.Header
import Tremolo.Proofs.Syntax.RoundTrip
import Tremolo.Proofs.Token.Lines
import Tremolo.Run.Evaluator

/-! # The text of an integer as a program

A negative integer is written with a sign, and a sign is an operator: what is scanned is the magnitude.
So the text of an integer is read as a signed magnitude (`spelled_signed`), which is evaluated to the
integer (`evalExpr_signed`).  There is one exception: the magnitude of the least integer does not fit, and
its text is not even scanned. -/

namespace Tremolo

/-- Whatever was run before, the text is a program that succeeds with these results. -/
def RunsTo (source : String) (results : List TypedValue) : Prop :=
  ∃ tokens p, tokenize source = .ok tokens ∧ parseTokens tokens = .ok p ∧
    ∃ enough, ∀ (e : Evaluator) (fuel : Nat), enough ≤ fuel →
      ∃ x, (e.execute fuel p).1.outcome = .done x ∧ x.results = results

/-! ## Texts without blanks -/

/-- The text is read as tokens of these kinds, with nothing in between. -/
inductive Spelled : List Char → List TokenKind → Prop
  | nil : Spelled [] []
  | cons {c tail after kind ks} : readItem c (tail ++ after) = ⟨.token kind, tail⟩ →
      Spelled after ks → Spelled (c :: (tail ++ after)) (kind :: ks)

theorem Spelled.scanFrom {text : List Char} {ks : List TokenKind} (h : Spelled text ks)
    (p : Position) :
    (scanFrom p 0 text).error = none ∧ (scanFrom p 0 text).tokens.map Token.kind = ks := by
  induction h generalizing p with
  | nil => exact ⟨rfl, rfl⟩
  | cons hread _ ih =>
    obtain ⟨herror, hkinds⟩ := ih (p.along _)
    rw [scanFrom_read hread]
    exact ⟨herror, congrArg _ hkinds⟩

/-- A digit or a point would belong to the number. -/
theorem Spelled.integer {n : Int64} (hn : 0 ≤ n) {rest : List Char} {ks : List TokenKind}
    (h : Spelled rest ks) (hrest : ∀ d ∈ rest.head?, d.isDigit = false ∧ d ≠ '.') :
    Spelled (Nat.toDigits 10 n.toInt.natAbs ++ rest) (.integer n :: ks) := by
  obtain ⟨c, cs, hdigits, hread⟩ := readItem_toDigits n.toInt.natAbs
  have hitem := hread rest hrest
  rw [← hdigits, integerItem_toDigits hn] at hitem
  rw [hdigits]
  exact .cons hitem h

/-- A program is read back from every text that spells its tokens. -/
theorem parse_of_spelled {source : String} {p : Program} (hp : p.writable = true)
    (h : Spelled source.toList p.tokens) :
    ∃ tokens, tokenize source = .ok tokens ∧ parseTokens tokens = .ok p := by
  obtain ⟨herror, hkinds⟩ := h.scanFrom .start
  exact ⟨_, tokenize_eq_ok.2 ⟨herror, rfl⟩, parseTokens_of_kinds hp hkinds rfl⟩

/-! ## Integers -/

/-- The integer as an expression: its magnitude, behind a sign if it is negative. -/
def Expr.signed (n : Int64) : Expr :=
  if 0 ≤ n then .int n else .unary .neg (.int (-n))

theorem toInt_neg_of_ne {n : Int64} (h : n ≠ Int64.minValue) : (-n).toInt = -n.toInt := by
  have hne : n.toInt ≠ Int64.minValue.toInt := fun heq => h (Int64.toInt_inj.1 heq)
  have hmin := Int64.minValue_le_toInt n
  have hmax := Int64.toInt_le n
  rw [Int64.toInt_minValue] at hne hmin
  rw [Int64.toInt_maxValue] at hmax
  rw [Int64.toInt_neg, Int.bmod_eq_of_le] <;> omega

/-- There are two forms of signed integers, and both write no negative literal. -/
theorem signed_cases {n : Int64} (h : n ≠ Int64.minValue) :
    0 ≤ n ∧ Expr.signed n = .int n ∧ (Value.int n).text = Decimal.natText n.toInt.natAbs ∨
    ∃ m : Int64, 0 ≤ m ∧ n.toInt = -m.toInt ∧ Expr.signed n = .unary .neg (.int m) ∧
      (Value.int n).text = "-" ++ Decimal.natText m.toInt.natAbs := by
  by_cases hn : 0 ≤ n
  · have hnonneg : 0 ≤ n.toInt := Int64.le_iff_toInt_le.1 hn
    refine .inl ⟨hn, if_pos hn, ?_⟩
    rw [Value.text, Decimal.intText, if_neg (Int.not_lt.2 hnonneg)]
  · have hneg : n.toInt < 0 := by
      have := mt Int64.le_iff_toInt_le.2 hn
      simpa using this
    have hopposite := toInt_neg_of_ne h
    refine .inr ⟨-n, Int64.le_iff_toInt_le.2 ?_, by omega, if_neg hn, ?_⟩
    · rw [hopposite]
      exact Int.neg_nonneg_of_nonpos (Int.le_of_lt hneg)
    · rw [Value.text, Decimal.intText, if_pos hneg, hopposite, Int.natAbs_neg]

theorem Program.writable_signed {n : Int64} (h : n ≠ Int64.minValue) :
    (⟨none, [.expr (.signed n)]⟩ : Program).writable = true := by
  obtain ⟨hn, hform, -⟩ | ⟨m, hm, -, hform, -⟩ := signed_cases h
  · simp [Program.writable, stmtsWritable, Stmt.writable, hform, Expr.writable, hn]
  · simp [Program.writable, stmtsWritable, Stmt.writable, hform, Expr.writable, hm]

theorem spelled_signed {n : Int64} (h : n ≠ Int64.minValue) :
    Spelled ((Value.int n).text ++ ";").toList (⟨none, [.expr (.signed n)]⟩ : Program).tokens := by
  have hend : Spelled (';' :: ([] ++ [])) [.semicolon] := .cons rfl .nil
  have hfree : ∀ d ∈ (';' :: ([] ++ [])).head?, d.isDigit = false ∧ d ≠ '.' := by
    rintro _ ⟨⟩
    decide
  obtain ⟨hn, hform, htext⟩ | ⟨m, hm, -, hform, htext⟩ := signed_cases h
  · have hspelled := Spelled.integer hn hend hfree
    rw [hform, htext]
    change Spelled _ [.integer n, .semicolon]
    simpa [Decimal.natText] using hspelled
  · have hspelled := Spelled.integer hm hend hfree
    have hsigned : Spelled ('-' :: ([] ++ _)) _ := .cons rfl hspelled
    rw [hform, htext]
    change Spelled _ [.minus, .integer m, .semicolon]
    simpa [Decimal.natText] using hsigned

theorem evalExpr_signed {σ : Type} [ScopeStore σ] {n : Int64} (h : n ≠ Int64.minValue) (fuel : Nat)
    (host : Host) (m : Machine σ) :
    evalExpr (fuel + 2) (.signed n) host m = (.done ⟨.number, .int n⟩, m) := by
  obtain ⟨-, hform, -⟩ | ⟨k, -, hopposite, hform, -⟩ := signed_cases h
  · rw [hform]
    rfl
  · have hfits : Decimal.int64? (-k.toInt) = some n := by
      rw [← hopposite, Decimal.int64?_toInt]
    rw [hform]
    change EvalM.ofExcept (UnaryOp.neg.apply ⟨.number, .int k⟩) host m = _
    simp only [UnaryOp.apply, hfits]
    rfl

/-- The only result of an expression statement is the value of the expression. -/
theorem execute_expr {fuel : Nat} {e : Expr} {v : TypedValue}
    (h : ∀ (host : Host) (m : Machine Environment), evalExpr fuel e host m = (.done v, m))
    (evaluator : Evaluator) :
    ∃ x, (evaluator.execute (fuel + 1) ⟨none, [.expr e]⟩).1.outcome = .done x ∧ x.results = [v] := by
  have hstmt (host : Host) (m : Machine Environment) :
      evalStmt (fuel + 1) (.expr e) host m = (.done (.normal (some v)), m) :=
    EvalM.bind_done (h host m)
  have hbody (host : Host) (m : Machine Environment) :
      evalBody (fuel + 1) [.expr e] host m = (.done [v], (EvalM.echo v host m).2) :=
    EvalM.bind_done (hstmt host m)
  have hprogram (host : Host) (m : Machine Environment) :
      ∃ globals, (evalProgram (fuel + 1) ⟨none, [.expr e]⟩ host m).1 = .done ⟨[v], globals⟩ :=
    ⟨_, congrArg Prod.fst (EvalM.bind_done (hbody host m))⟩
  obtain ⟨globals, houtcome⟩ := hprogram evaluator.host _
  exact ⟨_, houtcome, rfl⟩

/-- The magnitude of the least integer is out of range. -/
theorem tokenize_minValue :
    tokenize ((Value.int Int64.minValue).text ++ ";") =
      .error (.lexical 1 2 (.integerOutOfRange "9223372036854775808")) := by
  decide +kernel

theorem not_runsTo_minValue (results : List TypedValue) :
    ¬ RunsTo ((Value.int Int64.minValue).text ++ ";") results := by
  rintro ⟨tokens, p, hscan, -⟩
  rw [tokenize_minValue] at hscan
  cases hscan

/-- An integer can be written back as a program, unless it is the least one. -/
theorem int_text_runs_iff (n : Int64) :
    RunsTo ((Value.int n).text ++ ";") [⟨.number, .int n⟩] ↔ n ≠ Int64.minValue := by
  constructor
  · rintro h rfl
    exact not_runsTo_minValue _ h
  · intro h
    obtain ⟨tokens, hscan, hparse⟩ := parse_of_spelled (Program.writable_signed h) (spelled_signed h)
    refine ⟨tokens, _, hscan, hparse, 3, fun e fuel hfuel => ?_⟩
    obtain ⟨more, rfl⟩ := Nat.exists_eq_add_of_le' hfuel
    exact execute_expr (evalExpr_signed h more) e

/-- So not all integers can be written back. -/
theorem int_text_runs_minValue :
    ¬ ∀ n : Int64, RunsTo ((Value.int n).text ++ ";") [⟨.number, .int n⟩] :=
  fun hall => not_runsTo_minValue _ (hall Int64.minValue)

end Tremolo
