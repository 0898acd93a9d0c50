import Tremolo.Proofs.Value.Renaming

/-! # Renaming in programs

`Program.rename` renames the variables, parameters, functions and declared types of a program together
with their uses.  The names of modules and of the functions they provide belong to the host and stay;
a call does not tell what it calls, so for a renaming to be consistent it has to keep the names in
`Program.externals`. -/

namespace Tremolo

variable (r : Renaming)

/-! ## Expressions -/

mutual

def Expr.rename : Expr → Expr
  | .var name => .var (r name)
  | .unary op operand => .unary op operand.rename
  | .binary op left right => .binary op left.rename right.rename
  | .cond op left right => .cond op left.rename right.rename
  | .call name args => .call (r name) (renameArgs args)
  | .int n => .int n
  | .float x => .float x
  | .string s => .string s
  | .bool b => .bool b

def renameArgs : List Expr → List Expr
  | [] => []
  | e :: rest => e.rename :: renameArgs rest

end

theorem renameArgs_eq_map (args : List Expr) : renameArgs r args = args.map (Expr.rename r) := by
  induction args with
  | nil => rfl
  | cons e rest ih => rw [renameArgs, ih, List.map_cons]

/-! ## Statements -/

mutual

def Stmt.rename : Stmt → Stmt
  | .skip => .skip
  | .block body => .block (renameBody body)
  | .declare type names => .declare (r type) (names.map r)
  | .define name params body => .define (r name) (params.map r) (renameBody body)
  | .assign name value => .assign (r name) (value.rename r)
  | .when condition body => .when (condition.rename r) (renameBody body)
  | .loop condition body => .loop (condition.rename r) (renameBody body)
  | .ret value => .ret (value.map (Expr.rename r))
  | .expr e => .expr (e.rename r)

def renameBody : List Stmt → List Stmt
  | [] => []
  | s :: rest => s.rename :: renameBody rest

end

/-! ## Programs -/

def Signature.rename (s : Signature) : Signature :=
  ⟨s.name, s.parameterTypes.map r, s.returnType.map r⟩

def ModuleUse.rename (use : ModuleUse) : ModuleUse :=
  ⟨use.name, use.functions.map (Signature.rename r)⟩

def Header.rename (header : Header) : Header :=
  ⟨header.types.map r, header.modules.map (ModuleUse.rename r)⟩

def Program.rename (p : Program) : Program :=
  ⟨p.header.map (Header.rename r), renameBody r p.body⟩

/-- The names of the native functions that a header declares. -/
def Header.externals (header : Header) : List String :=
  header.modules.flatMap fun use => use.functions.map Signature.name

/-- The names of the native functions that a program declares. -/
def Program.externals (p : Program) : List String :=
  (p.header.map Header.externals).getD []

end Tremolo
