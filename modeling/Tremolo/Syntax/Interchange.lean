import Tremolo.Json.Decoder
import Tremolo.Json.Parser
import Tremolo.Json.Printer
import Tremolo.Syntax.Basic

/-! # Programs as JSON

Programs are exchanged as JSON text: records as objects, variants under their names.  Encoding is
canonical, decoding accepts every notation that `Json.Decoder` admits.

* `Program.toJson`, `Program.encode` — the canonical form, as a value and as text;
* `Program.ofJson?`, `Program.decode?` — the way back. -/

namespace Tremolo

open Json (Decoder)

/-! ## Operators -/

def UnaryOp.tags : List (String × UnaryOp) :=
  [("Plus", .plus), ("Neg", .neg)]

def BinaryOp.tags : List (String × BinaryOp) :=
  [("Add", .add), ("Sub", .sub), ("Mul", .mul), ("Div", .div)]

def CondOp.tags : List (String × CondOp) :=
  [("Eq", .eq), ("NotEq", .ne), ("Lt", .lt), ("Gt", .gt), ("LtEq", .le), ("GtEq", .ge),
   ("And", .and), ("Or", .or)]

def UnaryOp.tag : UnaryOp → String
  | plus => "Plus"
  | neg => "Neg"

def BinaryOp.tag : BinaryOp → String
  | add => "Add"
  | sub => "Sub"
  | mul => "Mul"
  | div => "Div"

def CondOp.tag : CondOp → String
  | eq => "Eq"
  | ne => "NotEq"
  | lt => "Lt"
  | gt => "Gt"
  | le => "LtEq"
  | ge => "GtEq"
  | and => "And"
  | or => "Or"

/-! ## Encoding -/

/-- How number literals are written. -/
structure LiteralStyle where
  int : Int64 → Json
  float : Float → Json

def LiteralStyle.plain : LiteralStyle :=
  ⟨fun n => .int n.toInt, .float⟩

mutual

def Expr.toJson (style : LiteralStyle) : Expr → Json
  | .int n => .variant "IntLiteral" (style.int n)
  | .float x => .variant "FloatLiteral" (style.float x)
  | .string s => .variant "StringLiteral" (.text s)
  | .bool b => .variant "BoolLiteral" (.bool b)
  | .var name => .variant "Variable" (.text name)
  | .call name args =>
    .variant "FunctionCall" (.record [("name", .text name), ("args", .array (argsToJson style args))])
  | .binary op left right =>
    .variant "Binary" (.record
      [("op", .text op.tag), ("left", left.toJson style), ("right", right.toJson style)])
  | .unary op operand =>
    .variant "Unary" (.record [("op", .text op.tag), ("operand", operand.toJson style)])
  | .cond op left right =>
    .variant "Conditional" (.record
      [("op", .text op.tag), ("left", left.toJson style), ("right", right.toJson style)])

def argsToJson (style : LiteralStyle) : List Expr → List Json
  | [] => []
  | e :: es => e.toJson style :: argsToJson style es

end

mutual

def Stmt.toJson (style : LiteralStyle) : Stmt → Json
  | .block body => .variant "Block" (.array (stmtsToJson style body))
  | .declare type names =>
    .variant "VarDeclaration" (.record [("type_name", .text type), ("names", .texts names)])
  | .define name params body =>
    .variant "FunctionDeclaration" (.record
      [("name", .text name), ("params", .texts params), ("body", .array (stmtsToJson style body))])
  | .assign name value =>
    .variant "Assignment" (.record [("name", .text name), ("value", value.toJson style)])
  | .when condition body =>
    .variant "If" (.record
      [("condition", condition.toJson style), ("body", .array (stmtsToJson style body))])
  | .loop condition body =>
    .variant "While" (.record
      [("condition", condition.toJson style), ("body", .array (stmtsToJson style body))])
  | .ret value =>
    .variant "Return" (.record [("value", (value.map (Expr.toJson style)).getD .null)])
  | .expr e => .variant "Expression" (e.toJson style)
  | .skip => .text "NoOp"

def stmtsToJson (style : LiteralStyle) : List Stmt → List Json
  | [] => []
  | s :: ss => s.toJson style :: stmtsToJson style ss

end

def Signature.toJson (s : Signature) : Json :=
  .record [("name", .text s.name), ("parameter_types", .texts s.parameterTypes),
    ("return_type", (s.returnType.map Json.text).getD .null)]

def ModuleUse.toJson (m : ModuleUse) : Json :=
  .record [("name", .text m.name), ("functions", .array (m.functions.map Signature.toJson))]

def Header.toJson (h : Header) : Json :=
  .record
    [("types", .array (h.types.map fun name => .record [("name", .text name)])),
     ("modules", .array (h.modules.map ModuleUse.toJson))]

def Program.toJsonIn (style : LiteralStyle) (p : Program) : Json :=
  .record
    [("declarations", (p.header.map Header.toJson).getD .null),
     ("body", .array (stmtsToJson style p.body))]

def Program.toJson (p : Program) : Json :=
  p.toJsonIn .plain

def Program.encode (p : Program) : String :=
  p.toJson.toText

/-! ## Decoding -/

/-- An expression from JSON.  Sub-expressions lie at least two levels deeper: under the name of the
    variant and inside its record. -/
def Expr.ofJson? : Decoder Expr
  | levels + 1, .object [(some tag, content)] =>
    match tag, levels with
    | "IntLiteral", n => (Decoder.int64 n content).map .int
    | "FloatLiteral", n => (Decoder.float n content).map .float
    | "StringLiteral", n => (Decoder.text n content).map .string
    | "BoolLiteral", n => (Decoder.bool n content).map .bool
    | "Variable", n => (Decoder.text n content).map .var
    | "FunctionCall", n + 2 => do
      let [name, some (.array args)] ← Decoder.fields? ["name", "args"] content | none
      return .call (← Decoder.text.required (n + 1) name) (← args.mapM (Expr.ofJson? n))
    | "Binary", n + 1 => do
      let [op, some left, some right] ← Decoder.fields? ["op", "left", "right"] content | none
      return .binary (← (Decoder.choice BinaryOp.tags).required n op) (← Expr.ofJson? n left)
        (← Expr.ofJson? n right)
    | "Unary", n + 1 => do
      let [op, some operand] ← Decoder.fields? ["op", "operand"] content | none
      return .unary (← (Decoder.choice UnaryOp.tags).required n op) (← Expr.ofJson? n operand)
    | "Conditional", n + 1 => do
      let [op, some left, some right] ← Decoder.fields? ["op", "left", "right"] content | none
      return .cond (← (Decoder.choice CondOp.tags).required n op) (← Expr.ofJson? n left)
        (← Expr.ofJson? n right)
    | _, _ => none
  | _, _ => none

/-- A statement from JSON.  Inner statements lie at least two levels deeper: under the name of the
    variant and inside a list. -/
def Stmt.ofJson? : Decoder Stmt
  | _, .string (some tag) => if tag = "NoOp" then some .skip else none
  | levels + 1, .object [(some tag, content)] =>
    match tag, levels with
    | "NoOp", _ => match content with
      | .null => some .skip
      | _ => none
    | "Block", n + 1 => match content with
      | .array items => do return .block (← items.mapM (Stmt.ofJson? n))
      | _ => none
    | "VarDeclaration", n =>
      Decoder.record ["type_name", "names"] (fun levels fields => do
        let [type, names] := fields | none
        return .declare (← Decoder.text.required levels type)
          (← (Decoder.list .text).required levels names)) n content
    | "FunctionDeclaration", n + 2 => do
      let [name, params, some (.array items)] ← Decoder.fields? ["name", "params", "body"] content
        | none
      return .define (← Decoder.text.required (n + 1) name)
        (← (Decoder.list .text).required (n + 1) params) (← items.mapM (Stmt.ofJson? n))
    | "Assignment", n =>
      Decoder.record ["name", "value"] (fun levels fields => do
        let [name, value] := fields | none
        return .assign (← Decoder.text.required levels name)
          (← Decoder.required Expr.ofJson? levels value)) n content
    | "If", n + 2 => do
      let [condition, some (.array items)] ← Decoder.fields? ["condition", "body"] content | none
      return .when (← Decoder.required Expr.ofJson? (n + 1) condition)
        (← items.mapM (Stmt.ofJson? n))
    | "While", n + 2 => do
      let [condition, some (.array items)] ← Decoder.fields? ["condition", "body"] content | none
      return .loop (← Decoder.required Expr.ofJson? (n + 1) condition)
        (← items.mapM (Stmt.ofJson? n))
    | "Return", n =>
      Decoder.record ["value"] (fun levels fields => do
        let [value] := fields | none
        return .ret (← Decoder.missing Expr.ofJson? levels value)) n content
    | "Expression", n => (Expr.ofJson? n content).map .expr
    | _, _ => none
  | _, _ => none

def Signature.ofJson? : Decoder Signature :=
  .record ["name", "parameter_types", "return_type"] fun levels fields => do
    let [name, parameters, returns] := fields | none
    return ⟨← Decoder.text.required levels name, ← (Decoder.list .text).required levels parameters,
      ← Decoder.text.missing levels returns⟩

def ModuleUse.ofJson? : Decoder ModuleUse :=
  .record ["name", "functions"] fun levels fields => do
    let [name, functions] := fields | none
    return ⟨← Decoder.text.required levels name,
      ← (Decoder.list Signature.ofJson?).required levels functions⟩

def declaredTypeOfJson? : Decoder String :=
  .record ["name"] fun levels fields => do
    let [name] := fields | none
    Decoder.text.required levels name

def Header.ofJson? : Decoder Header :=
  .record ["types", "modules"] fun levels fields => do
    let [types, modules] := fields | none
    return ⟨← (Decoder.list declaredTypeOfJson?).required levels types,
      ← (Decoder.list ModuleUse.ofJson?).required levels modules⟩

def Program.ofJson? : Decoder Program :=
  .record ["declarations", "body"] fun levels fields => do
    let [header, body] := fields | none
    return ⟨← Decoder.missing Header.ofJson? levels header,
      ← (Decoder.list Stmt.ofJson?).required levels body⟩

def Program.decode? (s : String) : Option Program :=
  Json.parse? s >>= Program.ofJson? Json.maxLevels

end Tremolo
