import Tremolo.Syntax.Operator

/-! # Programs

A program is an optional header, which names external types and native functions, and a list of
statements. -/

namespace Tremolo

inductive Expr where
  | int (n : Int64)
  | float (x : Float)
  | string (s : String)
  | bool (b : Bool)
  | var (name : String)
  | unary (op : UnaryOp) (operand : Expr)
  | binary (op : BinaryOp) (left right : Expr)
  | cond (op : CondOp) (left right : Expr)
  | call (name : String) (args : List Expr)
deriving Inhabited

inductive Stmt where
  | skip
  /-- A list of statements in a scope of its own. -/
  | block (body : List Stmt)
  | declare (type : String) (names : List String)
  | define (name : String) (params : List String) (body : List Stmt)
  | assign (name : String) (value : Expr)
  | when (condition : Expr) (body : List Stmt)
  | loop (condition : Expr) (body : List Stmt)
  | ret (value : Option Expr)
  | expr (e : Expr)
deriving Inhabited

structure Signature where
  name : String
  parameterTypes : List String
  returnType : Option String
deriving DecidableEq

/-- The functions used from one native module. -/
structure ModuleUse where
  name : String
  functions : List Signature
deriving DecidableEq

/-- What a program takes from outside. -/
structure Header where
  types : List String
  modules : List ModuleUse
deriving DecidableEq

structure Program where
  header : Option Header
  body : List Stmt

end Tremolo
