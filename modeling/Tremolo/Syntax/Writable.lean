import Tremolo.Syntax.Printer
import Tremolo.Token.Scanner

/-! # What can be written

A kind of token can be written if its text is read as that kind again.  A program can be written if the
names in it are identifiers, its types are builtin ones or identifiers, every declaration has a name,
no integer is negative, and there are no floats, whose text need not denote the same number again. -/

namespace Tremolo

variable [Alphabet]

/-- A character that starts a word, and others that continue it. -/
def isWord (text : String) : Bool :=
  match text.toList with
  | [] => false
  | c :: cs => startsWord c && cs.all continuesWord

def isIdentifier (name : String) : Bool :=
  isWord name && (TokenKind.keyword? name).isNone

/-- A builtin type word or an identifier. -/
def isTypeName (name : String) : Bool :=
  TokenKind.typeWords.contains name || isIdentifier name

def TokenKind.writable : TokenKind → Bool
  | .eof => false
  | .integer n => decide (0 ≤ n)
  | .float _ => false
  | .identifier name => isIdentifier name
  | .typeName name => typeWords.contains name
  | _ => true

mutual

def Expr.writable : Expr → Bool
  | .int n => decide (0 ≤ n)
  | .float _ => false
  | .string _ => true
  | .bool _ => true
  | .var name => isIdentifier name
  | .unary _ operand => operand.writable
  | .binary _ left right => left.writable && right.writable
  | .cond _ left right => left.writable && right.writable
  | .call name args => isIdentifier name && argsWritable args

def argsWritable : List Expr → Bool
  | [] => true
  | e :: es => e.writable && argsWritable es

end

mutual

def Stmt.writable : Stmt → Bool
  | .skip => true
  | .block body => stmtsWritable body
  | .declare type names => isTypeName type && !names.isEmpty && names.all isIdentifier
  | .define name params body => isIdentifier name && params.all isIdentifier && stmtsWritable body
  | .assign name value => isIdentifier name && value.writable
  | .when condition body => condition.writable && stmtsWritable body
  | .loop condition body => condition.writable && stmtsWritable body
  | .ret none => true
  | .ret (some e) => e.writable
  | .expr e => e.writable

def stmtsWritable : List Stmt → Bool
  | [] => true
  | s :: ss => s.writable && stmtsWritable ss

end

def Signature.writable (s : Signature) : Bool :=
  isIdentifier s.name && s.parameterTypes.all isTypeName && s.returnType.all isTypeName

def ModuleUse.writable (m : ModuleUse) : Bool :=
  isIdentifier m.name && m.functions.all Signature.writable

/-- The types that a header names are new, so they are identifiers. -/
def Header.writable (h : Header) : Bool :=
  h.types.all isIdentifier && h.modules.all ModuleUse.writable

def Program.writable (p : Program) : Bool :=
  p.header.all Header.writable && stmtsWritable p.body

end Tremolo
