import Tremolo.Syntax.Operator
import Tremolo.Token.Basic
import Tremolo.Value.Basic

/-! # Errors

Everything that can go wrong between reading a script and the end of its run.  An error names its
cause; `Error.message` is the only place where causes become words. -/

namespace Tremolo

/-- What a name can be bound to. -/
inductive SymbolKind where
  | variable
  | type
  | function
  | external
deriving DecidableEq

def SymbolKind.name : SymbolKind → String
  | .variable => "variable"
  | .type => "type"
  | .function => "function"
  | .external => "external function"

/-- Why the characters of a script do not form a token. -/
inductive LexicalFault where
  | unexpectedCharacter (c : Char)
  /-- A `!` that is not followed by `=`. -/
  | loneBang
  | invalidEscape (c : Char)
  | unterminatedString
  | integerOutOfRange (digits : String)
deriving DecidableEq

/-- What the grammar asks for at some point. -/
inductive Expected where
  | token (kind : TokenKind)
  | identifier
  | typeName
  | expression
deriving DecidableEq

/-- Why a module of the header cannot be bound. -/
inductive ModuleFault where
  | noSuchModule
  | notProvided (function : String)
  | arityConflict (function : String) (provided declared : Nat)
  | unknownType (type function : String)
deriving DecidableEq

/-- Why an arithmetic operation has no result. -/
inductive ArithmeticFault where
  | divisionByZero
  | overflow (left : Int64) (op : BinaryOp) (right : Int64)
  | negationOverflow (operand : Int64)
deriving DecidableEq

inductive Error where
  | lexical (line column : Nat) (fault : LexicalFault)
  | unexpectedToken (line : Nat) (expected : Expected) (got : TokenKind)
  | unexpectedEnd
  | undefined (name : String)
  | duplicate (name : String)
  | unassigned (name : String)
  /-- A name or an operator met something of the wrong type. -/
  | typeMismatch (subject expected got : String)
  | argumentMismatch (function : String) (position : Nat) (expected : ValueType) (got : String)
  | arityMismatch (function : String) (expected got : Nat)
  | notCallable (name : String) (kind : SymbolKind)
  | returnOutsideFunction
  | moduleResolution (module : String) (fault : ModuleFault)
  | nativeFailure (function reason : String)
  | arithmetic (fault : ArithmeticFault)
deriving DecidableEq

/-- What an error is about, whatever its details are. -/
inductive ErrorKind where
  | unreadable
  | undefined
  | duplicate
  | unassigned
  | typeMismatch
  | argumentMismatch
  | arityMismatch
  | notCallable
  | returnOutsideFunction
  | moduleResolution
  | nativeFailure
  | arithmetic
deriving DecidableEq

def Error.kind : Error → ErrorKind
  | lexical .. | unexpectedToken .. | unexpectedEnd => .unreadable
  | undefined _ => .undefined
  | duplicate _ => .duplicate
  | unassigned _ => .unassigned
  | typeMismatch .. => .typeMismatch
  | argumentMismatch .. => .argumentMismatch
  | arityMismatch .. => .arityMismatch
  | notCallable .. => .notCallable
  | returnOutsideFunction => .returnOutsideFunction
  | moduleResolution .. => .moduleResolution
  | nativeFailure .. => .nativeFailure
  | arithmetic _ => .arithmetic

def LexicalFault.message : LexicalFault → String
  | unexpectedCharacter c => "Unexpected character '" ++ c.toString ++ "'"
  | loneBang => "Expected '=' after '!'"
  | invalidEscape c => "Invalid escape sequence \\" ++ c.toString
  | unterminatedString => "Unterminated string"
  | integerOutOfRange digits => "Integer literal out of range: " ++ digits

def Expected.text : Expected → String
  | token kind => kind.text
  | identifier => "identifier"
  | typeName => "type name"
  | expression => "expression"

def ModuleFault.message : ModuleFault → String
  | noSuchModule => "no such native module"
  | notProvided function => "module does not provide " ++ function
  | arityConflict function provided declared =>
    function ++ " takes " ++ Decimal.natText provided ++ " argument(s) but is declared with " ++
      Decimal.natText declared
  | unknownType type function => "unknown type " ++ type ++ " in signature of " ++ function

def ArithmeticFault.message : ArithmeticFault → String
  | divisionByZero => "division by zero"
  | overflow left op right =>
    "integer overflow in " ++ Decimal.intText left.toInt ++ " " ++ op.text ++ " " ++
      Decimal.intText right.toInt
  | negationOverflow operand => "integer overflow in -" ++ Decimal.intText operand.toInt

def Error.message : Error → String
  | lexical line column fault =>
    "Syntax error at line " ++ Decimal.natText line ++ ", column " ++ Decimal.natText column ++
      ": " ++ fault.message
  | unexpectedToken line expected got =>
    "Unexpected token at line " ++ Decimal.natText line ++ ": expected " ++ expected.text ++
      ", got " ++ got.text
  | unexpectedEnd => "Unexpected end of file"
  | undefined name => "Undefined identifier: " ++ name
  | duplicate name => "Duplicate declaration: " ++ name
  | unassigned name => "Variable used before assignment: " ++ name
  | typeMismatch subject expected got =>
    "Type mismatch for " ++ subject ++ ": expected " ++ expected ++ ", got " ++ got
  | argumentMismatch function position expected got =>
    "Argument " ++ Decimal.natText position ++ " of " ++ function ++ ": expected " ++
      expected.name ++ ", got " ++ got
  | arityMismatch function expected got =>
    function ++ " expects " ++ Decimal.natText expected ++ " argument(s), got " ++
      Decimal.natText got
  | notCallable name kind => name ++ " is not callable (bound to " ++ kind.name ++ ")"
  | returnOutsideFunction => "Return statement outside function"
  | moduleResolution module fault => "Cannot resolve module " ++ module ++ ": " ++ fault.message
  | nativeFailure function reason => "Native function " ++ function ++ " failed: " ++ reason
  | arithmetic fault => "Arithmetic error: " ++ fault.message

end Tremolo
