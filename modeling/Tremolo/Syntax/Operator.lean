/-! # Operators -/

namespace Tremolo

/-- The signs in front of an operand. -/
inductive UnaryOp where
  | plus
  | neg
deriving DecidableEq

inductive BinaryOp where
  | add
  | sub
  | mul
  | div
deriving DecidableEq

/-- Comparisons and the two connectives. -/
inductive CondOp where
  | eq
  | ne
  | lt
  | gt
  | le
  | ge
  | and
  | or
deriving DecidableEq

def UnaryOp.text : UnaryOp → String
  | plus => "unary +"
  | neg => "unary -"

def BinaryOp.text : BinaryOp → String
  | add => "+"
  | sub => "-"
  | mul => "*"
  | div => "/"

def CondOp.text : CondOp → String
  | eq => "=="
  | ne => "!="
  | lt => "<"
  | gt => ">"
  | le => "<="
  | ge => ">="
  | and => "and"
  | or => "or"

end Tremolo
