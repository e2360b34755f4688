/-! The operators of expressions, by what they ask of their operands. -/

namespace Tabular

inductive UnaryOp
  | neg
  | not
  deriving DecidableEq, Repr

def UnaryOp.symbol : UnaryOp → String
  | .neg => "-"
  | .not => "!"

inductive Arithmetic
  | add
  | sub
  | mul
  | div
  | rem
  deriving DecidableEq, Repr

inductive Comparison
  | gt
  | ge
  | lt
  | le
  | eq
  | ne
  deriving DecidableEq, Repr

inductive Connective
  | and
  | or
  deriving DecidableEq, Repr

inductive BinaryOp
  | arithmetic (op : Arithmetic)
  | comparison (op : Comparison)
  | connective (op : Connective)
  deriving DecidableEq, Repr

namespace BinaryOp

def symbol : BinaryOp → String
  | arithmetic .add => "+"
  | arithmetic .sub => "-"
  | arithmetic .mul => "*"
  | arithmetic .div => "/"
  | arithmetic .rem => "%"
  | comparison .gt => ">"
  | comparison .ge => ">="
  | comparison .lt => "<"
  | comparison .le => "<="
  | comparison .eq => "=="
  | comparison .ne => "!="
  | connective .and => "&&"
  | connective .or => "||"

def isComparison : BinaryOp → Bool
  | comparison _ => true
  | _ => false

end BinaryOp

/-- Whether a comparison holds of two values in this order; two values in no order are unequal. -/
def Comparison.holds : Comparison → Option Ordering → Bool
  | gt, o => o == some .gt
  | ge, o => o == some .gt || o == some .eq
  | lt, o => o == some .lt
  | le, o => o == some .lt || o == some .eq
  | eq, o => o == some .eq
  | ne, o => o != some .eq

end Tabular
