import Tabular.Expr.Basic
import Tabular.Text.Quoted

/-! Expressions written out as the structures they are. -/

namespace Tabular

open Text

def Scalar.text : Scalar → String
  | absent => "Absent"
  | bool b => "Bool(" ++ (if b then "true" else "false") ++ ")"
  | int64 n => "Int64(" ++ toString n.toInt ++ ")"
  | float64 x => "Float64(" ++ Number.FloatText.structural.render x ++ ")"
  | utf8 s => "Utf8(" ++ quoted s ++ ")"

def UnaryOp.name : UnaryOp → String
  | neg => "Neg"
  | not => "Not"

def BinaryOp.name : BinaryOp → String
  | arithmetic .add => "Add"
  | arithmetic .sub => "Sub"
  | arithmetic .mul => "Mul"
  | arithmetic .div => "Div"
  | arithmetic .rem => "Rem"
  | comparison .gt => "Gt"
  | comparison .ge => "Ge"
  | comparison .lt => "Lt"
  | comparison .le => "Le"
  | comparison .eq => "Eq"
  | comparison .ne => "Ne"
  | connective .and => "And"
  | connective .or => "Or"

namespace Expr

mutual

/-- Of a call the function itself cannot be shown. -/
def text : Expr → String
  | constant value => "Constant(" ++ value.text ++ ")"
  | column index offset =>
    record "Column" [("index", toString index), ("offset", toString offset)] false
  | unary op operand => record "Unary" [("op", op.name), ("expr", operand.text)] false
  | binary op left right =>
    record "Binary" [("op", op.name), ("left", left.text), ("right", right.text)] false
  | call name _ arguments =>
    record "Func" [("name", quoted name), ("args", bracketed (textAll arguments))] true
  | rowNumber => "RowNumber"
  | frameLength => "FrameLength"

def textAll : List Expr → List String
  | [] => []
  | e :: es => e.text :: textAll es

end

end Expr

end Tabular
