import Tabular.Cell.Kind
import Tabular.Scalar.Basic
import Tabular.Scalar.Operator

/-! What can go wrong, one constructor for each cause, and the wording of each. -/

namespace Tabular

inductive Error
  /-- A binary operator has no meaning for operands of these kinds. -/
  | incompatibleOperands (op : BinaryOp) (left right : Kind)
  /-- A unary operator has no meaning for an operand of this kind. -/
  | incompatibleOperand (op : UnaryOp) (operand : Kind)
  | divisionByZero
  | notNumeric (kind : Kind)
  | indexOutOfRange (index length : Nat)
  /-- A place was to be filled and the element type has no default. -/
  | noDefault (type : CellType)
  /-- The extremes of no elements at all were asked for. -/
  | noExtremes (type : CellType)
  /-- An element was to be read as a scalar and its type has no scalar form. -/
  | noScalarForm (type : CellType)
  | reversedRange (first last : Nat)
  | reversedRowRange (first last : Nat)
  /-- A scalar of this kind and value is no element of the column. -/
  | cannotHold (column : CellType) (found : Kind)
  /-- Elements were to be copied between columns of different types. -/
  | foreignElements (column found : CellType)
  /-- No type holds the scalars of both kinds. -/
  | mixedKinds (column found : Kind)
  | lengthMismatch (left right : Nat)
  | inconsistentSizes (column : Nat) (name : String) (expected found : Nat)
  | columnOutOfRange (index width : Nat)
  | wrongColumnType (index : Nat) (expected found : CellType)
  | rowTooWide (width found : Nat)
  | widthMismatch (left right : Nat)
  | malformedWindow (first current last : Nat)
  /-- A function of the expression's author refused its arguments. -/
  | functionFailed (name message : String)
  /-- A group index was used with a frame that changed after the index was built. -/
  | staleIndex (indexed current : Nat)
  | noKeys
  | missingRightFrame (caseId : String)
  /-- A text is not the JSON of what was to be read from it. -/
  | malformedJson
  deriving DecidableEq, Repr

namespace Error

private def operatorMessage (symbol operands : String) : String :=
  "operator " ++ symbol ++ " is not defined for " ++ operands

def message : Error → String
  | incompatibleOperands op l r => operatorMessage op.symbol (l.name ++ " and " ++ r.name)
  | incompatibleOperand op k => operatorMessage op.symbol k.name
  | divisionByZero => "integer division by zero"
  | notNumeric k => s!"value of dtype {k.name} is not numeric"
  | indexOutOfRange i n => s!"index {i} out of range for length {n}"
  | noDefault t => s!"element type {t.name} has no default value"
  | noExtremes t => s!"minmax of an empty column of {t.name}, which has no default value"
  | noScalarForm t => s!"element type {t.name} has no scalar projection"
  | reversedRange first last => s!"invalid argument: range end {last} precedes start {first}"
  | reversedRowRange first last => s!"invalid argument: row range end {last} precedes start {first}"
  | cannotHold t k => s!"column of {t.name} cannot hold {k.name}"
  | foreignElements t u => s!"column of {t.name} cannot hold {u.name}"
  | mixedKinds k found => s!"column of {k.name} cannot hold {found.name}"
  | lengthMismatch l r => s!"column length mismatch: left={l}, right={r}"
  | inconsistentSizes i name expected found =>
    s!"inconsistent column sizes: column {i} ({name}) has {found} rows, expected {expected}"
  | columnOutOfRange i w => s!"column position {i} out of range for width {w}"
  | wrongColumnType i expected found => s!"column {i} holds {found.name}, not {expected.name}"
  | rowTooWide w found => s!"row has {found} values but the frame has {w} columns"
  | widthMismatch l r => s!"frame widths differ: {l} vs {r}"
  | malformedWindow first current last =>
    s!"row window begin={first} current={current} end={last} is malformed"
  | functionFailed name text => s!"function {name} failed: {text}"
  | staleIndex indexed current =>
    s!"group index was built at frame version {indexed}; the frame is now at {current}"
  | noKeys => "grouping needs at least one key column"
  | missingRightFrame id => s!"case {id} needs a right-hand frame"
  | malformedJson => "malformed JSON"

end Error

end Tabular
