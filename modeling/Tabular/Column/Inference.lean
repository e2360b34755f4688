import Tabular.Column.Basic

/-! Columns typed by the values they are to hold. Integers become doubles if any value is a double,
and the column admits missing elements if any value is absent. -/

namespace Tabular

namespace Kind

/-- The kind of column that holds values of both kinds; absent values are of no account. -/
def join? : Kind → Kind → Option Kind
  | absent, k => some k
  | k, absent => some k
  | int64, float64 => some float64
  | float64, int64 => some float64
  | a, b => if a = b then some a else none

/-- The element type that holds the values of one kind. Without a value to go by it is the
doubles. -/
def cellType : Kind → CellType
  | absent => .float64
  | bool => .bool
  | int64 => .int .i64
  | float64 => .float64
  | utf8 => .text

end Kind

namespace Column

/-- The kind of the values so far, met with one more. -/
def joinKinds (sofar : Kind) (value : Scalar) : Except Error Kind :=
  match sofar.join? value.kind with
  | some k => .ok k
  | none => .error (.mixedKinds sofar value.kind)

def inferKind (values : List Scalar) : Except Error Kind := values.foldlM joinKinds .absent

def inferType (values : List Scalar) : Except Error CellType := do
  let t := (← inferKind values).cellType
  return if values.any Scalar.isAbsent then .missing t else t

def infer (name : String) (values : List Scalar) : Except Error Column := do
  ofScalars (← inferType values) name values

end Column

end Tabular
