import Tabular.Frame.Basic
import Tabular.Scalar.Arithmetic

/-! Expressions over the rows of a frame, and their value at a row. -/

namespace Tabular

abbrev Function : Type := List Scalar → Except Error Scalar

inductive Expr
  | constant (value : Scalar)
  /-- The cell of column `index` so many rows after the current one, or before it if the offset is
  negative. -/
  | column (index : Nat) (offset : Int)
  | unary (op : UnaryOp) (operand : Expr)
  | binary (op : BinaryOp) (left right : Expr)
  | call (name : String) (function : Function) (arguments : List Expr)
  /-- The number of rows of the window before the current one. -/
  | rowNumber
  /-- The number of rows of the window. -/
  | frameLength

/-- The rows an expression can see, from `first` up to `last`, and the one it stands at. -/
structure Window where
  first : Nat
  current : Nat
  last : Nat
  first_le : first ≤ current
  lt_last : current < last

namespace Window

def of (first current last : Nat) : Except Error Window :=
  if h : first ≤ current ∧ current < last then .ok ⟨first, current, last, h.1, h.2⟩
  else .error (.malformedWindow first current last)

/-- The row at an offset from the current one, if the window has it. -/
def target? (w : Window) (offset : Int) : Option Nat :=
  let target := w.current + offset
  if w.first ≤ target ∧ target < w.last then some target.toNat else none

end Window

/-- What a column yields beyond the ends of the window. -/
def Column.beyond (c : Column) : Scalar :=
  if c.type.allowsMissing then .absent else c.default?.getD .absent

namespace Expr

/-- Offsets fit into 64 bits; a lag or lead that does not is as far as offsets go. -/
def col (index : Nat) : Expr := column index 0

def lag (index n : Nat) : Expr := column index (if n ≤ Int64.maxValue.toInt then -n else Int64.minValue.toInt)

def lead (index n : Nat) : Expr := column index (min n Int64.maxValue.toInt)

def readColumn (f : Frame) (w : Window) (index : Nat) (offset : Int) : Except Error Scalar := do
  let c ← f.column index
  match w.target? offset with
  | some row => c.scalarAt row
  | none => return c.beyond

mutual

/-- Operands and arguments are evaluated from left to right, and the first failure ends it. -/
def evaluate (f : Frame) (w : Window) : Expr → Except Error Scalar
  | constant value => .ok value
  | column index offset => readColumn f w index offset
  | unary op operand => do op.apply (← evaluate f w operand)
  | binary op left right => do
    let l ← evaluate f w left
    let r ← evaluate f w right
    op.apply l r
  | call _ function arguments => do function (← evaluateAll f w arguments)
  | rowNumber => .ok (.ofCount (w.current - w.first))
  | frameLength => .ok (.ofCount (w.last - w.first))

def evaluateAll (f : Frame) (w : Window) : List Expr → Except Error (List Scalar)
  | [] => .ok []
  | e :: es => do
    let value ← evaluate f w e
    let values ← evaluateAll f w es
    return value :: values

end

/-- The values at the rows from `first` up to `last`, which see only each other. -/
def evaluateRange (e : Expr) (f : Frame) (first last : Nat) : Except Error (List Scalar) := do
  let rows ← f.size
  if last < first ∨ rows < last then throw (.malformedWindow first first last)
  (List.range' first (last - first)).mapM fun current => do
    evaluate f (← Window.of first current last) e

def apply (e : Expr) (f : Frame) : Except Error (List Scalar) := do
  e.evaluateRange f 0 (← f.size)

end Expr

end Tabular
