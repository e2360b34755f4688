import Tabular.Cell.Kind
import Tabular.Number.Binary32
import Tabular.Scalar.Basic

/-! Elements of a column of known type, and their passage to and from scalars. -/

namespace Tabular

open Number

abbrev IntWidth.Value (w : IntWidth) : Type := { n : Int // w.lowest ≤ n ∧ n ≤ w.highest }

def IntWidth.ofInt? (w : IntWidth) (n : Int) : Option w.Value :=
  if h : w.lowest ≤ n ∧ n ≤ w.highest then some ⟨n, h⟩ else none

def IntWidth.zero (w : IntWidth) : w.Value := ⟨0, by cases w <;> decide⟩

abbrev Cell : CellType → Type
  | .int w => w.Value
  | .float32 => Binary32
  | .float64 => Binary64
  | .bool => Bool
  | .text => String
  | .foreign _ => UInt32
  | .missing t => Option (Cell t)

namespace Cell

def noScalarText : String := "<?>"

/-- The value that fills new places. -/
def default? : (t : CellType) → Option (Cell t)
  | .int w => some w.zero
  | .float32 => some .zero
  | .float64 => some .zero
  | .bool => some false
  | .text => some ""
  | .foreign _ => none
  | .missing _ => some none

def toScalar? : (t : CellType) → Cell t → Option Scalar
  | .int _, n => some (.int64 (Int64.ofInt n.val))
  | .float32, x => some (.float64 x.widen)
  | .float64, x => some (.float64 x)
  | .bool, b => some (.bool b)
  | .text, s => some (.utf8 s)
  | .foreign _, _ => none
  | .missing _, none => some .absent
  | .missing t, some c => toScalar? t c

/-- Integers are taken by every numeric type that holds them, doubles by the floating ones. -/
def ofScalar? : (t : CellType) → Scalar → Option (Cell t)
  | .int w, .int64 n => w.ofInt? n.toInt
  | .float32, .float64 x => some (.narrow x)
  | .float32, .int64 n => some (.ofInt n.toInt)
  | .float64, .float64 x => some x
  | .float64, .int64 n => some (.ofInt n.toInt)
  | .bool, .bool b => some b
  | .text, .utf8 s => some s
  | .missing _, .absent => some none
  | .missing t, s => (ofScalar? t s).map some
  | _, _ => none

def render (t : CellType) (c : Cell t) : String :=
  match toScalar? t c with
  | some s => s.render
  | none => noScalarText

/-- The order of elements, in which a not-a-number has no place and absence comes first. -/
def compare? : (t : CellType) → Cell t → Cell t → Option Ordering
  | .int _, a, b => some (compare a.val b.val)
  | .float32, a, b => Binary32.compare? a b
  | .float64, a, b => Binary64.compare? a b
  | .bool, a, b => some (compare a b)
  | .text, a, b => some (compare a b)
  | .foreign _, a, b => some (compare a b)
  | .missing _, none, none => some .eq
  | .missing _, none, some _ => some .lt
  | .missing _, some _, none => some .gt
  | .missing t, some a, some b => compare? t a b

/-- Equality of elements: doubles are compared as numbers, so that nothing equals a
not-a-number. -/
def equals (t : CellType) (a b : Cell t) : Bool := compare? t a b == some .eq

end Cell

inductive NumericType
  | int (width : IntWidth)
  | float32
  | float64
  deriving DecidableEq, Repr

namespace NumericType

def cellType : NumericType → CellType
  | int w => .int w
  | float32 => .float32
  | float64 => .float64

def ofCellType? : CellType → Option NumericType
  | .int w => some (int w)
  | .float32 => some float32
  | .float64 => some float64
  | _ => none

def toNumber : (t : NumericType) → Cell t.cellType → Binary64
  | int _, n => .ofInt n.val
  | float32, x => x.widen
  | float64, x => x

end NumericType

end Tabular
