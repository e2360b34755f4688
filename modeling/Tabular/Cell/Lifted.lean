import Tabular.Cell.Basic
import Tabular.Scalar.Operator

/-! Operators on elements that may be missing: the result is missing as soon as an operand is. -/

namespace Tabular

open Number

namespace IntWidth

theorem count_pos (w : IntWidth) : 0 < w.count := by cases w <;> decide

/-- The integer of this width that agrees with `n` modulo the number of such integers. -/
def wrap (w : IntWidth) (n : Int) : w.Value :=
  ⟨w.lowest + (n - w.lowest) % w.count, by
    have positive : (0 : Int) < w.count := Int.natCast_pos.2 w.count_pos
    have low := Int.emod_nonneg (n - w.lowest) (Int.ne_of_gt positive)
    have high := Int.emod_lt_of_pos (n - w.lowest) positive
    unfold highest
    omega⟩

theorem wrap_val (w : IntWidth) (n : w.Value) : w.wrap n.val = n := by
  obtain ⟨n, low, high⟩ := n
  unfold highest at high
  apply Subtype.ext
  show w.lowest + (n - w.lowest) % w.count = n
  rw [Int.emod_eq_of_lt (by omega) (by omega)]
  omega

/-- An integer operation of this width. There is no quotient by zero, and none that is too great
for the width. -/
def arithmetic? (w : IntWidth) : Arithmetic → w.Value → w.Value → Option w.Value
  | .add, a, b => some (w.wrap (a.val + b.val))
  | .sub, a, b => some (w.wrap (a.val - b.val))
  | .mul, a, b => some (w.wrap (a.val * b.val))
  | .div, a, b => if b.val = 0 then none else w.ofInt? (a.val.tdiv b.val)
  | .rem, a, b =>
    if b.val = 0 ∨ w.ofInt? (a.val.tdiv b.val) = none then none else some (w.wrap (a.val.tmod b.val))

end IntWidth

namespace NumericType

def arithmetic? : (t : NumericType) → Arithmetic → Cell t.cellType → Cell t.cellType →
    Option (Cell t.cellType)
  | int w, op, a, b => w.arithmetic? op a b
  | float32, .add, a, b => some (Binary32.add a b)
  | float32, .sub, a, b => some (Binary32.sub a b)
  | float32, .mul, a, b => some (Binary32.mul a b)
  | float32, .div, a, b => some (Binary32.div a b)
  | float32, .rem, a, b => some (Binary32.rem a b)
  | float64, .add, a, b => some (Binary64.add a b)
  | float64, .sub, a, b => some (Binary64.sub a b)
  | float64, .mul, a, b => some (Binary64.mul a b)
  | float64, .div, a, b => some (Binary64.div a b)
  | float64, .rem, a, b => some (Binary64.rem a b)

def negate : (t : NumericType) → Cell t.cellType → Cell t.cellType
  | int w, a => w.wrap (-a.val)
  | float32, a => Binary32.neg a
  | float64, a => Binary64.neg a

end NumericType

abbrev Missing (t : CellType) : Type := Cell (.missing t)

namespace Missing

def zipWith {α β γ : Type} (f : α → β → γ) : Option α → Option β → Option γ
  | some a, some b => some (f a b)
  | _, _ => none

/-- The lifted operation; `none` where both operands are present and the operation on them is not
defined. -/
def arithmetic? (t : NumericType) (op : Arithmetic) (a b : Missing t.cellType) :
    Option (Missing t.cellType) :=
  match a, b with
  | some a, some b => (t.arithmetic? op a b).map some
  | _, _ => some none

def negate (t : NumericType) (a : Missing t.cellType) : Missing t.cellType := a.map t.negate

def connective : Connective → Missing .bool → Missing .bool → Missing .bool
  | .and, a, b => zipWith (· && ·) a b
  | .or, a, b => zipWith (· || ·) a b

def complement (a : Missing .bool) : Missing .bool := a.map Bool.not

end Missing

end Tabular
