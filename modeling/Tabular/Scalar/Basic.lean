import Tabular.Number.Shortest

/-! The value of one cell when the type of its column is not known: absent, a truth value, a 64-bit
integer, a double or a text. -/

namespace Tabular

inductive Kind
  | absent
  | bool
  | int64
  | float64
  | utf8
  deriving DecidableEq, Repr

def Kind.name : Kind → String
  | .absent => "absent"
  | .bool => "bool"
  | .int64 => "int64"
  | .float64 => "float64"
  | .utf8 => "utf8"

inductive Scalar
  | absent
  | bool (b : Bool)
  | int64 (n : Int64)
  | float64 (x : Number.Binary64)
  | utf8 (s : String)
  deriving DecidableEq, Repr, Inhabited

namespace Scalar

open Number

def kind : Scalar → Kind
  | absent => .absent
  | bool _ => .bool
  | int64 _ => .int64
  | float64 _ => .float64
  | utf8 _ => .utf8

def isAbsent : Scalar → Bool
  | absent => true
  | _ => false

/-- A row is kept where its condition is true, a number other than zero or a text that is not
empty. A not-a-number keeps nothing. -/
def truthy : Scalar → Bool
  | absent => false
  | bool b => b
  | int64 n => n != 0
  | float64 x => !x.isZero && !x.isNaN
  | utf8 s => !s.isEmpty

def number? : Scalar → Option Binary64
  | int64 n => some (.ofInt n.toInt)
  | float64 x => some x
  | _ => none

/-- Equality of values, where doubles are compared as numbers. -/
def equals : Scalar → Scalar → Bool
  | absent, absent => true
  | bool a, bool b => a == b
  | int64 a, int64 b => a == b
  | float64 a, float64 b => a.numEq b
  | utf8 a, utf8 b => a == b
  | _, _ => false

def absentText : String := "NA"

def render : Scalar → String
  | absent => absentText
  | bool b => if b then "true" else "false"
  | int64 n => toString n.toInt
  | float64 x => FloatText.display.render x
  | utf8 s => s

/-- The count of rows as a scalar, which cannot be greater than the greatest integer. -/
def ofCount (n : Nat) : Scalar := int64 (Int64.ofInt (min n Int64.maxValue.toInt))

@[simp] theorem isAbsent_iff (s : Scalar) : s.isAbsent = true ↔ s = absent := by
  cases s <;> simp [isAbsent]

def rank : Scalar → Nat
  | absent => 0
  | bool _ => 1
  | int64 _ => 2
  | float64 _ => 2
  | utf8 _ => 3

/-- The order by which frames are sorted and extremes are found. A number of either kind is placed among
the doubles unless both are integers. -/
def totalCompare : Scalar → Scalar → Ordering
  | bool a, bool b => compare a b
  | int64 a, int64 b => compare a.toInt b.toInt
  | int64 a, float64 b => (Binary64.ofInt a.toInt).totalCompare b
  | float64 a, int64 b => a.totalCompare (.ofInt b.toInt)
  | float64 a, float64 b => a.totalCompare b
  | utf8 a, utf8 b => compare a b
  | a, b => compare a.rank b.rank

end Scalar

/-- The form in which a scalar is a key of a group or a join: equal keys are the same key. The zeros of
either sign are one key, and so are all not-a-numbers. -/
inductive Key
  | absent
  | bool (b : Bool)
  | int64 (n : Int64)
  | floatBits (bits : UInt64)
  | utf8 (s : String)
  deriving DecidableEq, Repr, Hashable

def Scalar.key : Scalar → Key
  | .absent => .absent
  | .bool b => .bool b
  | .int64 n => .int64 n
  | .float64 x =>
    .floatBits (if x.isNaN then Number.Binary64.nan.bits
      else if x.isZero then Number.Binary64.zero.bits
      else x.bits)
  | .utf8 s => .utf8 s

end Tabular
