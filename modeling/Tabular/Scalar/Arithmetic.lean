import Tabular.Error

/-! The meaning of the operators on scalars. Arithmetic and connectives of an absent value are
absent; a comparison takes an absent value as smaller than all others and equal to itself. -/

namespace Tabular

open Number

namespace Scalar

def toNumber (s : Scalar) : Except Error Binary64 :=
  match s.number? with
  | some x => .ok x
  | none => .error (.notNumeric s.kind)

/-- How two scalars compare: `none` if their kinds do not, `some none` if they do and a
not-a-number leaves them without order. -/
def relate : Scalar → Scalar → Option (Option Ordering)
  | absent, absent => some (some .eq)
  | absent, _ => some (some .lt)
  | _, absent => some (some .gt)
  | bool a, bool b => some (some (compare a b))
  | int64 a, int64 b => some (some (compare a.toInt b.toInt))
  | int64 a, float64 b => some ((Binary64.ofInt a.toInt).compare? b)
  | float64 a, int64 b => some (a.compare? (.ofInt b.toInt))
  | float64 a, float64 b => some (a.compare? b)
  | utf8 a, utf8 b => some (some (compare a b))
  | _, _ => none

end Scalar

/-- Integers wrap at 64 bits and quotients are truncated. -/
def Arithmetic.onInts : Arithmetic → Int64 → Int64 → Except Error Int64
  | add, a, b => .ok (a + b)
  | sub, a, b => .ok (a - b)
  | mul, a, b => .ok (a * b)
  | div, a, b => if b = 0 then .error .divisionByZero else .ok (a / b)
  | rem, a, b => if b = 0 then .error .divisionByZero else .ok (a % b)

def Arithmetic.onNumbers : Arithmetic → Binary64 → Binary64 → Binary64
  | add, a, b => a.add b
  | sub, a, b => a.sub b
  | mul, a, b => a.mul b
  | div, a, b => a.div b
  | rem, a, b => a.rem b

/-- Two integers give an integer, an integer and a double a double, and two texts can be added. -/
def Arithmetic.apply (op : Arithmetic) : Scalar → Scalar → Except Error Scalar
  | .absent, _ => .ok .absent
  | _, .absent => .ok .absent
  | .int64 a, .int64 b => (op.onInts a b).map .int64
  | .int64 a, .float64 b => .ok (.float64 (op.onNumbers (.ofInt a.toInt) b))
  | .float64 a, .int64 b => .ok (.float64 (op.onNumbers a (.ofInt b.toInt)))
  | .float64 a, .float64 b => .ok (.float64 (op.onNumbers a b))
  | .utf8 a, .utf8 b =>
    if op = .add then .ok (.utf8 (a ++ b))
    else .error (.incompatibleOperands (.arithmetic op) .utf8 .utf8)
  | l, r => .error (.incompatibleOperands (.arithmetic op) l.kind r.kind)

def Connective.apply (op : Connective) : Scalar → Scalar → Except Error Scalar
  | .absent, _ => .ok .absent
  | _, .absent => .ok .absent
  | .bool a, .bool b =>
    .ok (.bool (match op with
      | .and => a && b
      | .or => a || b))
  | l, r => .error (.incompatibleOperands (.connective op) l.kind r.kind)

def Comparison.apply (op : Comparison) (l r : Scalar) : Except Error Scalar :=
  match l.relate r with
  | some o => .ok (.bool (op.holds o))
  | none => .error (.incompatibleOperands (.comparison op) l.kind r.kind)

def BinaryOp.apply : BinaryOp → Scalar → Scalar → Except Error Scalar
  | arithmetic op, l, r => op.apply l r
  | comparison op, l, r => op.apply l r
  | connective op, l, r => op.apply l r

def UnaryOp.apply : UnaryOp → Scalar → Except Error Scalar
  | _, .absent => .ok .absent
  | neg, .int64 n => .ok (.int64 (-n))
  | neg, .float64 x => .ok (.float64 x.neg)
  | not, .bool b => .ok (.bool !b)
  | op, s => .error (.incompatibleOperand op s.kind)

end Tabular
