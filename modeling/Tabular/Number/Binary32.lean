import Tabular.Number.Binary64

/-! Single-precision numbers as words, with the conversions to and from double precision. -/

namespace Tabular.Number

structure Binary32 where
  bits : UInt32
  deriving DecidableEq, Repr, Inhabited

namespace Binary32

def toFloat (x : Binary32) : Float32 := Float32.ofBits x.bits

def ofFloat (x : Float32) : Binary32 := ⟨x.toBits⟩

def ofParts (negative : Bool) (magnitude : Nat) : Binary32 :=
  ⟨UInt32.ofNat ((if negative then Format.single.signWeight else 0) + magnitude)⟩

def negative (x : Binary32) : Bool := Format.single.signWeight ≤ x.bits.toNat

def magnitude (x : Binary32) : Nat := x.bits.toNat % Format.single.signWeight

def zero : Binary32 := ⟨0⟩

def widen (x : Binary32) : Binary64 :=
  .ofParts x.negative (Format.convert .single .double x.magnitude)

/-- The nearest single-precision number, infinite where the number is too large. -/
def narrow (x : Binary64) : Binary32 :=
  ofParts x.negative (Format.convert .double .single x.magnitude)

/-- The single-precision number nearest to an integer, rounded once. -/
def ofInt (n : Int) : Binary32 := ofParts (n < 0) (Format.single.encode n.natAbs 0)

def add (x y : Binary32) : Binary32 := ofFloat (x.toFloat + y.toFloat)

def sub (x y : Binary32) : Binary32 := ofFloat (x.toFloat - y.toFloat)

def mul (x y : Binary32) : Binary32 := ofFloat (x.toFloat * y.toFloat)

def div (x y : Binary32) : Binary32 := ofFloat (x.toFloat / y.toFloat)

def neg (x : Binary32) : Binary32 := ofParts (!x.negative) x.magnitude

def rem (x y : Binary32) : Binary32 := narrow (x.widen.rem y.widen)

def compare? (x y : Binary32) : Option Ordering := x.widen.compare? y.widen

end Binary32

end Tabular.Number
