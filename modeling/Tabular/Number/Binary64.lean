import Tabular.Number.Format

/-! Double-precision numbers as words. Comparison, sign and remainder are read off the word, so
that they hold of it exactly; the rounded operations are those of the hardware. -/

namespace Tabular.Number

/-- A double-precision word. Equality of words tells zeros of different sign apart, and takes a
not-a-number as equal to itself; `Binary64.numEq` is the comparison of numbers. -/
structure Binary64 where
  bits : UInt64
  deriving DecidableEq, Repr, Inhabited

namespace Binary64

def toFloat (x : Binary64) : Float := Float.ofBits x.bits

def ofFloat (x : Float) : Binary64 := ⟨x.toBits⟩

def ofParts (negative : Bool) (magnitude : Nat) : Binary64 :=
  ⟨UInt64.ofNat ((if negative then Format.double.signWeight else 0) + magnitude)⟩

def negative (x : Binary64) : Bool := Format.double.signWeight ≤ x.bits.toNat

def magnitude (x : Binary64) : Nat := x.bits.toNat % Format.double.signWeight

def isNaN (x : Binary64) : Bool := Format.double.infinity < x.magnitude

def isInfinite (x : Binary64) : Bool := x.magnitude = Format.double.infinity

def isFinite (x : Binary64) : Bool := x.magnitude < Format.double.infinity

def isZero (x : Binary64) : Bool := x.magnitude = 0

def zero : Binary64 := ⟨0⟩

def negZero : Binary64 := ofParts true 0

def nan : Binary64 := ofParts false Format.double.quiet

def add (x y : Binary64) : Binary64 := ofFloat (x.toFloat + y.toFloat)

def sub (x y : Binary64) : Binary64 := ofFloat (x.toFloat - y.toFloat)

def mul (x y : Binary64) : Binary64 := ofFloat (x.toFloat * y.toFloat)

def div (x y : Binary64) : Binary64 := ofFloat (x.toFloat / y.toFloat)

def sqrt (x : Binary64) : Binary64 := ofFloat x.toFloat.sqrt

def neg (x : Binary64) : Binary64 := ofParts (!x.negative) x.magnitude

/-- The remainder of truncated division: exact, with the sign of the dividend. -/
def rem (x y : Binary64) : Binary64 :=
  if x.isFinite && !y.isNaN && !y.isZero then
    if y.isInfinite then x
    else ofParts x.negative (Format.double.remainder x.magnitude y.magnitude)
  else nan

def ofInt (n : Int) : Binary64 := ofParts (n < 0) (Format.double.encode n.natAbs 0)

/-- The magnitude with its sign: orders the words of numbers as the numbers are ordered, with one
place for the two zeros. -/
def rank (x : Binary64) : Int := if x.negative then -x.magnitude else x.magnitude

/-- The order of numbers, in which a not-a-number has no place. -/
def compare? (x y : Binary64) : Option Ordering :=
  if x.isNaN || y.isNaN then none else some (compare x.rank y.rank)

def numEq (x y : Binary64) : Bool := x.compare? y == some .eq

/-- Places every word: the negative ones below the others, and below zero by falling magnitude. -/
def totalRank (x : Binary64) : Int := if x.negative then -x.magnitude - 1 else x.magnitude

/-- The total order of words: negative before positive zero, not-a-numbers beyond the infinities. -/
def totalCompare (x y : Binary64) : Ordering := compare x.totalRank y.totalRank

end Binary64

end Tabular.Number
