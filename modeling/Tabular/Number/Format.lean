/-! Interchange formats of binary floating point: what a magnitude word stands for, and the word
nearest to an exact `m * 2 ^ e`, ties going to the even word. A magnitude is the word without its
sign bit, so that magnitudes of finite numbers are ordered as the numbers are. -/

namespace Tabular.Number

/-- The quotient of two naturals rounded to the nearest, a tie going to the even neighbour. -/
def roundDiv (n d : Nat) : Nat :=
  let q := n / d
  let r := n % d
  if d < 2 * r ∨ (2 * r = d ∧ q % 2 = 1) then q + 1 else q

structure Format where
  fractionBits : Nat
  exponentBits : Nat
  deriving DecidableEq, Repr

namespace Format

def double : Format := ⟨52, 11⟩

def single : Format := ⟨23, 8⟩

def signWeight (f : Format) : Nat := 1 <<< (f.fractionBits + f.exponentBits)

/-- The exponent of the last place of the smallest numbers. -/
def minExponent (f : Format) : Int :=
  2 - ((1 <<< (f.exponentBits - 1) : Nat) : Int) - f.fractionBits

/-- The magnitude word of infinity; greater words are not numbers. -/
def infinity (f : Format) : Nat := ((1 <<< f.exponentBits) - 1) <<< f.fractionBits

def quiet (f : Format) : Nat := f.infinity + (1 <<< (f.fractionBits - 1))

/-- A finite magnitude word stands for `significand * 2 ^ exponent`. -/
structure Exact where
  significand : Nat
  exponent : Int
  deriving DecidableEq, Repr

def decode (f : Format) (word : Nat) : Exact :=
  let field := word >>> f.fractionBits
  let fraction := word % (1 <<< f.fractionBits)
  if field = 0 then ⟨fraction, f.minExponent⟩
  else ⟨(1 <<< f.fractionBits) + fraction, f.minExponent + field - 1⟩

/-- The magnitude word nearest to `m * 2 ^ e`. The exponent of the last place is chosen so that
the significand has at most one bit more than the fraction; a significand that rounds up to the
next power of two carries into the exponent field by itself. -/
def encode (f : Format) (m : Nat) (e : Int) : Nat :=
  if m = 0 then 0
  else
    let place := max f.minExponent (m.log2 + e - f.fractionBits)
    let significand :=
      if place ≤ e then m <<< (e - place).toNat else roundDiv m (1 <<< (place - e).toNat)
    min f.infinity (((place - f.minExponent).toNat <<< f.fractionBits) + significand)

def remainder (f : Format) (x y : Nat) : Nat :=
  let a := f.decode x
  let b := f.decode y
  let e := min a.exponent b.exponent
  f.encode ((a.significand <<< (a.exponent - e).toNat) %
    (b.significand <<< (b.exponent - e).toNat)) e

/-- Carry a magnitude over to another format. Numbers are rounded; of a not-a-number the leading
bits of the payload are kept and the result is quiet. -/
def convert (source target : Format) (word : Nat) : Nat :=
  if word < source.infinity then
    let x := source.decode word
    target.encode x.significand x.exponent
  else if word = source.infinity then target.infinity
  else
    let payload := word % (1 <<< (source.fractionBits - 1))
    let kept := if source.fractionBits ≤ target.fractionBits
      then payload <<< (target.fractionBits - source.fractionBits)
      else payload >>> (source.fractionBits - target.fractionBits)
    target.quiet + kept

theorem encode_zero (f : Format) (e : Int) : f.encode 0 e = 0 := rfl

theorem encode_le_infinity (f : Format) (m : Nat) (e : Int) : f.encode m e ≤ f.infinity := by
  unfold encode
  split
  · exact Nat.zero_le _
  · exact Nat.min_le_left _ _

end Format

end Tabular.Number
