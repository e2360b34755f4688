import Tabular.Json.Basic

/-! Numerals of JSON and the numbers they stand for. An integer that fits a word is one; everything
else is a double, made from the leading digits by multiplication with a power of ten. -/

namespace Tabular.Json

open Number

/-- A numeral by its parts, as lists of digits. -/
structure Literal where
  negative : Bool
  whole : List Nat
  fraction? : Option (List Nat)
  exponent? : Option (Bool × List Nat)
  deriving DecidableEq, Repr

namespace Literal

def wordLimit : Nat := UInt64.size - 1

/-- Extend a significand by digits as long as it fits a word, and count them. -/
def takeDigits (significand : Nat) : List Nat → Nat × Nat
  | [] => (significand, 0)
  | d :: ds =>
    if significand * 10 + d ≤ wordLimit then
      let (s, n) := takeDigits (significand * 10 + d) ds
      (s, n + 1)
    else (significand, 0)

def powerOfTen (n : Nat) : Binary64 := .ofParts false (Format.double.encode (Nat.pow 10 n) 0)

def maxPower : Nat := 308

def finite? (x : Binary64) : Option Binary64 := if x.isFinite then some x else none

/-- `x * 10 ^ e` in as many steps as there are powers of ten needed for it, each rounded. There is
no result that is too great; a quotient never is. -/
def scale (x : Binary64) (e : Int) : Option Binary64 :=
  if e.natAbs ≤ maxPower then
    finite? (if 0 ≤ e then x.mul (powerOfTen e.natAbs) else x.div (powerOfTen e.natAbs))
  else if x.isZero then some x
  else if 0 ≤ e then none
  else scale (x.div (powerOfTen maxPower)) (e + maxPower)
termination_by e.natAbs
decreasing_by
  have : maxPower = 308 := rfl
  omega

def digitsValue (digits : List Nat) : Nat := digits.foldl (fun n d => n * 10 + d) 0

/-- Exponents from here on are as good as infinite. -/
def exponentLimit : Nat := 0x80000000

def sign (l : Literal) (x : Binary64) : Binary64 := if l.negative then x.neg else x

def toFloat? (l : Literal) (significand : Nat) (exponent : Int) : Option Binary64 :=
  (scale (.ofInt significand) exponent).map l.sign

def scaled? (l : Literal) (significand : Nat) (exponent : Int) : Option Binary64 :=
  match l.exponent? with
  | none => l.toFloat? significand exponent
  | some (negative, digits) =>
    let e := digitsValue digits
    if exponentLimit ≤ e then
      if significand ≠ 0 ∧ ¬negative then none else some (l.sign .zero)
    else l.toFloat? significand (if negative then exponent - e else exponent + e)

/-- The number a numeral stands for. Minus zero is a double. -/
def toJson (l : Literal) : Json :=
  let (s, taken) := takeDigits 0 l.whole
  let dropped := l.whole.length - taken
  if l.fraction? = none ∧ l.exponent? = none ∧ dropped = 0 then
    if ¬l.negative then .int s
    else if s = 0 ∨ -(s : Int) < Int64.minValue.toInt then .float (Binary64.ofInt s).neg
    else .int (-s)
  else
    let (s, after) := takeDigits s (l.fraction?.getD [])
    match l.scaled? s (dropped - after) with
    | some x => .float x
    | none => .unreadable

end Literal

end Tabular.Json
