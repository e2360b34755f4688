import Tabular.Number.Binary64

/-! The shortest decimal that reads back as a given double. An exact double is an integer number of
small decimal units, and so are the ends of the interval of reals that round to it; the search walks
down the decimal grids from the coarsest, and the first grid with a point in the interval wins. -/

namespace Tabular.Number

structure Decimal where
  digits : Nat
  exponent : Int
  deriving DecidableEq, Repr

namespace Decimal

def digitCount (n : Nat) : Nat := (Nat.toDigits 10 n).length

/-- An interval of naturals around a value, with or without its ends. -/
structure Interval where
  low : Nat
  value : Nat
  high : Nat
  closed : Bool
  deriving DecidableEq, Repr

def Interval.holds (i : Interval) (n : Nat) : Bool :=
  if i.closed then i.low ≤ n && n ≤ i.high else i.low < n && n < i.high

/-- Of the value's two neighbours on the grid of multiples of `step`, the one in the interval, or
the nearer if both are, the upper one if they are equally near. -/
def Interval.neighbour? (i : Interval) (step : Nat) : Option Nat :=
  let q := i.value / step
  let below := i.holds (q * step)
  let above := i.holds ((q + 1) * step)
  if below && above then
    some (if i.value - q * step < (q + 1) * step - i.value then q else q + 1)
  else if below then some q
  else if above then some (q + 1)
  else none

/-- The multiple of the coarsest power of ten, at most `10 ^ j`, that lies in the interval. The
value itself is a multiple of one, so the search ends. -/
def Interval.coarsest (i : Interval) : Nat → Nat × Nat
  | 0 => (i.value, 0)
  | j + 1 =>
    match i.neighbour? (Nat.pow 10 (j + 1)) with
    | some q => (q, j + 1)
    | none => i.coarsest j

/-- The reals that round to a finite magnitude word of the double format, in units of
`10 ^ exponent`. Below a power of two the gap to the next number is half as wide. -/
def roundingInterval (word : Nat) : Interval × Int :=
  let x := Format.double.decode word
  let m := x.significand
  let narrowBelow : Bool := m = 1 <<< Format.double.fractionBits ∧ x.exponent ≠ Format.double.minExponent
  let q := x.exponent - 2
  let unit := if 0 ≤ q then 1 <<< q.toNat else Nat.pow 5 (-q).toNat
  ({ low := (4 * m - (if narrowBelow then 1 else 2)) * unit
     value := 4 * m * unit
     high := (4 * m + 2) * unit
     closed := m % 2 = 0 },
   min q 0)

/-- Trailing zeros move into the exponent; the fuel is the number of digits. -/
def trim : (fuel : Nat) → Decimal → Decimal
  | 0, d => d
  | fuel + 1, d =>
    if d.digits ≠ 0 ∧ d.digits % 10 = 0 then trim fuel ⟨d.digits / 10, d.exponent + 1⟩ else d

/-- The fewest digits that read back as the double with this finite, nonzero magnitude word, and of
these the nearest. -/
def shortest (word : Nat) : Decimal :=
  let (interval, exponent) := roundingInterval word
  let (digits, zeros) := interval.coarsest (digitCount interval.value)
  trim (digitCount digits) ⟨digits, exponent + zeros⟩

end Decimal

structure FloatText where
  /-- A whole number is followed by this. -/
  wholeMark : String
  /-- Numbers whose point stands at least this far before the first digit have an exponent. -/
  leadingZeros? : Option Nat
  /-- Numbers with more digits than this before the point have an exponent. -/
  wholeDigits? : Option Nat

namespace FloatText

def display : FloatText := ⟨"", none, none⟩

/-- In the text of a structure a float always shows that it is one; below 0.0001 and from
10000000000000000 on it is written with an exponent. -/
def structural : FloatText := ⟨".0", some 4, some 16⟩

def zeros (n : Nat) : String := String.ofList (List.replicate n '0')

/-- Digits with the point before the digit of index `point`, which may lie outside them. -/
def positional (t : FloatText) (digits : List Char) (point : Int) : String :=
  if point ≤ 0 then "0." ++ zeros (-point).toNat ++ String.ofList digits
  else
    let n := point.toNat
    if digits.length ≤ n then String.ofList digits ++ zeros (n - digits.length) ++ t.wholeMark
    else String.ofList (digits.take n) ++ "." ++ String.ofList (digits.drop n)

def exponential (digits : List Char) (point : Int) : String :=
  let fraction := digits.drop 1
  String.ofList (digits.take 1) ++ (if fraction.isEmpty then "" else "." ++ String.ofList fraction)
    ++ "e" ++ toString (point - 1)

def magnitude (t : FloatText) (word : Nat) : String :=
  if word = 0 then "0" ++ t.wholeMark
  else
    let d := Decimal.shortest word
    let digits := Nat.toDigits 10 d.digits
    let point := d.exponent + digits.length
    let small := t.leadingZeros?.any fun n => decide (point ≤ -(n : Int))
    let large := t.wholeDigits?.any fun n => decide ((n : Int) < point)
    if small || large then exponential digits point else t.positional digits point

def render (t : FloatText) (x : Binary64) : String :=
  if x.isNaN then "NaN"
  else (if x.negative then "-" else "") ++
    (if x.isInfinite then "inf" else t.magnitude x.magnitude)

end FloatText

end Tabular.Number
