import Tabular.Series.Basic

/-! Sums over numeric series. Long sums of doubles are split over eight lanes, which fixes the order
of their additions. The kernel is stated for any addition and for any way to come by a term, so that
it can be seen to take every term once. -/

namespace Tabular

open Number

structure Summing (α : Type) where
  add : α → α → α
  start : α
  laneStart : α

namespace Summing

variable {α : Type} (s : Summing α)

def plain (terms : List α) : α := terms.foldl s.add s.start

def lanes : Nat := 8

section Terms

-- To ask for a term can have an effect of its own, such as to fail.
variable {m : Type → Type} [Monad m]

def plainOver (places : List Nat) (term : Nat → m α) : m α :=
  places.foldlM (fun total i => return s.add total (← term i)) s.start

def addBlock (base : Nat) (acc : Vector α lanes) (term : Nat → m α) : m (Vector α lanes) :=
  (List.finRange lanes).foldlM
    (fun acc (lane : Fin lanes) => return acc.set lane (s.add acc[lane] (← term (base + lane)))) acc

def addBlocks (full base : Nat) (acc : Vector α lanes) (term : Nat → m α) : m (Vector α lanes) :=
  if base < full then do
    addBlocks full (base + lanes) (← s.addBlock base acc term) term
  else return acc
termination_by full - base
decreasing_by exact Nat.sub_lt_sub_left ‹base < full› (Nat.lt_add_of_pos_right (by decide))

/-- Full blocks go to the lanes and the remaining terms into a sum of their own. -/
def laneSum (len : Nat) (term : Nat → m α) : m α := do
  let full := len - len % lanes
  let acc ← s.addBlocks full 0 (.replicate lanes s.laneStart) term
  let tail ← s.plainOver (List.range' full (len - full)) term
  return s.add (s.plain acc.toList) tail

def sum (split : Bool) (len : Nat) (term : Nat → m α) : m α :=
  if split then s.laneSum len term else s.plainOver (List.range len) term

end Terms

end Summing

/-- Addition of doubles. The neutral start is minus zero; the lanes start at zero. -/
def Summing.doubles : Summing Binary64 := ⟨Binary64.add, .negZero, .zero⟩

def NumericType.splits : NumericType → Bool
  | int _ => false
  | float32 => true
  | float64 => true

/-- The numbers of a numeric series. -/
structure Numbers where
  type : NumericType
  values : List (Cell type.cellType)

namespace Numbers

def length (ns : Numbers) : Nat := ns.values.length

def number? (ns : Numbers) (i : Nat) : Option Binary64 := ns.values[i]?.map ns.type.toNumber

def total (split : Bool) (len : Nat) (term : Nat → Option Binary64) : Binary64 :=
  (Summing.doubles.sum split len term).getD .nan

def sum (ns : Numbers) : Binary64 := total ns.type.splits ns.length ns.number?

private def average (total : Binary64) (n : Nat) : Binary64 := total.div (.ofInt n)

/-- The mean, which of no numbers is no number. -/
def mean (ns : Numbers) : Binary64 :=
  if ns.values.isEmpty then .nan else average ns.sum ns.length

private def square (x : Binary64) : Binary64 := x.mul x

def stddev (ns : Numbers) : Binary64 :=
  if ns.values.isEmpty then .nan
  else
    let mean := ns.mean
    let squares := total ns.type.splits ns.length fun i => return square ((← ns.number? i).sub mean)
    (average squares ns.length).sqrt

def correlate (xs ys : Numbers) : Except Error Binary64 :=
  if xs.length ≠ ys.length then .error (.lengthMismatch xs.length ys.length)
  else if xs.values.isEmpty then .ok .nan
  else
    let split := xs.type.splits && ys.type.splits
    let mx := xs.mean
    let my := ys.mean
    let covariance := total split xs.length fun i =>
      return ((← xs.number? i).sub mx).mul ((← ys.number? i).sub my)
    let vx := total split xs.length fun i => return square ((← xs.number? i).sub mx)
    let vy := total split ys.length fun i => return square ((← ys.number? i).sub my)
    .ok (covariance.div (vx.mul vy).sqrt)

end Numbers

end Tabular
