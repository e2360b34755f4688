import Tabular.Column.Inference
import Tabular.Expr.Basic
import Tabular.Frame.Rows

/-! Columns computed from others, and rows kept and rows removed by a condition. A new frame gathers the
rows to keep; a frame changed in place loses the others run by run, from the last run to the first, so
that the rows still to be looked at stay where they are. -/

namespace Tabular

inductive Placement
  | append
  | prepend
  deriving DecidableEq, Repr

/-- For each row whether the condition holds there. -/
def Expr.mask (condition : Expr) (f : Frame) : Except Error (List Bool) := do
  return (← condition.apply f).map Scalar.truthy

namespace Frame

def place (f : Frame) (c : Column) : Placement → Outcome Frame Unit
  | .append => f.addColumn c
  | .prepend => f.prependColumn c

def deriveWith (f : Frame) (make : List Scalar → Except Error Column) (e : Expr)
    (placement : Placement) : Outcome Frame Unit :=
  match (e.apply f).bind make with
  | .ok c => f.place c placement
  | .error err => (.error err, f)

def derive (f : Frame) (name : String) (e : Expr) (placement : Placement) : Outcome Frame Unit :=
  f.deriveWith (Column.infer name) e placement

def deriveAs (f : Frame) (t : CellType) (name : String) (e : Expr) (placement : Placement) :
    Outcome Frame Unit :=
  f.deriveWith (Column.ofScalars t name) e placement

def keptRows (mask : List Bool) : List Nat :=
  (mask.zipIdx.filter Prod.fst).map Prod.snd

def filter (f : Frame) (condition : Expr) : Except Error Frame := do
  f.takeRows (keptRows (← condition.mask f))

/-- The start of the run of rows not kept that ends at a row. -/
def runStart (mask : List Bool) : Nat → Nat
  | 0 => 0
  | n + 1 => if mask[n]? = some true then n + 1 else runStart mask n

theorem runStart_le (mask : List Bool) (n : Nat) : runStart mask n ≤ n := by
  induction n with
  | zero => exact Nat.le_refl 0
  | succ n ih =>
    unfold runStart
    split
    · exact Nat.le_refl _
    · exact Nat.le_succ_of_le ih

/-- Remove the rows before `last` that are not kept, and count them. -/
def removeRuns (f : Frame) (mask : List Bool) (last : Nat) : Outcome Frame Nat :=
  match last with
  | 0 => (.ok 0, f)
  | n + 1 =>
    if mask[n]? = some true then f.removeRuns mask n
    else
      let start := runStart mask n
      have : start < n + 1 := Nat.lt_succ_of_le (runStart_le mask n)
      match f.eraseRows start (n + 1) with
      | (.error e, f) => (.error e, f)
      | (.ok count, f) =>
        let (answer, f) := f.removeRuns mask start
        (answer.map (count + ·), f)
termination_by last

def retain (f : Frame) (condition : Expr) : Outcome Frame Nat :=
  match condition.mask f with
  | .ok mask => f.removeRuns mask mask.length
  | .error e => (.error e, f)

end Frame

end Tabular
