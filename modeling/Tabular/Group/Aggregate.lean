import Tabular.Column.Inference
import Tabular.Group.Index
import Tabular.Scalar.Arithmetic
import Tabular.Series.Reduction

/-! One row for every key: the key's cells, and what the rows of the key come to. -/

namespace Tabular

open Number

inductive Fold
  | sum
  | min
  | max
  | mean
  | stddev
  deriving DecidableEq, Repr

namespace Fold

def name : Fold → String
  | sum => "sum"
  | min => "min"
  | max => "max"
  | mean => "mean"
  | stddev => "stddev"

/-- The sum by the lifted addition, so that integers stay integers and an absent cell leaves the sum
absent. -/
def total : List Scalar → Except Error Scalar
  | [] => .ok .absent
  | first :: rest => rest.foldlM (Arithmetic.add.apply · ·) first

/-- The first cell that no later one surpasses, which is to stand in the order `wanted` to it. -/
def extreme (wanted : Ordering) : List Scalar → Scalar
  | [] => .absent
  | first :: rest => rest.foldl (fun best c => if c.totalCompare best = wanted then c else best) first

/-- Mean and population variance, of which there are none if a cell is absent. -/
def moments (cells : List Scalar) : Except Error (Option (Binary64 × Binary64)) :=
  if cells.isEmpty || cells.any Scalar.isAbsent then .ok none
  else do
    let xs ← cells.mapM Scalar.toNumber
    let n := Binary64.ofInt xs.length
    let mean := (Summing.doubles.plain xs).div n
    let squares := xs.map fun x => (x.sub mean).mul (x.sub mean)
    return some (mean, (Summing.doubles.plain squares).div n)

private def ofMoment (moment : Option Binary64) : Scalar := (moment.map .float64).getD .absent

def reduce : Fold → List Scalar → Except Error Scalar
  | sum, cells => total cells
  | min, cells => .ok (extreme .lt cells)
  | max, cells => .ok (extreme .gt cells)
  | mean, cells => do return ofMoment ((← moments cells).map Prod.fst)
  | stddev, cells => do return ofMoment ((← moments cells).map (·.2.sqrt))

end Fold

/-- A kind of place in which the cells of one bucket after another are gathered. -/
structure Scratch (σ : Type) where
  clear : σ → σ
  push : σ → Scalar → σ
  cells : σ → List Scalar
  cells_clear (place : σ) : cells (clear place) = []
  cells_push (place : σ) (cell : Scalar) : cells (push place cell) = cells place ++ [cell]

namespace Scratch

def heap : Scratch (Array Scalar) :=
  ⟨fun _ => #[], Array.push, Array.toList, fun _ => rfl, fun _ _ => Array.toList_push⟩

/-- In an arena a place keeps its room when it is cleared. -/
def arena : Scratch (Buffer Scalar) :=
  ⟨fun place => { place with items := [] }, Buffer.push, Buffer.items, fun _ => rfl, Buffer.items_push⟩

variable {σ : Type} (s : Scratch σ)

def gather (c : Column) (place : σ) (rows : List Nat) : Except Error σ :=
  rows.foldlM (fun place row => do return s.push place (← c.scalarAt row)) place

/-- What the cells of each bucket come to, all of them gathered in one place. -/
def reduce (fold : Fold) (c : Column) (place : σ) : List Bucket → Except Error (List Scalar)
  | [] => .ok []
  | b :: bs => do
    let place ← s.gather c (s.clear place) b.rows
    let value ← fold.reduce (s.cells place)
    let values ← reduce fold c place bs
    return value :: values

end Scratch

/-- What to compute for every bucket, where `ι` is what columns are named by. -/
inductive Aggregation (ι : Type)
  /-- What the cells of a column come to. -/
  | fold (fold : Fold) (column : ι)
  /-- The number of rows. -/
  | count
  deriving DecidableEq, Repr

namespace Aggregation

def map {ι κ : Type} (g : ι → κ) : Aggregation ι → Aggregation κ
  | fold op column => fold op (g column)
  | count => count

def values (shared : Bool) (f : Frame) (buckets : List Bucket) :
    Aggregation Nat → Except Error (List Scalar)
  | fold op column => do
    let c ← f.column column
    if shared then Scratch.arena.reduce op c .empty buckets else Scratch.heap.reduce op c #[] buckets
  | count => .ok (buckets.map fun b => .ofCount b.length)

def name (f : Frame) : Aggregation Nat → Except Error String
  | fold op column => do return op.name ++ "( " ++ (← f.column column).name ++ " )"
  | count => .ok "count(*)"

def toColumn (shared : Bool) (f : Frame) (buckets : List Bucket) (a : Aggregation Nat) :
    Except Error Column := do
  let values ← a.values shared f buckets
  Column.infer (← a.name f) values

end Aggregation

namespace GroupIndex

def cellBytes : Nat := 24

/-- One row for each bucket: the key columns' cells of its first row, and the aggregations. -/
def summarize (g : GroupIndex) (f : Frame) (aggregations : List (Aggregation Nat))
    (options : ScratchOptions) : Except Error Frame := do
  let largest := (g.buckets.map Bucket.length).foldl max 0
  let shared := options.admits largest cellBytes
  let firstRows := g.buckets.map fun b => b.rows.headD 0
  let keys ← g.columns.mapM fun i => do (← f.column i).take firstRows
  let columns ← aggregations.mapM (·.toColumn shared f g.buckets)
  Frame.ofColumns (keys ++ columns)

/-- As `summarize`, for an index made earlier, of a frame that may have changed since. In the message of a
refusal 0, which is never issued, stands for a stamp that there is not. -/
def aggregate (g : GroupIndex) (f : Frame) (aggregations : List (Aggregation Nat))
    (options : ScratchOptions) : Except Error Frame :=
  if g.isCurrent f then g.summarize f aggregations options
  else .error (.staleIndex (g.stamp?.getD 0) (f.stamp?.getD 0))

end GroupIndex

def Frame.groupBy (f : Frame) (keys : List Nat) (aggregations : List (Aggregation Nat))
    (options : ScratchOptions) : Except Error Frame := do
  (← GroupIndex.build f keys).summarize f aggregations options

end Tabular
