import Tabular.Frame.Basic

/-! The rows of a frame by their keys. Keys are listed as they are first met, and so are the rows of
each. -/

namespace Tabular

/-- The rows with one key. The cells of the first of them stand for the key. -/
structure Bucket where
  key : List Scalar
  rows : List Nat
  deriving DecidableEq, Repr

namespace Bucket

def keys (b : Bucket) : List Key := b.key.map Scalar.key

def length (b : Bucket) : Nat := b.rows.length

def isEmpty (b : Bucket) : Bool := b.rows.isEmpty

end Bucket

structure GroupIndex where
  /-- The positions of the key columns. -/
  columns : List Nat
  buckets : List Bucket
  /-- The number of rows indexed. -/
  rows : Nat
  /-- The stamp of the frame that was indexed. -/
  stamp? : Option Nat
  deriving DecidableEq, Repr

namespace GroupIndex

def insertRow (key : List Scalar) (row : Nat) : List Bucket → List Bucket
  | [] => [⟨key, [row]⟩]
  | b :: bs =>
    if b.keys = key.map Scalar.key then { b with rows := b.rows ++ [row] } :: bs
    else b :: insertRow key row bs

def build (f : Frame) (keys : List Nat) : Except Error GroupIndex := do
  if keys.isEmpty then throw .noKeys
  let rows ← f.size
  let columns ← keys.mapM f.column
  let buckets ← (List.range rows).foldlM (fun buckets row => do
    return insertRow (← columns.mapM (·.scalarAt row)) row buckets) []
  return ⟨keys, buckets, rows, f.stamp?⟩

def length (g : GroupIndex) : Nat := g.buckets.length

def isEmpty (g : GroupIndex) : Bool := g.buckets.isEmpty

/-- Whether the frame is still the one that was indexed. -/
def isCurrent (g : GroupIndex) (f : Frame) : Bool := g.stamp?.isSome && g.stamp? == f.stamp?

def get? (g : GroupIndex) (key : List Scalar) : Option Bucket :=
  g.buckets.find? fun b => b.keys = key.map Scalar.key

end GroupIndex

/-- Whether room for intermediate results is taken from one place for all of them, and the greatest
size of that place in bytes. Results do not depend on it. -/
structure ScratchOptions where
  shared : Bool := true
  budget : Nat := 256 * 1024 * 1024
  deriving DecidableEq, Repr

def ScratchOptions.admits (o : ScratchOptions) (count bytes : Nat) : Bool :=
  o.shared && count * bytes ≤ o.budget

end Tabular
