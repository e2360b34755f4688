import Tabular.Frame.Rows
import Tabular.Group.Index

/-! Joins of two frames on one column of each. Rows match if their keys are equal. Output follows
the keys of the left frame as they are first met there. -/

namespace Tabular

/-- Whether rows of the left frame without a match are left out or kept with defaults. -/
inductive JoinType
  | inner
  | left
  deriving DecidableEq, Repr

namespace Join

/-- A row of the left frame with a row of the right one, or with none. -/
structure Pair where
  left : Nat
  right? : Option Nat
  deriving DecidableEq, Repr

def pairBucket (type : JoinType) (right : GroupIndex) (b : Bucket) : List Pair :=
  match right.get? b.key with
  | some found => b.rows.flatMap fun l => found.rows.map fun r => ⟨l, some r⟩
  | none =>
    match type with
    | .left => b.rows.map fun l => ⟨l, none⟩
    | .inner => []

def pairs (type : JoinType) (left right : GroupIndex) : List Pair :=
  left.buckets.flatMap (pairBucket type right)

def countBucket (type : JoinType) (right : GroupIndex) (b : Bucket) : Nat :=
  match right.get? b.key with
  | some found => b.length * found.length
  | none =>
    match type with
    | .left => b.length
    | .inner => 0

def countPairs (type : JoinType) (left right : GroupIndex) : Nat :=
  left.buckets.foldl (fun n b => n + countBucket type right b) 0

def pairBytes : Nat := 24

/-- The pairs, held in one place made for all of them or each as it comes. -/
def plan (type : JoinType) (left right : GroupIndex) (options : ScratchOptions) : List Pair :=
  let count := countPairs type left right
  if options.admits count pairBytes then
    ((Buffer.withCapacity count).append 0 (pairs type left right)).items
  else pairs type left right

end Join

namespace Frame

def gatherPairs (f g : Frame) (pairs : List Join.Pair) : Except Error Frame := do
  let left ← f.takeRows (pairs.map Join.Pair.left)
  let right ← g.takeRowsOrDefault (pairs.map Join.Pair.right?)
  left.hcat right

def join (f : Frame) (leftKey : Nat) (g : Frame) (rightKey : Nat) (type : JoinType)
    (options : ScratchOptions) : Except Error Frame := do
  let left ← GroupIndex.build f [leftKey]
  let right ← GroupIndex.build g [rightKey]
  f.gatherPairs g (Join.plan type left right options)

end Frame

end Tabular
