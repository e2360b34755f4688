import Tabular.Expr.Select
import Tabular.Group.Aggregate
import Tabular.Join

/-! Ways to make a new frame, as values. -/

namespace Tabular.Frame

/-- Frames and group indices are named by number. -/
inductive Build
  | ofColumns (columns : List Column)
  | clone (frame : Nat)
  | select (frame : Nat) (positions : List Nat)
  | withColumn (frame : Nat) (column : Column)
  | takeRows (frame : Nat) (rows : List Nat)
  | takeRowsOrDefault (frame : Nat) (rows : List (Option Nat))
  | hcat (left right : Nat)
  | vcat (upper lower : Nat)
  | filter (frame : Nat) (condition : Expr)
  | groupBy (frame : Nat) (keys : List Nat) (aggregations : List (Aggregation Nat))
      (options : ScratchOptions)
  | aggregate (frame index : Nat) (aggregations : List (Aggregation Nat)) (options : ScratchOptions)
  | join (left leftKey right rightKey : Nat) (type : JoinType) (options : ScratchOptions)

def Build.run (frames : Nat → Frame) (indices : Nat → Option GroupIndex) :
    Build → Except Error Frame
  | .ofColumns columns => Frame.ofColumns columns
  | .clone f => .ok (frames f)
  | .select f positions => (frames f).select positions
  | .withColumn f c => ((frames f).addColumn c).result
  | .takeRows f rows => (frames f).takeRows rows
  | .takeRowsOrDefault f rows => (frames f).takeRowsOrDefault rows
  | .hcat f g => (frames f).hcat (frames g)
  | .vcat f g => (frames f).vcat (frames g)
  | .filter f condition => (frames f).filter condition
  | .groupBy f keys aggregations options => (frames f).groupBy keys aggregations options
  | .aggregate f i aggregations options =>
    match indices i with
    | some index => index.aggregate (frames f) aggregations options
    | none => .error (.staleIndex 0 ((frames f).stamp?.getD 0))
  | .join f leftKey g rightKey type options =>
    (frames f).join leftKey (frames g) rightKey type options

end Tabular.Frame
