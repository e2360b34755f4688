import Tabular.Expr.Select
import Tabular.Fixture
import Tabular.Group.Aggregate
import Tabular.Join

/-! Cases: an operation on a frame and what is to come of it. They are run, and it is reported what
came of them. -/

namespace Tabular

open Text

inductive Operation
  /-- Keep the rows where a column compared with, or otherwise joined to, a value holds. -/
  | filter (column : UInt64) (op : BinaryOp) (value : Scalar)
  /-- Append a column read so many rows away. -/
  | shift (column : UInt64) (offset : Int64) (name : String)
  | sort (keys : List UInt64) (descending : Bool)
  | groupBy (keys : List UInt64) (aggregations : List (Aggregation UInt64))
  | join (leftKey rightKey : UInt64) (type : JoinType)
  | hcat
  | vcat
  deriving DecidableEq, Repr

structure Case where
  id : String
  operation : Operation
  frame : Fixture
  /-- The other frame, for an operation on two. -/
  right? : Option Fixture
  /-- The frame to come of it, if the case says which. -/
  expected? : Option Fixture
  /-- A part of the message of the error to come of it. -/
  expectedError? : Option String
  deriving DecidableEq, Repr

namespace Operation

def run (f : Frame) (right : Except Error Frame) : Operation → Except Error Frame
  | filter column op value => f.filter (.binary op (.col column.toNat) (.constant value))
  | shift column offset name =>
    (f.derive name (.column column.toNat offset.toInt) .append).result
  | sort keys descending => (f.sortBy descending (keys.map UInt64.toNat)).result
  | groupBy keys aggregations =>
    f.groupBy (keys.map UInt64.toNat) (aggregations.map (·.map UInt64.toNat)) {}
  | join leftKey rightKey type => do f.join leftKey.toNat (← right) rightKey.toNat type {}
  | hcat => do f.hcat (← right)
  | vcat => do f.vcat (← right)

end Operation

namespace Case

/-- The other frame, which a case can lack as long as nobody asks for it. -/
def right (c : Case) : Except Error Frame :=
  match c.right? with
  | some x => x.toFrame
  | none => .error (.missingRightFrame c.id)

def output (c : Case) : Except Error Frame := do
  let f ← c.frame.toFrame
  c.operation.run f c.right

/-- What is wrong with the outcome of a case. A frame that is expected counts for more than an error
that is. -/
def mismatch? (c : Case) : Option String :=
  match c.output, c.expected?, c.expectedError? with
  | .ok f, some expected, _ =>
    match Fixture.ofFrame f with
    | .ok actual =>
      if actual.equals expected then none
      else some ("expected " ++ expected.text ++ ", got " ++ actual.text)
    | .error e => some ("output could not be projected: " ++ e.message)
  | .ok _, none, some fragment => some ("expected error containing " ++ quoted fragment)
  | .ok _, none, none => none
  | .error e, _, some fragment =>
    if occursIn fragment e.message then none else some ("unexpected error: " ++ e.message)
  | .error e, _, none => some ("unexpected error: " ++ e.message)

structure Result where
  id : String
  mismatch? : Option String
  deriving DecidableEq, Repr

def Result.passes (r : Result) : Bool := r.mismatch?.isNone

def result (c : Case) : Result := ⟨c.id, c.mismatch?⟩

structure Report where
  results : List Result
  deriving DecidableEq, Repr

namespace Report

def ofCases (cases : List Case) : Report := ⟨cases.map result⟩

def failed (r : Report) : Nat := r.results.countP (!·.passes)

def passed (r : Report) : Nat := r.results.length - r.failed

def isGreen (r : Report) : Bool := r.failed == 0

end Report

end Case

end Tabular
