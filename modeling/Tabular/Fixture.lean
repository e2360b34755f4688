import Tabular.Column.Inference
import Tabular.Expr.Text
import Tabular.Frame.Basic

/-! Frames written down column by column as bare scalars. Making a frame of one infers the types of
its columns; reading a frame back forgets them. -/

namespace Tabular

open Text

structure FixtureColumn where
  name : String
  values : List Scalar
  deriving DecidableEq, Repr

namespace FixtureColumn

def toColumn (c : FixtureColumn) : Except Error Column := Column.infer c.name c.values

def ofColumn (c : Column) (rows : Nat) : Except Error FixtureColumn := do
  return ⟨c.name, ← c.scalars rows⟩

def equals (c d : FixtureColumn) : Bool := c.name == d.name && c.values.isEqv d.values Scalar.equals

def text (c : FixtureColumn) : String :=
  record "FixtureColumn"
    [("name", quoted c.name), ("values", bracketed (c.values.map Scalar.text))] false

end FixtureColumn

structure Fixture where
  columns : List FixtureColumn
  deriving DecidableEq, Repr

namespace Fixture

def toFrame (x : Fixture) : Except Error Frame := do
  Frame.ofColumns (← x.columns.mapM FixtureColumn.toColumn)

def ofFrame (f : Frame) : Except Error Fixture := do
  let rows ← f.size
  return ⟨← f.columns.mapM (FixtureColumn.ofColumn · rows)⟩

/-- The same names and values; doubles are compared as numbers. -/
def equals (x y : Fixture) : Bool := x.columns.isEqv y.columns FixtureColumn.equals

def text (x : Fixture) : String :=
  record "FixtureFrame" [("columns", bracketed (x.columns.map FixtureColumn.text))] false

end Fixture

namespace Ledger

open Number

def keys : List String := ["a", "b", "c", "b", "c", "c", "d", "e", "e"]

def amounts : List (Cell (.int .i64)) := (List.range' 1 9).filterMap fun (n : Nat) => IntWidth.i64.ofInt? n

/-- Half the amount, with gaps at 4 and 7. -/
def prices : List (Cell (.missing .float64)) :=
  (List.range' 1 9).map fun (n : Nat) =>
    if n % 3 = 1 ∧ 1 < n then none else some ((Binary64.ofInt n).div (.ofInt 2))

/-- A frame of nine rows to try things on. Its keys come in buckets of one, two, three, one and two
rows. -/
def frame : Frame :=
  ⟨[.ofList .text "key" keys, .ofList (.int .i64) "amt" amounts,
    .ofList (.missing .float64) "px" prices], none⟩

end Ledger

end Tabular
