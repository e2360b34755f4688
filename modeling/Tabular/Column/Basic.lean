import Tabular.Series.Basic

/-! Columns whose element type is known only when the program runs. Scalars pass in and out of them;
elements pass between columns of one type as they are. -/

namespace Tabular

open Buffer (Edit Reply)

structure Column where
  type : CellType
  series : Series type

namespace Column

def name (c : Column) : String := c.series.name

def buffer (c : Column) : Buffer (Cell c.type) := c.series.buffer

def storage (c : Column) : Storage := c.series.storage

def length (c : Column) : Nat := c.series.length

def isEmpty (c : Column) : Bool := c.series.buffer.isEmpty

def ofList (t : CellType) (name : String) (items : List (Cell t)) : Column := ⟨t, .ofList name items⟩

def ofScalars (t : CellType) (name : String) (values : List Scalar) : Except Error Column := do
  return ⟨t, ← Series.ofScalars t name values⟩

def seriesAs? (c : Column) (t : CellType) : Option (Series t) :=
  if h : c.type = t then some (h ▸ c.series) else none

def scalarAt (c : Column) (row : Nat) : Except Error Scalar := do
  Cell.toScalar c.type (← c.series.get row)

/-- The default of the element type, as a scalar. -/
def default? (c : Column) : Option Scalar := (Cell.default? c.type).bind (Cell.toScalar? c.type)

def renderAt (c : Column) (row : Nat) : Except Error String := do
  return Cell.render c.type (← c.series.get row)

def render (c : Column) : List String := c.series.render

def scalars (c : Column) (rows : Nat) : Except Error (List Scalar) :=
  (List.range rows).mapM c.scalarAt

def rename (c : Column) (name : String) : Column := ⟨c.type, c.series.rename name⟩

def edit (c : Column) (e : Edit (Cell c.type)) : Outcome Column (Reply (Cell c.type)) :=
  let (reply, series) := c.series.edit e
  (reply, ⟨c.type, series⟩)

/-- A change of which only success is of interest. -/
def alter (c : Column) (e : Edit (Cell c.type)) : Outcome Column Unit :=
  let (reply, after) := c.edit e
  (reply.map fun _ => (), after)

def setScalar (c : Column) (row : Nat) (value : Scalar) : Outcome Column Unit :=
  match Cell.ofScalar c.type value with
  | .ok x => c.alter (.set row x)
  | .error e => (.error e, c)

def insertScalar (c : Column) (pos : Nat) (value : Scalar) : Outcome Column Unit :=
  match Cell.ofScalar c.type value with
  | .ok x => c.alter (.insert 1 pos [x])
  | .error e => (.error e, c)

/-- To insert no elements is always possible. -/
def insertDefault (c : Column) (pos count : Nat) : Outcome Column Unit :=
  if count = 0 then (.ok (), c)
  else
    match Cell.default c.type with
    | .ok x => c.alter (.insert count pos (List.replicate count x))
    | .error e => (.error e, c)

def elementsFrom (c source : Column) : Except Error (Buffer (Cell c.type)) :=
  match source.seriesAs? c.type with
  | some s => .ok s.buffer
  | none => .error (.foreignElements c.type source.type)

def insertFrom (c : Column) (pos : Nat) (source : Column) (row : Nat) : Outcome Column Unit :=
  match (c.elementsFrom source).bind (·.get row) with
  | .ok x => c.alter (.insert 1 pos [x])
  | .error e => (.error e, c)

def insertWithin (c : Column) (pos first last : Nat) : Outcome Column Unit :=
  c.alter (.insertWithin pos first last)

def extendFrom (c source : Column) : Outcome Column Unit :=
  match c.elementsFrom source with
  | .ok b => c.alter (.insert b.length c.length b.items)
  | .error e => (.error e, c)

def erase (c : Column) (first last : Nat) : Outcome Column Nat :=
  let (reply, after) := c.edit (.erase first last)
  (reply.map fun _ => last - first, after)

def resize (c : Column) (n : Nat) : Outcome Column Unit := c.alter (.resize n)

def take (c : Column) (rows : List Nat) : Except Error Column := do
  return ofList c.type c.name (← rows.mapM c.series.get)

/-- As `take`, with the default where no row is named. -/
def takeOrDefault (c : Column) (rows : List (Option Nat)) : Except Error Column :=
  if rows.contains none then do
    let fill ← Cell.default c.type
    return ofList c.type c.name (← rows.mapM fun
      | some row => c.series.get row
      | none => .ok fill)
  else c.take (rows.filterMap id)

def allowMissing (c : Column) : Column := ⟨.missing c.type, c.series.allowMissing⟩

@[simp] theorem seriesAs?_type (c : Column) : c.seriesAs? c.type = some c.series := by
  simp [seriesAs?]

inductive Edit
  | setName (name : String)
  | setScalar (row : Nat) (value : Scalar)
  | insertScalar (pos : Nat) (value : Scalar)
  | insertDefault (pos count : Nat)
  | insertFrom (pos : Nat) (source : Column) (row : Nat)
  | insertWithin (pos first last : Nat)
  | extendFrom (source : Column)
  | erase (first last : Nat)
  | resize (n : Nat)

private def silent (o : Outcome Column Unit) : Outcome Column (Option Nat) :=
  (o.1.map fun _ => none, o.2)

def Edit.run (c : Column) : Edit → Outcome Column (Option Nat)
  | .setName name => (.ok none, c.rename name)
  | .setScalar row value => silent (c.setScalar row value)
  | .insertScalar pos value => silent (c.insertScalar pos value)
  | .insertDefault pos count => silent (c.insertDefault pos count)
  | .insertFrom pos source row => silent (c.insertFrom pos source row)
  | .insertWithin pos first last => silent (c.insertWithin pos first last)
  | .extendFrom source => silent (c.extendFrom source)
  | .erase first last => let (n, c) := c.erase first last; (n.map some, c)
  | .resize n => silent (c.resize n)

end Column

end Tabular
