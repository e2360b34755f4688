import Tabular.Column.Basic

/-! Frames: columns of independent types side by side, meant to have one length. A frame carries the
stamp it was issued when it last came to rest, so that what was computed from it can tell whether
it is still the same; a frame in the course of a change has none. -/

namespace Tabular

structure Frame where
  columns : List Column
  /-- The stamp issued for these columns, unless they changed since. -/
  stamp? : Option Nat := none

namespace Frame

def empty : Frame := ⟨[], none⟩

/-- The length of all columns, or the first column whose length is not that of column 0. -/
def commonLength (columns : List Column) : Except Error Nat :=
  match columns with
  | [] => .ok 0
  | first :: _ =>
    match (columns.zipIdx).find? fun (c, _) => c.length ≠ first.length with
    | some (c, i) => .error (.inconsistentSizes i c.name first.length c.length)
    | none => .ok first.length

def ofColumns (columns : List Column) : Except Error Frame := do
  let _ ← commonLength columns
  return ⟨columns, none⟩

def width (f : Frame) : Nat := f.columns.length

def size (f : Frame) : Except Error Nat := commonLength f.columns

def names (f : Frame) : List String := f.columns.map Column.name

def find? (f : Frame) (name : String) : Option Nat := f.columns.findIdx? (·.name == name)

def column (f : Frame) (i : Nat) : Except Error Column :=
  match f.columns[i]? with
  | some c => .ok c
  | none => .error (.columnOutOfRange i f.width)

def series (f : Frame) (t : CellType) (i : Nat) : Except Error (Series t) := do
  let c ← f.column i
  match c.seriesAs? t with
  | some s => return s
  | none => throw (.wrongColumnType i t c.type)

def populate (f : Frame) (columns : List Column) : Outcome Frame Unit :=
  match commonLength columns with
  | .ok _ => (.ok (), ⟨columns, none⟩)
  | .error e => (.error e, f)

def checkNewColumn (f : Frame) (position : Nat) (c : Column) : Except Error Unit :=
  if f.width < position then .error (.columnOutOfRange position f.width)
  else if f.columns.isEmpty then .ok ()
  else do
    let rows ← f.size
    if c.length = rows then return ()
    else throw (.inconsistentSizes position c.name rows c.length)

def insertColumn (f : Frame) (position : Nat) (c : Column) : Outcome Frame Unit :=
  match f.checkNewColumn position c with
  | .ok _ => (.ok (), ⟨f.columns.insertIdx position c, none⟩)
  | .error e => (.error e, f)

def addColumn (f : Frame) (c : Column) : Outcome Frame Unit := f.insertColumn f.width c

def prependColumn (f : Frame) (c : Column) : Outcome Frame Unit := f.insertColumn 0 c

def removeColumn (f : Frame) (i : Nat) : Outcome Frame Column :=
  match f.column i with
  | .ok c => (.ok c, ⟨f.columns.eraseIdx i, none⟩)
  | .error e => (.error e, f)

/-- The columns at these positions, which may repeat and come in any order. -/
def select (f : Frame) (positions : List Nat) : Except Error Frame := do
  return ⟨← positions.mapM f.column, none⟩

def replaceColumn (f : Frame) (i : Nat) (c : Column) : Frame := ⟨f.columns.set i c, none⟩

def allowMissing (f : Frame) (t : CellType) (i : Nat) : Outcome Frame Unit :=
  match f.series t i with
  | .ok s => (.ok (), f.replaceColumn i ⟨.missing t, s.allowMissing⟩)
  | .error e => (.error e, f)

/-- Put the default in the place of the missing elements of column `i`, of type `t`. -/
def disallowMissing (f : Frame) (t : CellType) (i : Nat) : Outcome Frame Unit :=
  match (f.series (.missing t) i).bind Series.disallowMissing with
  | .ok s => (.ok (), f.replaceColumn i ⟨t, s⟩)
  | .error e => (.error e, f)

/-- Change one column by itself. The frame counts as changed even if the column refuses; its columns
may have different lengths afterwards. -/
def writeColumn {α : Type} (f : Frame) (i : Nat) (change : Column → Outcome Column α) :
    Outcome Frame α :=
  match f.column i with
  | .ok c =>
    let (answer, after) := change c
    (answer, f.replaceColumn i after)
  | .error e => (.error e, f)

def writeSeries {α : Type} (f : Frame) (t : CellType) (i : Nat)
    (change : Series t → Outcome (Series t) α) : Outcome Frame α :=
  f.writeColumn i fun c =>
    match c.seriesAs? t with
    | some s =>
      let (answer, after) := change s
      (answer, ⟨t, after⟩)
    | none => (.error (.wrongColumnType i t c.type), c)

def set (f : Frame) (row column : Nat) (value : Scalar) : Outcome Frame Unit :=
  f.writeColumn column (·.setScalar row value)

def render (f : Frame) (i : Nat) : Except Error (List String) := do
  return (← f.column i).render

/-- For each column the width of its widest cell or of its name, in characters. -/
def widths (f : Frame) : List Nat :=
  f.columns.map fun c => c.render.foldl (fun w cell => max w cell.length) c.name.length

end Frame

end Tabular
