import Tabular.Frame.Basic

/-! Rows of a frame: inserted, removed, gathered, sorted, and put beside or under those of another. A row
is inserted column by column; if a column refuses its part, the columns before it give theirs back. -/

namespace Tabular.Frame

def row (f : Frame) (i : Nat) : Except Error (List Scalar) := do
  let _ ← f.size
  f.columns.mapM (·.scalarAt i)

/-- All rows, as many as the first column has. Each is read for itself and may not be readable. -/
def rows (f : Frame) : List (Except Error (List Scalar)) :=
  match f.columns with
  | [] => []
  | c :: _ => (List.range c.length).map f.row

/-- Apply `insert` to the columns in turn, `i` being the position of the first of them. When it is
refused, `undo` is applied to the columns that were changed before. -/
def insertEach (insert : Nat → Column → Outcome Column Unit) (undo : Column → Column) :
    Nat → List Column → Outcome (List Column) Unit
  | _, [] => (.ok (), [])
  | i, c :: cs =>
    match insert i c with
    | (.error e, c) => (.error e, c :: cs)
    | (.ok _, c) =>
      match insertEach insert undo (i + 1) cs with
      | (.error e, cs) => (.error e, undo c :: cs)
      | (.ok _, cs) => (.ok (), c :: cs)

/-- Insert `count` rows at `pos`, all columns or none. -/
def lockstepInsert (f : Frame) (pos count : Nat)
    (insert : Nat → Column → Outcome Column Unit) : Outcome Frame Unit :=
  match f.size with
  | .error e => (.error e, f)
  | .ok rows =>
    if rows < pos then (.error (.indexOutOfRange pos rows), f)
    else
      match insertEach insert (fun c => (c.erase pos (pos + count)).2) 0 f.columns with
      | (.error e, columns) => (.error e, { f with columns })
      | (.ok _, columns) => (.ok (), ⟨columns, none⟩)

/-- Insert one row. Columns for which the row has no value take their default. -/
def insertRow (f : Frame) (pos : Nat) (values : List Scalar) : Outcome Frame Unit :=
  if f.width < values.length then (.error (.rowTooWide f.width values.length), f)
  else f.lockstepInsert pos 1 fun i c =>
    match values[i]? with
    | some v => c.insertScalar pos v
    | none => c.insertDefault pos 1

def atEnd {α : Type} (f : Frame) (change : Nat → Outcome Frame α) : Outcome Frame α :=
  match f.size with
  | .ok rows => change rows
  | .error e => (.error e, f)

def pushRow (f : Frame) (values : List Scalar) : Outcome Frame Unit :=
  f.atEnd fun rows => f.insertRow rows values

def insertRowFrom (f : Frame) (pos : Nat) (source : Frame) (row : Nat) : Outcome Frame Unit :=
  if source.width ≠ f.width then (.error (.widthMismatch f.width source.width), f)
  else f.lockstepInsert pos 1 fun i c =>
    match source.column i with
    | .ok s => c.insertFrom pos s row
    | .error e => (.error e, c)

def pushRowFrom (f source : Frame) (row : Nat) : Outcome Frame Unit :=
  f.atEnd fun rows => f.insertRowFrom rows source row

def insertRowWithin (f : Frame) (pos row : Nat) : Outcome Frame Unit :=
  f.lockstepInsert pos 1 fun _ c => c.insertWithin pos row (row + 1)

def insertDefaultRows (f : Frame) (pos count : Nat) : Outcome Frame Unit :=
  f.lockstepInsert pos count fun _ c => c.insertDefault pos count

/-- Apply a change to every column in turn, up to the first that refuses. -/
def changeEach {α : Type} (change : Column → Outcome Column α) :
    List Column → Outcome (List Column) Unit
  | [] => (.ok (), [])
  | c :: cs =>
    match change c with
    | (.error e, c) => (.error e, c :: cs)
    | (.ok _, c) =>
      let (answer, cs) := changeEach change cs
      (answer, c :: cs)

def eraseRows (f : Frame) (first last : Nat) : Outcome Frame Nat :=
  f.atEnd fun rows =>
    if last < first then (.error (.reversedRowRange first last), f)
    else if rows < last then (.error (.indexOutOfRange last rows), f)
    else
      match changeEach (·.erase first last) f.columns with
      | (.error e, columns) => (.error e, { f with columns })
      | (.ok _, columns) => (.ok (last - first), ⟨columns, none⟩)

def popRow (f : Frame) : Outcome Frame (Option (List Scalar)) :=
  f.atEnd fun rows =>
    if rows = 0 then (.ok none, f)
    else
      match f.row (rows - 1) with
      | .error e => (.error e, f)
      | .ok last =>
        let (answer, after) := f.eraseRows (rows - 1) rows
        (answer.map fun _ => some last, after)

def takeRows (f : Frame) (rows : List Nat) : Except Error Frame := do
  let _ ← f.size
  return ⟨← f.columns.mapM (·.take rows), none⟩

/-- As `takeRows`, with a row of defaults where no row is named. -/
def takeRowsOrDefault (f : Frame) (rows : List (Option Nat)) : Except Error Frame := do
  let _ ← f.size
  return ⟨← f.columns.mapM (·.takeOrDefault rows), none⟩

/-- The order of two rows by their key cells: that of the first key in which they differ. -/
def compareRows : List Scalar → List Scalar → Ordering
  | a :: as, b :: bs => (a.totalCompare b).then (compareRows as bs)
  | _, _ => .eq

def keyRows (f : Frame) (rows : Nat) (keys : List Nat) : Except Error (List (List Scalar)) := do
  let columns ← keys.mapM fun i => do (← f.column i).scalars rows
  return (List.range rows).map fun row => columns.map fun cells => (cells[row]?).getD .absent

/-- The positions of the rows in sorted order; rows with equal keys keep theirs. -/
def sortedOrder (descending : Bool) (keys : List (List Scalar)) : List Nat :=
  let ahead (a b : List Scalar × Nat) : Bool :=
    let order := compareRows a.1 b.1
    if descending then order != .lt else order != .gt
  (keys.zipIdx.mergeSort ahead).map Prod.snd

def sortBy (f : Frame) (descending : Bool) (keys : List Nat) : Outcome Frame Unit :=
  f.atEnd fun rows =>
    match (f.keyRows rows keys).bind fun cells =>
        f.columns.mapM (·.take (sortedOrder descending cells)) with
    | .ok columns => (.ok (), ⟨columns, none⟩)
    | .error e => (.error e, f)

def sort (f : Frame) (keys : List Nat) : Outcome Frame Unit := f.sortBy false keys

def reverseSort (f : Frame) (keys : List Nat) : Outcome Frame Unit := f.sortBy true keys

/-- Lengthen a frame of `rows` rows to `target` rows of which the new ones are defaults. A frame
without columns has nothing to lengthen. -/
def pad (f : Frame) (rows target : Nat) : Except Error Frame :=
  if f.columns.isEmpty || target ≤ rows then .ok f
  else (f.insertDefaultRows rows (target - rows)).result

def hcat (f g : Frame) : Except Error Frame := do
  let left ← f.size
  let right ← g.size
  let f ← f.pad left right
  let g ← g.pad right left
  return ⟨f.columns ++ g.columns, none⟩

/-- The rows of both frames. To a frame without columns everything fits. -/
def vcat (f g : Frame) : Except Error Frame :=
  if f.columns.isEmpty then .ok g
  else if g.width ≠ f.width then .error (.widthMismatch f.width g.width)
  else do
    let _ ← f.size
    let _ ← g.size
    let columns ← (f.columns.zip g.columns).mapM fun (c, source) => (c.extendFrom source).result
    return ⟨columns, none⟩

end Tabular.Frame
