import Tabular.Proofs.Builds
import Tabular.Proofs.Groups

/-! Columns and frames copied into places of their own. What is done to a copy comes to what is done to the
original, and leaves a copy of it: nothing that is computed from columns goes by where they live. -/

namespace Tabular

namespace Series

variable {t : CellType}

/-- The same name and elements, in no block. -/
def copy (s : Series t) : Series t := { s with storage := .fresh }

theorem storageAfter_copy (s : Series t) (e : Buffer.Edit (Cell t)) : s.copy.storageAfter e = .fresh := by
  by_cases drops : e = .clear
  · rw [drops]
    rfl
  · rw [storageAfter_of_stays drops]
    exact ite_self _

theorem edit_copy (s : Series t) (e : Buffer.Edit (Cell t)) : s.copy.edit e = Prod.map id copy (s.edit e) := by
  have same : s.copy.buffer = s.buffer := rfl
  rw [edit, storageAfter_copy, same, edit]
  cases e.run (Cell.default t) s.buffer <;> rfl

end Series

namespace Column

def copy (c : Column) : Column := ⟨c.type, c.series.copy⟩

/-- What one change makes of a column the other makes of its copy. -/
def Mirrors {α : Type} (change change' : Column → Outcome Column α) : Prop :=
  ∀ c : Column, change' c.copy = Prod.map id copy (change c)

def Oblivious {α : Type} (change : Column → Outcome Column α) : Prop := Mirrors change change

theorem copy_of_fresh {c : Column} (new : c.storage = .fresh) : c.copy = c := by
  obtain ⟨t, name, buffer, storage⟩ := c
  obtain rfl : storage = .fresh := new
  rfl

theorem seriesAs?_copy (c : Column) (t : CellType) : c.copy.seriesAs? t = (c.seriesAs? t).map Series.copy := by
  obtain ⟨u, s⟩ := c
  by_cases same : u = t
  · subst same
    simp [seriesAs?, copy]
  · simp [seriesAs?, copy, same]

theorem edit_copy (c : Column) (e : Buffer.Edit (Cell c.type)) :
    c.copy.edit e = Prod.map id copy (c.edit e) := by
  have series := c.series.edit_copy e
  simp only [edit, copy, series]
  rfl

theorem alter_copy (c : Column) (e : Buffer.Edit (Cell c.type)) :
    c.copy.alter e = Prod.map id copy (c.alter e) := by
  have edited := c.edit_copy e
  simp only [alter, edited]
  rfl

theorem elementsFrom_copy (c source : Column) : c.copy.elementsFrom source.copy = c.elementsFrom source := by
  obtain ⟨t, s⟩ := c
  have taken := source.seriesAs?_copy t
  simp only [elementsFrom, copy] at taken ⊢
  rw [taken]
  cases source.seriesAs? t <;> rfl

section Changes

theorem oblivious_setScalar (row : Nat) (value : Scalar) : Oblivious (·.setScalar row value) := by
  rintro ⟨t, s⟩
  simp only [setScalar, copy]
  cases Cell.ofScalar t value with
  | ok x => exact alter_copy ⟨t, s⟩ (.set row x)
  | error e => rfl

theorem oblivious_insertScalar (pos : Nat) (value : Scalar) : Oblivious (·.insertScalar pos value) := by
  rintro ⟨t, s⟩
  simp only [insertScalar, copy]
  cases Cell.ofScalar t value with
  | ok x => exact alter_copy ⟨t, s⟩ (.insert 1 pos [x])
  | error e => rfl

theorem oblivious_insertDefault (pos count : Nat) : Oblivious (·.insertDefault pos count) := by
  rintro ⟨t, s⟩
  simp only [insertDefault, copy]
  split
  · rfl
  · cases Cell.default t with
    | ok x => exact alter_copy ⟨t, s⟩ (.insert count pos (List.replicate count x))
    | error e => rfl

theorem insertFrom_mirrors (pos : Nat) (source : Column) (row : Nat) :
    Mirrors (·.insertFrom pos source row) (·.insertFrom pos source.copy row) := by
  intro c
  have elements := congrArg (·.bind (·.get row)) (c.elementsFrom_copy source)
  obtain ⟨t, s⟩ := c
  simp only [insertFrom, copy] at elements ⊢
  rw [elements]
  cases (elementsFrom ⟨t, s⟩ source).bind (·.get row) with
  | ok x => exact alter_copy ⟨t, s⟩ (.insert 1 pos [x])
  | error e => rfl

theorem oblivious_insertWithin (pos first last : Nat) : Oblivious (·.insertWithin pos first last) :=
  fun c => c.alter_copy (.insertWithin pos first last)

theorem extendFrom_mirrors (source : Column) : Mirrors (·.extendFrom source) (·.extendFrom source.copy) := by
  intro c
  have elements := c.elementsFrom_copy source
  obtain ⟨t, s⟩ := c
  simp only [extendFrom]
  rw [elements]
  cases elementsFrom ⟨t, s⟩ source with
  | ok b => exact alter_copy ⟨t, s⟩ (.insert b.length s.length b.items)
  | error e => rfl

theorem oblivious_erase (first last : Nat) : Oblivious (·.erase first last) := by
  intro c
  exact congrArg (fun o : Outcome Column (Buffer.Reply (Cell c.type)) => (o.1.map fun _ => last - first, o.2))
    (c.edit_copy (.erase first last))

theorem oblivious_resize (n : Nat) : Oblivious (·.resize n) := fun c => c.alter_copy (.resize n)

def Edit.copy : Edit → Edit
  | .insertFrom pos source row => .insertFrom pos source.copy row
  | .extendFrom source => .extendFrom source.copy
  | e => e

theorem Edit.run_mirrors (e : Edit) : Mirrors (fun c => e.run c) (fun c => e.copy.run c) := by
  intro c
  cases e with
  | setName name => rfl
  | setScalar row value => simp only [copy, run, oblivious_setScalar row value c]; rfl
  | insertScalar pos value => simp only [copy, run, oblivious_insertScalar pos value c]; rfl
  | insertDefault pos count => simp only [copy, run, oblivious_insertDefault pos count c]; rfl
  | insertFrom pos source row => simp only [copy, run, insertFrom_mirrors pos source row c]; rfl
  | insertWithin pos first last => simp only [copy, run, oblivious_insertWithin pos first last c]; rfl
  | extendFrom source => simp only [copy, run, extendFrom_mirrors source c]; rfl
  | erase first last => simp only [copy, run, oblivious_erase first last c]; rfl
  | resize n => simp only [copy, run, oblivious_resize n c]; rfl

end Changes

theorem take_copy (c : Column) (rows : List Nat) : c.copy.take rows = (c.take rows).map copy := by
  cases taken : c.take rows with
  | ok d => exact taken.trans (congrArg Except.ok (copy_of_fresh (fresh_of_take taken)).symm)
  | error e => exact taken

theorem takeOrDefault_copy (c : Column) (rows : List (Option Nat)) :
    c.copy.takeOrDefault rows = (c.takeOrDefault rows).map copy := by
  cases taken : c.takeOrDefault rows with
  | ok d => exact taken.trans (congrArg Except.ok (copy_of_fresh (fresh_of_takeOrDefault taken)).symm)
  | error e => exact taken

end Column

theorem Outcome.result_map {σ α : Type} (g : σ → σ) (o : Outcome σ α) :
    Outcome.result (Prod.map id g o) = o.result.map g := by
  obtain ⟨answer, after⟩ := o
  cases answer <;> rfl

namespace Frame

def copy (f : Frame) : Frame := ⟨f.columns.map Column.copy, f.stamp?⟩

def Mirrors {α : Type} (change change' : Frame → Outcome Frame α) : Prop :=
  ∀ f : Frame, change' f.copy = Prod.map id copy (change f)

def Oblivious {α : Type} (change : Frame → Outcome Frame α) : Prop := Mirrors change change

section Reading

variable (f : Frame)

theorem contents_copy : f.copy.contents = f.contents := by
  rw [contents, copy, List.map_map]
  rfl

theorem contents_eq_of_copies {f g : Frame} (same : f.columns.map Column.copy = g.columns.map Column.copy) :
    f.contents = g.contents := by
  rw [← f.contents_copy, ← g.contents_copy, contents, contents, copy, copy, same]

theorem width_copy : f.copy.width = f.width := List.length_map _

theorem commonLength_copy (columns : List Column) :
    commonLength (columns.map Column.copy) = commonLength columns := by
  have named (c : Column) : c.copy.name = c.name := rfl
  exact commonLength_map named (fun _ => rfl) columns

theorem ofColumns_copy (columns : List Column) :
    ofColumns (columns.map Column.copy) = (ofColumns columns).map copy := by
  rw [ofColumns, ofColumns, commonLength_copy]
  cases commonLength columns <;> rfl

theorem size_copy : f.copy.size = f.size := commonLength_copy f.columns

theorem isEmpty_copy : f.copy.columns.isEmpty = f.columns.isEmpty := List.isEmpty_map

theorem column_copy (i : Nat) : f.copy.column i = (f.column i).map Column.copy := by
  rw [column, column, width_copy, copy, List.getElem?_map]
  cases f.columns[i]? <;> rfl

theorem series_copy (t : CellType) (i : Nat) : f.copy.series t i = (f.series t i).map Series.copy := by
  rw [series, series, column_copy]
  cases f.column i with
  | error e => rfl
  | ok c =>
    have taken := c.seriesAs?_copy t
    simp only [Except.map, ok_bind]
    rw [taken]
    cases c.seriesAs? t <;> rfl

theorem row_copy (i : Nat) : f.copy.row i = f.row i := by
  rw [row, row, size_copy, copy, List.mapM_map]
  rfl

theorem mapM_copy {make : Column → Except Error Column}
    (each : ∀ c, make c.copy = (make c).map Column.copy) :
    f.copy.columns.mapM make = (f.columns.mapM make).map (List.map Column.copy) := by
  rw [copy, List.mapM_map, ← mapM_comp_map]
  simp only [Function.comp_def, each]

theorem takeRows_copy (rows : List Nat) : f.copy.takeRows rows = (f.takeRows rows).map copy := by
  rw [takeRows, takeRows, size_copy, mapM_copy f fun c => c.take_copy rows]
  cases f.size with
  | error e => rfl
  | ok n => cases f.columns.mapM (Column.take · rows) <;> rfl

theorem takeRowsOrDefault_copy (rows : List (Option Nat)) :
    f.copy.takeRowsOrDefault rows = (f.takeRowsOrDefault rows).map copy := by
  rw [takeRowsOrDefault, takeRowsOrDefault, size_copy, mapM_copy f fun c => c.takeOrDefault_copy rows]
  cases f.size with
  | error e => rfl
  | ok n => cases f.columns.mapM (Column.takeOrDefault · rows) <;> rfl

theorem select_copy (positions : List Nat) : f.copy.select positions = (f.select positions).map copy := by
  have each : positions.mapM f.copy.column = (positions.mapM f.column).map (List.map Column.copy) := by
    rw [← mapM_comp_map, funext f.column_copy]
  rw [select, select, each]
  cases positions.mapM f.column <;> rfl

end Reading

section Columns

theorem populate_mirrors (columns : List Column) :
    Mirrors (·.populate columns) (·.populate (columns.map Column.copy)) := by
  intro f
  simp only [populate, commonLength_copy]
  cases commonLength columns <;> rfl

theorem insertColumn_mirrors (position : Nat) (c : Column) :
    Mirrors (·.insertColumn position c) (·.insertColumn position c.copy) := by
  intro f
  have check : f.copy.checkNewColumn position c.copy = f.checkNewColumn position c := by
    rw [checkNewColumn, checkNewColumn, width_copy, isEmpty_copy, size_copy]
    rfl
  simp only [insertColumn, check]
  cases f.checkNewColumn position c with
  | error e => rfl
  | ok _ => simp only [Prod.map, id, copy, List.map_insertIdx]

theorem addColumn_mirrors (c : Column) : Mirrors (·.addColumn c) (·.addColumn c.copy) := by
  intro f
  simp only [addColumn, width_copy]
  exact insertColumn_mirrors f.width c f

theorem prependColumn_mirrors (c : Column) : Mirrors (·.prependColumn c) (·.prependColumn c.copy) :=
  insertColumn_mirrors 0 c

theorem removeColumn_copy (f : Frame) (i : Nat) :
    f.copy.removeColumn i = ((f.removeColumn i).1.map Column.copy, (f.removeColumn i).2.copy) := by
  rw [removeColumn, column_copy, removeColumn]
  cases f.column i with
  | error e => rfl
  | ok c => simp only [Except.map, copy, List.eraseIdx_map]

theorem replaceColumn_copy (f : Frame) (i : Nat) (c : Column) :
    f.copy.replaceColumn i c.copy = (f.replaceColumn i c).copy :=
  congrArg (Frame.mk · none) List.map_set.symm

theorem allowMissing_oblivious (t : CellType) (i : Nat) : Oblivious (·.allowMissing t i) := by
  intro f
  simp only [allowMissing, series_copy]
  cases f.series t i with
  | error e => rfl
  | ok s => exact congrArg (Prod.mk _) (f.replaceColumn_copy i ⟨.missing t, s.allowMissing⟩)

theorem disallowMissing_oblivious (t : CellType) (i : Nat) : Oblivious (·.disallowMissing t i) := by
  intro f
  simp only [disallowMissing, series_copy]
  cases f.series (.missing t) i with
  | error e => rfl
  | ok s =>
    have same : s.copy.disallowMissing = s.disallowMissing := rfl
    simp only [Except.map, Except.bind, same]
    cases made : s.disallowMissing with
    | error e => rfl
    | ok s' =>
      obtain ⟨fill, -, new⟩ := bind_eq_ok_iff.1 made
      cases new
      exact congrArg (Prod.mk _) (f.replaceColumn_copy i ⟨t, .ofList s.name _⟩)

theorem writeColumn_mirrors {α : Type} (i : Nat) {change change' : Column → Outcome Column α}
    (mirrors : Column.Mirrors change change') :
    Mirrors (·.writeColumn i change) (·.writeColumn i change') := by
  intro f
  simp only [writeColumn, column_copy]
  cases f.column i with
  | error e => rfl
  | ok c =>
    simp only [Except.map, mirrors c]
    exact congrArg (Prod.mk _) (f.replaceColumn_copy i (change c).2)

theorem writeSeries_mirrors {α : Type} (t : CellType) (i : Nat)
    {change change' : Series t → Outcome (Series t) α}
    (mirrors : ∀ s : Series t, change' s.copy = Prod.map id Series.copy (change s)) :
    Mirrors (·.writeSeries t i change) (·.writeSeries t i change') := by
  refine writeColumn_mirrors i fun c => ?_
  have taken := c.seriesAs?_copy t
  simp only [taken]
  cases c.seriesAs? t with
  | none => rfl
  | some s =>
    simp only [Option.map_some, mirrors s]
    rfl

end Columns

section Rows

theorem insertEach_copy {insert insert' : Nat → Column → Outcome Column Unit} {undo : Column → Column}
    (mirrors : ∀ i, Column.Mirrors (insert i) (insert' i))
    (undoes : ∀ c : Column, undo c.copy = (undo c).copy) (i : Nat) (columns : List Column) :
    insertEach insert' undo i (columns.map Column.copy) =
      Prod.map id (List.map Column.copy) (insertEach insert undo i columns) := by
  induction columns generalizing i with
  | nil => rfl
  | cons c cs ih =>
    rw [List.map_cons, insertEach, insertEach, mirrors i c]
    obtain ⟨answer, b⟩ := insert i c
    cases answer with
    | error e => rfl
    | ok _ =>
      simp only [Prod.map, id, ih]
      obtain ⟨answer, bs⟩ := insertEach insert undo (i + 1) cs
      cases answer with
      | error e => simp only [undoes, List.map_cons]
      | ok _ => rfl

theorem lockstepInsert_mirrors (pos count : Nat) {insert insert' : Nat → Column → Outcome Column Unit}
    (mirrors : ∀ i, Column.Mirrors (insert i) (insert' i)) :
    Mirrors (·.lockstepInsert pos count insert) (·.lockstepInsert pos count insert') := by
  intro f
  let undo (c : Column) : Column := (c.erase pos (pos + count)).2
  have undoes (c : Column) : undo c.copy = (undo c).copy :=
    congrArg Prod.snd (Column.oblivious_erase pos (pos + count) c)
  have each := insertEach_copy mirrors undoes 0 f.columns
  simp only [lockstepInsert, size_copy]
  cases f.size with
  | error e => rfl
  | ok rows =>
    dsimp only
    split
    · rfl
    · rw [show f.copy.columns = f.columns.map Column.copy from rfl, each]
      obtain ⟨answer, columns⟩ := insertEach insert _ 0 f.columns
      cases answer <;> rfl

theorem atEnd_mirrors {α : Type} {change change' : Nat → Frame → Outcome Frame α}
    (mirrors : ∀ rows, Mirrors (change rows) (change' rows)) :
    Mirrors (fun f => f.atEnd fun rows => change rows f) (fun f => f.atEnd fun rows => change' rows f) := by
  intro f
  simp only [atEnd, size_copy]
  cases f.size with
  | error e => rfl
  | ok rows => exact mirrors rows f

theorem insertRow_oblivious (pos : Nat) (values : List Scalar) : Oblivious (·.insertRow pos values) := by
  intro f
  simp only [insertRow, width_copy]
  split
  · rfl
  · refine lockstepInsert_mirrors pos 1 (fun i => ?_) f
    cases values[i]? with
    | some v => exact Column.oblivious_insertScalar pos v
    | none => exact Column.oblivious_insertDefault pos 1

theorem pushRow_oblivious (values : List Scalar) : Oblivious (·.pushRow values) :=
  atEnd_mirrors fun rows => insertRow_oblivious rows values

theorem insertRowFrom_mirrors (pos : Nat) (source : Frame) (row : Nat) :
    Mirrors (·.insertRowFrom pos source row) (·.insertRowFrom pos source.copy row) := by
  intro f
  simp only [insertRowFrom, width_copy]
  split
  · rfl
  · refine lockstepInsert_mirrors pos 1 (fun i => ?_) f
    rw [column_copy]
    cases source.column i with
    | ok s => exact Column.insertFrom_mirrors pos s row
    | error e => exact fun _ => rfl

theorem pushRowFrom_mirrors (source : Frame) (row : Nat) :
    Mirrors (·.pushRowFrom source row) (·.pushRowFrom source.copy row) :=
  atEnd_mirrors fun rows => insertRowFrom_mirrors rows source row

theorem insertRowWithin_oblivious (pos row : Nat) : Oblivious (·.insertRowWithin pos row) :=
  lockstepInsert_mirrors pos 1 fun _ => Column.oblivious_insertWithin pos row (row + 1)

theorem insertDefaultRows_oblivious (pos count : Nat) : Oblivious (·.insertDefaultRows pos count) :=
  lockstepInsert_mirrors pos count fun _ => Column.oblivious_insertDefault pos count

theorem changeEach_copy {α : Type} {change : Column → Outcome Column α}
    (oblivious : Column.Oblivious change) (columns : List Column) :
    changeEach change (columns.map Column.copy) =
      Prod.map id (List.map Column.copy) (changeEach change columns) := by
  induction columns with
  | nil => rfl
  | cons c cs ih =>
    rw [List.map_cons, changeEach, changeEach, oblivious c]
    obtain ⟨answer, b⟩ := change c
    cases answer with
    | error e => rfl
    | ok _ =>
      simp only [Prod.map, id, ih]
      rfl

theorem eraseRows_oblivious (first last : Nat) : Oblivious (·.eraseRows first last) := by
  refine atEnd_mirrors fun rows f => ?_
  split
  · rfl
  · split
    · rfl
    · rw [show f.copy.columns = f.columns.map Column.copy from rfl,
        changeEach_copy (Column.oblivious_erase first last)]
      obtain ⟨answer, columns⟩ := changeEach (·.erase first last) f.columns
      cases answer <;> rfl

theorem popRow_oblivious : Oblivious popRow := by
  refine atEnd_mirrors fun rows f => ?_
  split
  · rfl
  · rw [row_copy]
    cases f.row (rows - 1) with
    | error e => rfl
    | ok last =>
      exact congrArg (fun o : Outcome Frame Nat => (o.1.map fun _ => some last, o.2))
        (eraseRows_oblivious (rows - 1) rows f)

end Rows

end Frame

end Tabular
