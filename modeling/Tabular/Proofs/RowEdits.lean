import Tabular.Proofs.RowInsertions

/-! Changes of rows come to the same changes of the list of rows. A row or several are put before a
position, rows are taken out, or the last one is: the columns, changed one by one and each in its own
way, keep one length and show what the list shows, and a change is refused just if the list has no such
change. -/

namespace Tabular

def Datum.hasScalar (d : Datum) : Bool := (Cell.toScalar? d.type d.cell).isSome

/-- A change of rows. A row may be copied from any frame. -/
inductive RowEdit
  | push (values : List Scalar)
  | insert (pos : Nat) (values : List Scalar)
  | pushFrom (source : Frame) (row : Nat)
  | insertFrom (pos : Nat) (source : Frame) (row : Nat)
  | insertWithin (pos row : Nat)
  | insertDefaults (pos count : Nat)
  | erase (first last : Nat)
  | pop

namespace RowEdit

def run (f : Frame) : RowEdit → Except Error Frame
  | push values => (f.pushRow values).result
  | insert pos values => (f.insertRow pos values).result
  | pushFrom source row => (f.pushRowFrom source row).result
  | insertFrom pos source row => (f.insertRowFrom pos source row).result
  | insertWithin pos row => (f.insertRowWithin pos row).result
  | insertDefaults pos count => (f.insertDefaultRows pos count).result
  | erase first last => (f.eraseRows first last).result
  | pop => f.popRow.result

def runs (f : Frame) : List RowEdit → Except Error (List Frame)
  | [] => .ok []
  | e :: es => do
    let g ← e.run f
    let later ← runs g es
    return g :: later

def insertAt (rows : List Row) (pos : Nat) (new : List Row) : Option (List Row) :=
  if pos ≤ rows.length then some (rows.take pos ++ new ++ rows.drop pos) else none

/-- The change of a list of rows of these types, if there is one. The last row is handed back when it is
removed, so its elements need scalar forms. -/
def onRows (types : List CellType) (rows : List Row) : RowEdit → Option (List Row)
  | push values => do insertAt rows rows.length [← Row.ofScalars? types values]
  | insert pos values => do insertAt rows pos [← Row.ofScalars? types values]
  | pushFrom source row => do insertAt rows rows.length [← Row.copy? types source row]
  | insertFrom pos source row => do insertAt rows pos [← Row.copy? types source row]
  | insertWithin pos row => do insertAt rows pos [← rows[row]?]
  | insertDefaults pos count => do insertAt rows pos (← Row.defaults? types count)
  | erase first last =>
    if first ≤ last ∧ last ≤ rows.length then some (rows.take first ++ rows.drop last) else none
  | pop => if rows.getLast?.all (·.all Datum.hasScalar) then some rows.dropLast else none

def runsOnRows (types : List CellType) : List Row → List RowEdit → Option (List (List Row))
  | _, [] => some []
  | rows, e :: es => do
    let next ← e.onRows types rows
    let later ← runsOnRows types next es
    return next :: later

def place? (rows : Nat) : RowEdit → Option (Nat × Nat)
  | push _ => some (rows, 1)
  | insert pos _ => some (pos, 1)
  | pushFrom .. => some (rows, 1)
  | insertFrom pos .. => some (pos, 1)
  | insertWithin pos _ => some (pos, 1)
  | insertDefaults pos count => some (pos, count)
  | erase .. => none
  | pop => none

end RowEdit

namespace Frame

/-- What a change makes of a frame: one with the same names and types, with `rows?` for its rows, unless
the change is refused. -/
structure Follows (f : Frame) (rows? : Option (List Row)) (r : Except Error Frame) : Prop where
  rows : r.toOption.map rowList = rows?
  header : ∀ g, r = .ok g → g.header = f.header
  sized : ∀ g, r = .ok g → HasRows g.columns g.rowList.length

section Steps

variable {f g : Frame} {n m pos : Nat} {new? : Option (List Row)} {r : Except Error Frame}

theorem follows_of_ok (same : g.header = f.header) (has : HasRows g.columns m) :
    f.Follows (some g.rowList) (.ok g) := by
  have rows := has.length_rowList
  refine ⟨rfl, fun h eq => ?_, fun h eq => ?_⟩
  · cases eq
    exact same
  · cases eq
    rwa [rows]

theorem follows_of_error (err : Error) : f.Follows none (.error err) := ⟨rfl, nofun, nofun⟩

theorem Insertion.follows (insertion : f.Insertion pos new? r) (has : HasRows f.columns n)
    (wide : f.columns ≠ []) : f.Follows (new?.bind (RowEdit.insertAt f.rowList pos)) r := by
  have counted := has.length_rowList
  have height := has.height
  cases insertion with
  | @accepted new g inside inserted =>
    have rows := inserted.rowList has wide (by omega)
    rw [Option.bind_some, RowEdit.insertAt, if_pos (by omega), ← rows]
    exact follows_of_ok inserted.header (inserted.hasRows has wide)
  | beyond _ err far =>
    have nowhere : new?.bind (RowEdit.insertAt f.rowList pos) = none := by
      cases new? with
      | none => rfl
      | some new => rw [Option.bind_some, RowEdit.insertAt, if_neg (by omega)]
    rw [nowhere]
    exact follows_of_error err
  | refused err => exact follows_of_error err

theorem eraseRows_follows (has : HasRows f.columns n) (first last : Nat) :
    f.Follows ((RowEdit.erase first last).onRows f.types f.rowList) (f.eraseRows first last).result := by
  have counted := has.length_rowList
  rw [RowEdit.onRows, counted]
  split
  · next range =>
    obtain ⟨g, erased, shown, left⟩ := eraseRows_spec has range.1 range.2
    rw [erased, ← rowList_of_erase has range.1 range.2 shown left]
    exact follows_of_ok (header_of_erase shown) left
  · next range =>
    rw [eraseRows, atEnd, size_eq_ok_iff.2 has]
    by_cases reversed : last < first
    · simp only [if_pos reversed]
      exact follows_of_error _
    · have beyond : n < last := by omega
      simp only [if_neg reversed, if_pos beyond]
      exact follows_of_error _

theorem exists_of_mapM_data_cons {i : Nat} {c : Column} {cs : List Column} {row : Row}
    (there : ((c :: cs).map fun c => c.contents.data).mapM (·[i]?) = some row) :
    ∃ x rest, c.buffer.items[i]? = some x ∧ (cs.map fun c => c.contents.data).mapM (·[i]?) = some rest ∧
      row = ⟨c.type, x⟩ :: rest := by
  rw [List.map_cons, List.mapM_cons] at there
  obtain ⟨d, head, there⟩ := Option.bind_eq_some_iff.1 there
  obtain ⟨rest, others, same⟩ := Option.bind_eq_some_iff.1 there
  cases same
  obtain ⟨x, found, rfl⟩ : ∃ x, c.buffer.items[i]? = some x ∧ Datum.mk c.type x = d := by
    simpa [Contents.data, Column.contents] using head
  exact ⟨x, rest, found, others, rfl⟩

theorem exists_scalars_iff {i : Nat} {columns : List Column} {row : Row}
    (there : (columns.map fun c => c.contents.data).mapM (·[i]?) = some row) :
    (∃ values, columns.mapM (·.scalarAt i) = .ok values) ↔ row.all Datum.hasScalar := by
  rw [exists_mapM_iff]
  induction columns generalizing row with
  | nil =>
    cases there
    simp
  | cons c cs ih =>
    obtain ⟨x, rest, found, others, rfl⟩ := exists_of_mapM_data_cons there
    have scalar : (∃ s, c.scalarAt i = .ok s) ↔ (Cell.toScalar? c.type x).isSome := by
      rw [Column.scalarAt_of_getElem? found, Cell.toScalar]
      cases Cell.toScalar? c.type x <;> simp
    rw [List.forall_mem_cons, ih others, scalar]
    simp [Datum.hasScalar]

theorem exists_popRow (has : HasRows f.columns (n + 1)) {values : List Scalar} (read : f.row n = .ok values) :
    ∃ g, f.popRow = (.ok (some values), g) ∧ g.header = f.header ∧ HasRows g.columns n ∧
      g.rowList = f.rowList.dropLast := by
  have below : n ≤ n + 1 := Nat.le_succ n
  obtain ⟨g, erased, shown, left⟩ := eraseRows_spec has below (Nat.le_refl _)
  refine ⟨g, ?_, header_of_erase shown, ?_, ?_⟩
  · rw [popRow, atEnd, size_eq_ok_iff.2 has]
    simp only [Nat.succ_ne_zero, if_false, Nat.add_sub_cancel, read, erased]
    rfl
  · simpa using left
  · rw [rowList_of_erase has below (Nat.le_refl _) shown left, List.dropLast_eq_take, has.length_rowList,
      Nat.add_sub_cancel, List.drop_of_length_le (Nat.le_of_eq has.length_rowList), List.append_nil]

theorem popRow_follows (has : HasRows f.columns n) (wide : f.columns ≠ []) :
    f.Follows (RowEdit.pop.onRows f.types f.rowList) f.popRow.result := by
  have counted := has.length_rowList
  rw [RowEdit.onRows]
  cases n with
  | zero =>
    have none : f.rowList = [] := List.length_eq_zero_iff.1 counted
    have kept : f.Follows (some f.rowList) (.ok f) := follows_of_ok rfl has
    rw [popRow, atEnd, size_eq_ok_iff.2 has]
    rw [none] at kept ⊢
    exact kept
  | succ n =>
    have inside : n < f.rowList.length := by omega
    have there : f.rowList[n]? = some f.rowList[n] := List.getElem?_eq_getElem inside
    have last : f.rowList.getLast? = f.rowList[n]? := by
      rw [List.getLast?_eq_getElem?, counted, Nat.add_sub_cancel]
    rw [last, there, Option.all_some]
    rw [getElem?_rowList has wide, rowAt?, contents, List.map_map] at there
    have readable := exists_scalars_iff there
    have row : f.row n = f.columns.mapM (·.scalarAt n) := by rw [Frame.row, size_eq_ok_iff.2 has, ok_bind]
    split
    · next scalars =>
      obtain ⟨values, read⟩ := readable.2 scalars
      obtain ⟨g, popped, header, left, rows⟩ := exists_popRow has (row.trans read)
      rw [popped, ← rows]
      exact follows_of_ok header left
    · next hidden =>
      cases read : f.columns.mapM (·.scalarAt n) with
      | ok values => exact absurd (readable.1 ⟨values, read⟩) hidden
      | error err =>
        rw [popRow, atEnd, size_eq_ok_iff.2 has]
        simp only [Nat.succ_ne_zero, if_false, Nat.add_sub_cancel, row, read]
        exact follows_of_error err

theorem pushRow_eq (has : HasRows f.columns n) (values : List Scalar) :
    f.pushRow values = f.insertRow n values := by
  rw [pushRow, atEnd, size_eq_ok_iff.2 has]

theorem pushRowFrom_eq (has : HasRows f.columns n) (source : Frame) (row : Nat) :
    f.pushRowFrom source row = f.insertRowFrom n source row := by
  rw [pushRowFrom, atEnd, size_eq_ok_iff.2 has]

end Steps

end Frame

namespace RowEdit

open Tabular.Frame

variable {f : Frame} {n : Nat}

structure Puts (f : Frame) (e : RowEdit) (pos count : Nat) (new? : Option (List Row)) : Prop where
  insertion : f.Insertion pos new? (e.run f)
  list : e.onRows f.types f.rowList = new?.bind (insertAt f.rowList pos)
  counted : ∀ new, new? = some new → new.length = count

theorem puts_single {e : RowEdit} {pos : Nat} {row? : Option Row}
    (insertion : f.Insertion pos (row?.map ([·])) (e.run f))
    (list : e.onRows f.types f.rowList = row?.bind fun row => insertAt f.rowList pos [row]) :
    Puts f e pos 1 (row?.map ([·])) := by
  refine ⟨insertion, ?_, fun new some => ?_⟩
  · rw [list]
    cases row? <;> rfl
  · obtain ⟨row, -, rfl⟩ := Option.map_eq_some_iff.1 some
    rfl

theorem exists_puts (has : HasRows f.columns n) (wide : f.columns ≠ []) {e : RowEdit} {pos count : Nat}
    (place : e.place? n = some (pos, count)) : ∃ new?, Puts f e pos count new? := by
  have counted := has.length_rowList
  cases e with
  | push values =>
    cases place
    refine ⟨_, puts_single ?_ (by rw [← counted]; rfl)⟩
    rw [run, pushRow_eq has]
    exact insertRow_insertion has n values
  | insert pos values =>
    cases place
    exact ⟨_, puts_single (insertRow_insertion has pos values) rfl⟩
  | pushFrom source row =>
    cases place
    refine ⟨_, puts_single ?_ (by rw [← counted]; rfl)⟩
    rw [run, pushRowFrom_eq has]
    exact insertRowFrom_insertion has n source row
  | insertFrom pos source row =>
    cases place
    exact ⟨_, puts_single (insertRowFrom_insertion has pos source row) rfl⟩
  | insertWithin pos row =>
    cases place
    exact ⟨_, puts_single (insertRowWithin_insertion has wide pos row) rfl⟩
  | insertDefaults pos count =>
    cases place
    exact ⟨_, insertDefaultRows_insertion has pos count, rfl, fun new made => Row.length_of_defaults? made⟩
  | erase first last => cases place
  | pop => cases place

/-- One change of rows does to the frame what it does to the list of its rows. -/
theorem run_follows (has : HasRows f.columns n) (wide : f.columns ≠ []) (e : RowEdit) :
    f.Follows (e.onRows f.types f.rowList) (e.run f) := by
  cases place : e.place? n with
  | some spot =>
    obtain ⟨new?, puts⟩ := exists_puts has wide place
    rw [puts.list]
    exact puts.insertion.follows has wide
  | none =>
    cases e with
    | erase first last => exact eraseRows_follows has first last
    | pop => exact popRow_follows has wide
    | _ => cases place

theorem wide_of_header {g : Frame} (same : g.header = f.header) (wide : f.columns ≠ []) :
    g.columns ≠ [] := by
  intro none
  have widths := congrArg List.length same
  simp only [header, contents, none, List.length_map, List.length_nil] at widths
  exact wide (List.length_eq_zero_iff.1 widths.symm)

theorem runs_on_rows (has : HasRows f.columns n) (wide : f.columns ≠ []) (edits : List RowEdit) :
    (runs f edits).toOption.map (List.map rowList) = runsOnRows f.types f.rowList edits := by
  induction edits generalizing f n with
  | nil => rfl
  | cons e es ih =>
    obtain ⟨rows, header, sized⟩ := run_follows has wide e
    rw [runs, runsOnRows, ← rows]
    cases ran : e.run f with
    | error err => rfl
    | ok g =>
      have same := header g ran
      have types : g.types = f.types := by rw [g.types_eq, f.types_eq, same]
      have later := ih (sized g ran) (wide_of_header same wide)
      rw [types] at later
      simp only [ok_bind, Except.toOption, Option.map_some, Option.bind_eq_bind, Option.bind_some, ← later]
      cases runs g es <;> rfl

theorem states_of_runs (has : HasRows f.columns n) (wide : f.columns ≠ []) {edits : List RowEdit}
    {states : List Frame} (ran : runs f edits = .ok states) :
    ∀ g ∈ states, g.header = f.header ∧ HasRows g.columns g.rowList.length := by
  induction edits generalizing f n states with
  | nil =>
    cases ran
    exact nofun
  | cons e es ih =>
    obtain ⟨g, first, ran⟩ := bind_eq_ok_iff.1 ran
    obtain ⟨later, rest, same⟩ := bind_eq_ok_iff.1 ran
    cases same
    obtain ⟨-, header, sized⟩ := run_follows has wide e
    have named := header g first
    refine List.forall_mem_cons.2 ⟨⟨named, sized g first⟩, fun h mem => ?_⟩
    obtain ⟨alike, rows⟩ := ih (sized g first) (wide_of_header named wide) rest h mem
    exact ⟨alike.trans named, rows⟩

/-- Any changes of rows, one after the other, in a frame that has columns, all of one length. They are
accepted just if the list of rows has such changes, and then the rows after each of them are what the list
has become. The columns keep their names and types and have one length all the time. What was inserted can
be erased, which gives back the frame that was. -/
theorem runs_refine_rows (sized : f.size = .ok n) (wide : f.columns ≠ []) (edits : List RowEdit) :
    (runs f edits).toOption.map (List.map rowList) = runsOnRows f.types f.rowList edits ∧
    (∀ states, runs f edits = .ok states →
      ∀ g ∈ states, g.header = f.header ∧ g.size = .ok g.rowList.length) ∧
    ∀ (e : RowEdit) (pos count : Nat) (g : Frame), e.place? n = some (pos, count) → e.run f = .ok g →
      ∃ h, g.eraseRows pos (pos + count) = (.ok count, h) ∧ h.contents = f.contents := by
  have has := size_eq_ok_iff.1 sized
  refine ⟨runs_on_rows has wide edits, fun states ran g mem => ?_, fun e pos count g place ran => ?_⟩
  · obtain ⟨header, rows⟩ := states_of_runs has wide ran g mem
    exact ⟨header, size_eq_ok_iff.2 rows⟩
  · obtain ⟨new?, insertion, -, counted⟩ := exists_puts has wide place
    rw [ran] at insertion
    cases insertion with
    | @accepted new _ inside inserted =>
      rw [← counted new rfl]
      exact inserted.erase has wide (by rw [← has.height]; exact inside)

private def shelf : Frame :=
  ⟨[.ofList .text "item" ["pen", "ink"], .ofList (.missing .bool) "sold" [some true, none]], none⟩

private def spare : Frame :=
  ⟨[.ofList .text "name" ["cup"], .ofList (.missing .bool) "flag" [some false, some true]], none⟩

private def entry (item : String) (sold : Option Bool) : Row := [⟨.text, item⟩, ⟨.missing .bool, sold⟩]

theorem runs_refine_rows_shelf :
    shelf.size = .ok 2 ∧ shelf.columns ≠ [] ∧
    (runs shelf [.insert 1 [.utf8 "map"], .insertWithin 0 2, .pushFrom spare 0, .insertDefaults 4 1,
        .erase 1 4, .pop]).toOption.map (List.map rowList) =
      some [[entry "pen" (some true), entry "map" none, entry "ink" none],
        [entry "ink" none, entry "pen" (some true), entry "map" none, entry "ink" none],
        [entry "ink" none, entry "pen" (some true), entry "map" none, entry "ink" none,
          entry "cup" (some false)],
        [entry "ink" none, entry "pen" (some true), entry "map" none, entry "ink" none, entry "" none,
          entry "cup" (some false)],
        [entry "ink" none, entry "" none, entry "cup" (some false)],
        [entry "ink" none, entry "" none]] ∧
    ∀ g, (insertDefaults 1 3).run shelf = .ok g →
      ∃ h, g.eraseRows 1 4 = (.ok 3, h) ∧ h.contents = shelf.contents := by
  have sized : shelf.size = .ok 2 := rfl
  have wide : shelf.columns ≠ [] := List.cons_ne_nil _ _
  obtain ⟨rows, -, undo⟩ := runs_refine_rows sized wide [.insert 1 [.utf8 "map"], .insertWithin 0 2,
    .pushFrom spare 0, .insertDefaults 4 1, .erase 1 4, .pop]
  exact ⟨sized, wide, rows.trans rfl, fun g ran => undo (.insertDefaults 1 3) 1 3 g rfl ran⟩

end RowEdit

end Tabular
