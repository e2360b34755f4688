import Tabular.Proofs.Comparisons
import Tabular.Proofs.RowEdits
import Tabular.Proofs.Stacking

/-! A row read as scalars is as good as the row itself where the elements come back from their scalars: put into
the frame it makes the row it was read from. A row that was popped can be pushed again, and a row that is read and
inserted lands where a copy of the row would. -/

namespace Tabular

theorem zipWith_cons_inj {α : Type} {xs ys : List α} {rows rows' : List (List α)}
    (counted : xs.length = rows.length) (counted' : ys.length = rows'.length)
    (same : List.zipWith List.cons xs rows = List.zipWith List.cons ys rows') : xs = ys ∧ rows = rows' := by
  have injective : Function.Injective fun p : α × List α => p.1 :: p.2 := by
    rintro ⟨x, row⟩ ⟨y, row'⟩ alike
    cases alike
    rfl
  rw [← List.map_uncurry_zip_eq_zipWith, ← List.map_uncurry_zip_eq_zipWith] at same
  have split := congrArg List.unzip (List.map_injective_iff.2 injective same)
  rw [List.unzip_zip counted, List.unzip_zip counted'] at split
  exact Prod.mk.inj split

theorem across_inj {α : Type} {n : Nat} {xs ys : List (List α)} (counted : xs.length = ys.length)
    (long : ∀ x ∈ xs, x.length = n) (long' : ∀ y ∈ ys, y.length = n) (same : across n xs = across n ys) :
    xs = ys := by
  induction xs generalizing ys with
  | nil => exact (List.length_eq_zero_iff.1 counted.symm).symm
  | cons x xs ih =>
    obtain ⟨y, ys, rfl⟩ := List.exists_cons_of_length_eq_add_one counted.symm
    obtain ⟨head, tail⟩ := List.forall_mem_cons.1 long
    obtain ⟨head', tail'⟩ := List.forall_mem_cons.1 long'
    have counted' : x.length = (across n xs).length := by rw [head, length_across tail]
    have counted'' : y.length = (across n ys).length := by rw [head', length_across tail']
    obtain ⟨rfl, others⟩ := zipWith_cons_inj counted' counted'' same
    rw [ih (Nat.succ.inj counted) tail tail' others]

namespace CellType

/-- Types whose elements are there and are known again by their scalars. Single precision is not among them: a
not-a-number that signals comes back quiet. -/
def exact : CellType → Bool
  | int _ | float64 | bool | text => true
  | float32 | foreign _ | missing _ => false

def restorable : CellType → Bool
  | missing t => t.exact
  | t => t.exact

theorem restorable_iff {t : CellType} :
    t.restorable = true ↔ t.exact = true ∨ ∃ u, t = missing u ∧ u.exact = true := by
  cases t <;> simp [restorable, exact]

end CellType

namespace Cell

variable {t : CellType}

theorem exists_scalar_of_exact (exact : t.exact = true) (x : Cell t) :
    ∃ v, toScalar? t x = some v ∧ v ≠ .absent ∧ ofScalar? t v = some x := by
  cases t with
  | int w =>
    refine ⟨_, rfl, nofun, ?_⟩
    rw [ofScalar?, IntWidth.toInt_ofInt]
    exact dif_pos x.property
  | float32 | foreign name | missing t => cases exact
  | float64 | bool | text => exact ⟨_, rfl, nofun, rfl⟩

theorem exists_scalar (restorable : t.restorable = true) (x : Cell t) :
    ∃ v, toScalar? t x = some v ∧ ofScalar? t v = some x := by
  rcases CellType.restorable_iff.1 restorable with exact | ⟨u, rfl, exact⟩
  · obtain ⟨v, shown, -, taken⟩ := exists_scalar_of_exact exact x
    exact ⟨v, shown, taken⟩
  · cases x with
    | none => exact ⟨.absent, rfl, rfl⟩
    | some x =>
      obtain ⟨v, shown, present, taken⟩ := exists_scalar_of_exact exact x
      exact ⟨v, shown, by rw [ofScalar?_missing present, taken]; rfl⟩

example : (toScalar? .float32 ⟨0x7F800001⟩).bind (ofScalar? .float32) = some ⟨0x7FC00001⟩ := by decide

end Cell

namespace Frame

variable {f g h : Frame} {n pos : Nat}

theorem contents_of_rowList (hf : HasRows f.columns n) (hg : HasRows g.columns n) (header : g.header = f.header)
    (rows : g.rowList = f.rowList) : g.contents = f.contents := by
  refine Contents.map_ext_data header (across_inj ?_ hg.data hf.data ?_)
  · simpa [Frame.header] using congrArg List.length header
  · rw [← hg.rowList, ← hf.rowList, rows]

theorem HasRows.wide (has : HasRows f.columns n) (filled : 0 < n) : f.columns ≠ [] :=
  fun none => filled.ne' (has.empty none)

theorem exists_scalars {i : Nat} {columns : List Column} {row : Row}
    (restorable : ∀ c ∈ columns, c.type.restorable = true)
    (there : (columns.map fun c => c.contents.data).mapM (·[i]?) = some row) :
    ∃ values, columns.mapM (·.scalarAt i) = .ok values ∧
      Row.ofScalars? (columns.map Column.type) values = some row := by
  induction columns generalizing row with
  | nil =>
    cases there
    exact ⟨[], rfl, rfl⟩
  | cons c cs ih =>
    obtain ⟨first, others⟩ := List.forall_mem_cons.1 restorable
    obtain ⟨x, rest, found, tail, rfl⟩ := exists_of_mapM_data_cons there
    obtain ⟨v, shown, taken⟩ := Cell.exists_scalar first x
    obtain ⟨values, read, made⟩ := ih others tail
    refine ⟨v :: values, mapM_cons_eq_ok_iff.2 ⟨v, values, ?_, read, rfl⟩, ?_⟩
    · rw [Column.scalarAt_of_getElem? found, Cell.toScalar, shown]
    · simp [Row.ofScalars?, Row.cell?, taken, made]

theorem exists_row (has : HasRows f.columns n) (restorable : ∀ c ∈ f.columns, c.type.restorable = true) {r : Nat}
    (inside : r < n) :
    ∃ values row, f.row r = .ok values ∧ f.rowList[r]? = some row ∧ Row.ofScalars? f.types values = some row := by
  have wide := has.wide (Nat.zero_lt_of_lt inside)
  have below : r < f.rowList.length := by rwa [has.length_rowList]
  have there := List.getElem?_eq_getElem below
  have across := there
  rw [getElem?_rowList has wide, rowAt?, contents, List.map_map] at across
  obtain ⟨values, read, made⟩ := exists_scalars restorable across
  exact ⟨values, _, by rw [row, size_eq_ok_iff.2 has, ok_bind, read], there, made⟩

theorem Insertion.exists_inserted {new : List Row} {o : Outcome Frame Unit}
    (insertion : f.Insertion pos (some new) o.result) (has : HasRows f.columns n) (inside : pos ≤ n) :
    ∃ g, o = (.ok (), g) ∧ f.Inserted pos new g := by
  obtain ⟨answer, after⟩ := o
  generalize result : Outcome.result (answer, after) = r at insertion
  cases insertion with
  | accepted _ inserted =>
    obtain ⟨_, rfl, rfl⟩ := map_eq_ok_iff.1 result
    exact ⟨_, rfl, inserted⟩
  | beyond _ err far =>
    rw [has.height] at far
    exact absurd inside (Nat.not_le.2 far)

theorem Inserted.contents_eq {new : List Row} (inserted : f.Inserted pos new g) (also : f.Inserted pos new h)
    (has : HasRows f.columns n) (wide : f.columns ≠ []) (inside : pos ≤ n) : g.contents = h.contents := by
  refine contents_of_rowList (also.hasRows has wide) (inserted.hasRows has wide) ?_ ?_
  · rw [inserted.header, also.header]
  · rw [inserted.rowList has wide inside, also.rowList has wide inside]

theorem exists_insertRow_row (has : HasRows f.columns n) (restorable : ∀ c ∈ f.columns, c.type.restorable = true)
    {r : Nat} (there : r < n) (inside : pos ≤ n) :
    ∃ values g h, f.row r = .ok values ∧ f.insertRow pos values = (.ok (), g) ∧
      f.insertRowWithin pos r = (.ok (), h) ∧ g.contents = h.contents := by
  have wide := has.wide (Nat.zero_lt_of_lt there)
  obtain ⟨values, row, read, found, made⟩ := exists_row has restorable there
  have written := insertRow_insertion has pos values
  have copied := insertRowWithin_insertion has wide pos r
  rw [made] at written
  rw [found] at copied
  obtain ⟨g, inserted, new⟩ := written.exists_inserted has inside
  obtain ⟨h, inserted', new'⟩ := copied.exists_inserted has inside
  exact ⟨values, g, h, read, inserted, inserted', new.contents_eq new' has wide inside⟩

theorem exists_pushRow_popRow (has : HasRows f.columns (n + 1))
    (restorable : ∀ c ∈ f.columns, c.type.restorable = true) :
    ∃ values g h, f.row n = .ok values ∧ f.popRow = (.ok (some values), g) ∧ g.header = f.header ∧
      HasRows g.columns n ∧ g.rowList = f.rowList.dropLast ∧ g.pushRow values = (.ok (), h) ∧
      h.contents = f.contents := by
  obtain ⟨values, row, read, found, made⟩ := exists_row has restorable (Nat.lt_succ_self n)
  obtain ⟨g, popped, header, left, rows⟩ := exists_popRow has read
  have wide := RowEdit.wide_of_header header (has.wide (Nat.succ_pos n))
  have written := insertRow_insertion left n values
  rw [types_eq, header, ← types_eq, made] at written
  obtain ⟨h, pushed, new⟩ := written.exists_inserted left (Nat.le_refl n)
  have last : row ∈ f.rowList.getLast? := by
    rw [List.getLast?_eq_getElem?, has.length_rowList]
    exact found
  have restored : h.rowList = f.rowList := by
    have counted := Nat.le_of_eq left.length_rowList
    rw [new.rowList left wide (Nat.le_refl n), List.take_of_length_le counted, List.drop_of_length_le counted,
      List.append_nil, rows, List.dropLast_append_getLast? row last]
  refine ⟨values, g, h, read, popped, header, left, rows, ?_, ?_⟩
  · rw [pushRow_eq left, pushed]
  · exact contents_of_rowList has (new.hasRows left wide) (new.header.trans header) restored

/-- In a frame with rows whose elements are integers, doubles, truth values or texts, some of them missing, a row is
as good as its scalars. The last row is popped, which leaves the rows before it, and pushed again, which leaves the
frame that was. Any row, read and put before any position, makes what a copy of the row makes there. -/
theorem row_snapshots_faithful (sized : f.size = .ok n) (filled : 0 < n)
    (restorable : ∀ c ∈ f.columns, c.type.restorable = true) :
    (∃ values g h, f.row (n - 1) = .ok values ∧
      f.popRow = (.ok (some values), g) ∧ g.header = f.header ∧ g.size = .ok (n - 1) ∧
        g.rowList = f.rowList.dropLast ∧
      g.pushRow values = (.ok (), h) ∧ h.contents = f.contents) ∧
    ∀ r pos, r < n → pos ≤ n → ∃ values g h, f.row r = .ok values ∧
      f.insertRow pos values = (.ok (), g) ∧ f.insertRowWithin pos r = (.ok (), h) ∧ g.contents = h.contents := by
  have has := size_eq_ok_iff.1 sized
  refine ⟨?_, fun r pos there inside => exists_insertRow_row has restorable there inside⟩
  obtain ⟨m, rfl⟩ := Nat.exists_eq_add_of_lt filled
  rw [Nat.zero_add] at has
  obtain ⟨values, g, h, read, popped, header, left, rows, pushed, restored⟩ := exists_pushRow_popRow has restorable
  have size : g.size = .ok m := size_eq_ok_iff.2 left
  rw [Nat.zero_add, Nat.add_sub_cancel]
  exact ⟨values, g, h, read, popped, header, size, rows, pushed, restored⟩

private def moorings : Frame :=
  ⟨[.ofList (.int .i8) "shift" [⟨-128, by decide⟩, ⟨127, by decide⟩],
    .ofList (.missing .float64) "level" [some ⟨0x7FF8000000000001⟩, none],
    .ofList .text "station" ["", "pier"]], none⟩

theorem row_snapshots_faithful_moorings :
    moorings.size = .ok 2 ∧ (∀ c ∈ moorings.columns, c.type.restorable = true) ∧
    (∃ g h, moorings.popRow = (.ok (some [.int64 127, .absent, .utf8 "pier"]), g) ∧
      g.pushRow [.int64 127, .absent, .utf8 "pier"] = (.ok (), h) ∧ h.contents = moorings.contents) ∧
    ∃ g h, moorings.insertRow 2 [.int64 (-128), .float64 ⟨0x7FF8000000000001⟩, .utf8 ""] = (.ok (), g) ∧
      moorings.insertRowWithin 2 0 = (.ok (), h) ∧ g.contents = h.contents := by
  have sized : moorings.size = .ok 2 := rfl
  have restorable : ∀ c ∈ moorings.columns, c.type.restorable = true := by decide
  have first : moorings.row 0 = .ok [.int64 (-128), .float64 ⟨0x7FF8000000000001⟩, .utf8 ""] := by decide
  have last : moorings.row 1 = .ok [.int64 127, .absent, .utf8 "pier"] := by decide
  obtain ⟨⟨values, g, h, read, popped, -, -, -, pushed, restored⟩, inserts⟩ :=
    row_snapshots_faithful sized (by decide) restorable
  obtain ⟨values', g', h', read', written, copied, alike⟩ := inserts 0 2 (by decide) (by decide)
  cases Except.ok.inj (last.symm.trans read)
  cases Except.ok.inj (first.symm.trans read')
  exact ⟨sized, restorable, ⟨g, h, popped, pushed, restored⟩, g', h', written, copied, alike⟩

end Frame

end Tabular
