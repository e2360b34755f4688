import Tabular.Group.Aggregate
import Tabular.Proofs.Inference
import Tabular.Proofs.Partition
import Tabular.Proofs.Places

/-! What a group index is summarized to: the key columns at the first row of every bucket, and beside them
what the rows of the buckets come to. A row of the summary has the key of its bucket. -/

namespace Tabular

namespace Column

variable {c d : Column} {values : List Scalar} {rows : List Nat}

theorem shows_iff : c.Shows values ↔ c.buffer.items.mapM (Cell.toScalar c.type) = .ok values := by
  have cell (x : Cell c.type) (v : Scalar) :
      Cell.toScalar c.type x = .ok v ↔ Cell.toScalar? c.type x = some v := by
    rw [Cell.toScalar]
    cases Cell.toScalar? c.type x <;> simp
  rw [Shows, mapM_eq_ok_iff_map cell, eq_comm]

theorem scalars_eq_ok_iff : c.scalars c.length = .ok values ↔ c.Shows values := by
  have read : c.scalars c.length = c.buffer.items.mapM (Cell.toScalar c.type) :=
    mapM_range fun i x there => scalarAt_of_getElem? there
  rw [read, shows_iff]

theorem take_eq_ok (inside : ∀ row ∈ rows, row < c.length) :
    c.take rows = .ok (ofList c.type c.name (valuesAt c.buffer.items rows)) := by
  have cells : (valuesAt c.buffer.items rows).map some = rows.map (c.buffer.items[·]?) :=
    map_some_valuesAt inside
  exact take_eq_ok_iff.2 ⟨_, rfl, by rwa [List.map_map]⟩

theorem eq_of_take (taken : c.take rows = .ok d) :
    d = ofList c.type c.name (valuesAt c.buffer.items rows) ∧ d.length = rows.length := by
  obtain ⟨cells, rfl, same⟩ := take_eq_ok_iff.1 taken
  have counted := congrArg List.length same
  rw [List.map_map] at same
  rw [List.length_map, List.length_map, List.length_map] at counted
  exact ⟨by rw [valuesAt_eq_iff same], counted⟩

theorem Shows.take (shows : c.Shows values) (taken : c.take rows = .ok d) :
    d.Shows (valuesAt values rows) := by
  obtain ⟨rfl, -⟩ := eq_of_take taken
  show (valuesAt c.buffer.items rows).map (Cell.toScalar? c.type) = _
  rw [← valuesAt_map, shows, valuesAt_map]

theorem take_take (taken : c.take rows = .ok d) (inside : ∀ row ∈ rows, row < c.length) {places : List Nat}
    (within : ∀ place ∈ places, place < rows.length) : d.take places = c.take (valuesAt rows places) := by
  obtain ⟨rfl, counted⟩ := eq_of_take taken
  rw [← counted] at within
  rw [take_eq_ok within, take_eq_ok fun row mem => inside row (mem_of_mem_valuesAt mem)]
  exact congrArg (fun cells => Except.ok (ofList c.type c.name cells)) (valuesAt_valuesAt inside places)

theorem mapM_take_take {columns taken : List Column} (took : columns.mapM (·.take rows) = .ok taken)
    (inside : ∀ c ∈ columns, ∀ row ∈ rows, row < c.length) {places : List Nat}
    (within : ∀ place ∈ places, place < rows.length) :
    taken.mapM (·.take places) = columns.mapM (·.take (valuesAt rows places)) :=
  mapM_eq_of_eq_ok took fun c mem _ first => take_take first (inside c mem) within

theorem scalarAt_take (taken : c.take rows = .ok d) (inside : ∀ row ∈ rows, row < c.length) {i row : Nat}
    (there : rows[i]? = some row) : d.scalarAt i = c.scalarAt row := by
  obtain ⟨rfl, -⟩ := eq_of_take taken
  have below : row < c.buffer.items.length := inside row (List.mem_of_getElem? there)
  have found := List.getElem?_eq_getElem below
  have here : (valuesAt c.buffer.items rows)[i]? = c.buffer.items[row]? := getElem?_valuesAt inside there
  rw [scalarAt_of_getElem? found, scalarAt_of_getElem? (here.trans found)]
  rfl

theorem mapM_scalarAt_eq_ok (shows : c.Shows values) (inside : ∀ row ∈ rows, row < values.length) :
    rows.mapM c.scalarAt = .ok (valuesAt values rows) := by
  have read : (List.range values.length).mapM c.scalarAt = .ok values := by
    rw [← shows.length]
    exact scalars_eq_ok_iff.2 shows
  exact mapM_valuesAt read inside

end Column

namespace Scratch

variable {σ : Type} (s : Scratch σ) (c : Column)

theorem map_cells_gather (place : σ) (rows : List Nat) :
    (s.gather c place rows).map s.cells = (rows.mapM c.scalarAt).map (s.cells place ++ ·) := by
  induction rows generalizing place with
  | nil => exact congrArg Except.ok (List.append_nil _).symm
  | cons row rows ih =>
    rw [gather, List.foldlM_cons, List.mapM_cons]
    cases c.scalarAt row with
    | error e => rfl
    | ok cell =>
      rw [ok_bind, ok_bind, pure_bind, ← gather, ih, s.cells_push]
      cases rows.mapM c.scalarAt with
      | error e => rfl
      | ok cells => exact congrArg Except.ok (List.append_assoc ..)

theorem reduce_eq (fold : Fold) (place : σ) (buckets : List Bucket) :
    s.reduce fold c place buckets = buckets.mapM fun b => b.rows.mapM c.scalarAt >>= fold.reduce := by
  induction buckets generalizing place with
  | nil => rfl
  | cons b bs ih =>
    -- What the bucket before left in the place is gone before anything is gathered.
    have gathered : (s.gather c (s.clear place) b.rows).map s.cells = b.rows.mapM c.scalarAt := by
      rw [map_cells_gather, s.cells_clear]
      cases b.rows.mapM c.scalarAt <;> rfl
    rw [reduce, List.mapM_cons, ← gathered]
    cases s.gather c (s.clear place) b.rows with
    | error e => rfl
    | ok next => simp only [Except.map, ok_bind, ih]

end Scratch

namespace Aggregation

theorem values_fold {f : Frame} {c : Column} {column : Nat} (found : f.column column = .ok c) (shared : Bool)
    (op : Fold) (buckets : List Bucket) :
    (fold op column).values shared f buckets =
      buckets.mapM fun b => b.rows.mapM c.scalarAt >>= op.reduce := by
  rw [values, found, ok_bind]
  split
  · exact Scratch.arena.reduce_eq c op .empty buckets
  · exact Scratch.heap.reduce_eq c op #[] buckets

end Aggregation

namespace Frame

theorem ofColumns_eq_ok_iff {columns : List Column} {t : Frame} :
    ofColumns columns = .ok t ↔ t = ⟨columns, none⟩ ∧ ∃ n, HasRows columns n := by
  rw [ofColumns, bind_eq_ok_iff]
  constructor
  · rintro ⟨n, common, same⟩
    exact ⟨(Except.ok.inj same).symm, n, commonLength_eq_ok_iff.1 common⟩
  · rintro ⟨rfl, n, has⟩
    exact ⟨n, commonLength_eq_ok_iff.2 has, rfl⟩

theorem HasRows.eq_length {columns : List Column} {c : Column} {n : Nat} (has : HasRows columns n)
    (mem : c ∈ columns) : HasRows columns c.length := by
  rwa [has.length c mem]

end Frame

namespace GroupIndex

def firstRows (buckets : List Bucket) : List Nat := buckets.map fun b => b.rows.headD 0

theorem firstRows_partition (cells : List (List Scalar)) :
    firstRows (partition cells) = firstPlaces (keysOf cells) :=
  List.map_map

variable {g : GroupIndex} {f t : Frame} {columns : List Column}

theorem exists_summarize_eq (found : g.columns.mapM f.column = .ok columns)
    (aggregations : List (Aggregation Nat)) (options : ScratchOptions) :
    ∃ shared, g.summarize f aggregations options = (do
      let taken ← columns.mapM (·.take (firstRows g.buckets))
      let made ← aggregations.mapM (·.toColumn shared f g.buckets)
      Frame.ofColumns (taken ++ made)) := by
  refine ⟨options.admits ((g.buckets.map Bucket.length).foldl max 0) cellBytes, ?_⟩
  rw [← mapM_bind_of_eq_ok found (·.take (firstRows g.buckets))]
  rfl

theorem exists_of_summarize (found : g.columns.mapM f.column = .ok columns) (wide : columns ≠ [])
    {aggregations : List (Aggregation Nat)} {options : ScratchOptions}
    (summed : g.summarize f aggregations options = .ok t) :
    ∃ taken made, columns.mapM (·.take (firstRows g.buckets)) = .ok taken ∧
      t = ⟨taken ++ made, none⟩ ∧ Frame.HasRows t.columns g.buckets.length := by
  obtain ⟨shared, same⟩ := exists_summarize_eq found aggregations options
  rw [same] at summed
  obtain ⟨taken, keys, summed⟩ := bind_eq_ok_iff.1 summed
  obtain ⟨made, -, summed⟩ := bind_eq_ok_iff.1 summed
  obtain ⟨rfl, n, has⟩ := Frame.ofColumns_eq_ok_iff.1 summed
  refine ⟨taken, made, keys, rfl, ?_⟩
  obtain ⟨c, columns, rfl⟩ := List.exists_cons_of_ne_nil wide
  obtain ⟨d, rest, first, -, rfl⟩ := mapM_cons_eq_ok_iff.1 keys
  have counted : d.length = g.buckets.length := (Column.eq_of_take first).2.trans (List.length_map _)
  rw [← counted]
  exact has.eq_length (List.mem_append_left _ List.mem_cons_self)

end GroupIndex

end Tabular
