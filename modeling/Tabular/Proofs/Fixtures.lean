import Tabular.Fixture
import Tabular.Proofs.Summaries

/-! Frames written down as bare scalars and made again. What a column shows is of one kind, however narrow or
often lifted its type is, and so the column that is inferred of it takes every value as it is. The types are lost on
the way; names, rows and cells are not. -/

namespace Tabular

namespace Column

variable {c d : Column} {values : List Scalar}

/-- All elements of the column have a scalar form. -/
def Readable (c : Column) : Prop := ∀ x ∈ c.buffer.items, (Cell.toScalar? c.type x).isSome

instance (c : Column) : Decidable c.Readable := inferInstanceAs (Decidable (∀ x ∈ c.buffer.items, _))

theorem readable_iff : c.Readable ↔ ∃ values, c.Shows values := by
  simp only [Shows, eq_comm (a := c.buffer.items.map _), exists_map_some_iff]
  rfl

theorem scalarAt_of_length_le {i : Nat} (beyond : c.length ≤ i) :
    c.scalarAt i = .error (.indexOutOfRange i c.length) := by
  have none : c.buffer.items[i]? = none := List.getElem?_eq_none beyond
  have refused : c.buffer.get i = .error (.indexOutOfRange i c.length) := by
    rw [Buffer.get, none]
    rfl
  exact congrArg (· >>= Cell.toScalar c.type) refused

theorem Shows.scalarAt_eq_get (shows : c.Shows values) : c.scalarAt = (Buffer.ofList values).get := by
  funext i
  rw [Buffer.get, show (Buffer.ofList values).items = values from rfl]
  cases there : values[i]? with
  | some v => exact shows.scalarAt there
  | none =>
    have beyond : values.length ≤ i := List.getElem?_eq_none_iff.1 there
    rw [← shows.length] at beyond
    rw [scalarAt_of_length_le beyond, shows.length]
    rfl

end Column

namespace FixtureColumn

variable {c : Column} {e : FixtureColumn}

theorem ofColumn_eq_ok_iff : ofColumn c c.length = .ok e ↔ c.name = e.name ∧ c.Shows e.values := by
  rw [ofColumn, bind_eq_ok_iff, ← Column.scalars_eq_ok_iff]
  constructor
  · rintro ⟨values, read, same⟩
    cases same
    exact ⟨rfl, read⟩
  · rintro ⟨named, read⟩
    exact ⟨e.values, read, by rw [named]; rfl⟩

theorem exists_ofColumn_iff : (∃ e, ofColumn c c.length = .ok e) ↔ c.Readable := by
  rw [Column.readable_iff]
  constructor
  · rintro ⟨e, read⟩
    exact ⟨e.values, (ofColumn_eq_ok_iff.1 read).2⟩
  · rintro ⟨values, shown⟩
    exact ⟨⟨c.name, values⟩, ofColumn_eq_ok_iff.2 ⟨rfl, shown⟩⟩

theorem shows_of_toColumn {k : Kind} (uniform : Uniform k e.values) (made : e.toColumn = .ok c) :
    c.name = e.name ∧ c.Shows e.values := by
  obtain ⟨-, -, named, -⟩ := Column.of_infer made
  exact ⟨named, Column.shows_of_infer made uniform.unmixed⟩

end FixtureColumn

namespace Fixture

open Tabular.Frame (HasRows)

variable {f g : Frame} {x : Fixture} {n : Nat}

theorem ofFrame_eq_ok_iff (has : HasRows f.columns n) :
    ofFrame f = .ok x ↔ f.columns.mapM (fun c => FixtureColumn.ofColumn c c.length) = .ok x.columns := by
  have lengths : f.columns.mapM (FixtureColumn.ofColumn · n) =
      f.columns.mapM fun c => FixtureColumn.ofColumn c c.length :=
    mapM_congr fun c mem => by rw [has.length c mem]
  rw [ofFrame, Frame.size_eq_ok_iff.2 has, ok_bind, lengths, bind_eq_ok_iff]
  constructor
  · rintro ⟨columns, read, same⟩
    cases same
    exact read
  · intro read
    exact ⟨x.columns, read, rfl⟩

/-- There are columns of `n` values each, and none of them mixes kinds. -/
structure Plain (x : Fixture) (n : Nat) : Prop where
  length : ∀ e ∈ x.columns, e.values.length = n
  uniform : ∀ e ∈ x.columns, ∃ k, Uniform k e.values
  empty : x.columns = [] → n = 0

theorem Plain.exists_columns (plain : x.Plain n) :
    ∃ columns, x.columns.mapM FixtureColumn.toColumn = .ok columns ∧
      columns.mapM (fun c => FixtureColumn.ofColumn c c.length) = .ok x.columns := by
  have inferred : ∀ e ∈ x.columns, ∃ c, e.toColumn = .ok c := by
    intro e mem
    obtain ⟨k, uniform⟩ := plain.uniform e mem
    obtain ⟨t, cells, made⟩ := Column.exists_infer_of_uniform uniform
    exact ⟨_, (made e.name).1⟩
  obtain ⟨columns, made⟩ := exists_mapM_iff.2 inferred
  have back : columns.mapM (fun c => FixtureColumn.ofColumn c c.length) = x.columns.mapM .ok := by
    refine mapM_eq_of_eq_ok made fun e mem c made => ?_
    obtain ⟨k, uniform⟩ := plain.uniform e mem
    exact FixtureColumn.ofColumn_eq_ok_iff.2 (FixtureColumn.shows_of_toColumn uniform made)
  refine ⟨columns, made, ?_⟩
  rw [back, mapM_eq_ok_iff, List.forall₂_same]
  exact fun _ _ => rfl

theorem Plain.exists_toFrame (plain : x.Plain n) :
    ∃ g, x.toFrame = .ok g ∧ HasRows g.columns n ∧ ofFrame g = .ok x := by
  obtain ⟨columns, made, read⟩ := plain.exists_columns
  have has : HasRows columns n := by
    refine ⟨fun c mem => ?_, fun none => plain.empty ?_⟩
    · obtain ⟨e, written, made⟩ := exists_of_mem_mapM made mem
      obtain ⟨k, uniform⟩ := plain.uniform e written
      rw [(FixtureColumn.shows_of_toColumn uniform made).2.length, plain.length e written]
    · exact List.length_eq_zero_iff.1 ((length_mapM made).symm.trans (congrArg List.length none))
  refine ⟨⟨columns, none⟩, ?_, has, (ofFrame_eq_ok_iff has).2 read⟩
  rw [toFrame, made, ok_bind]
  exact Frame.ofColumns_eq_ok_iff.2 ⟨rfl, n, has⟩

theorem exists_ofFrame (has : HasRows f.columns n) (readable : ∀ c ∈ f.columns, c.Readable) :
    ∃ x, ofFrame f = .ok x ∧ x.Plain n := by
  obtain ⟨columns, read⟩ := exists_mapM_iff.2 fun c mem =>
    FixtureColumn.exists_ofColumn_iff.2 (readable c mem)
  have written : ∀ e ∈ columns, e.values.length = n ∧ ∃ k, Uniform k e.values := by
    intro e mem
    obtain ⟨c, source, made⟩ := exists_of_mem_mapM read mem
    obtain ⟨-, shown⟩ := FixtureColumn.ofColumn_eq_ok_iff.1 made
    exact ⟨by rw [← shown.length, has.length c source], _, shown.uniform⟩
  refine ⟨⟨columns⟩, (ofFrame_eq_ok_iff has).2 read, ?_⟩
  refine ⟨fun e mem => (written e mem).1, fun e mem => (written e mem).2, fun none => has.empty ?_⟩
  exact List.length_eq_zero_iff.1 ((length_mapM read).symm.trans (congrArg List.length none))

theorem same_of_ofFrame {m : Nat} (hf : HasRows f.columns n) (hg : HasRows g.columns m) (left : ofFrame f = .ok x)
    (right : ofFrame g = .ok x) :
    g.names = f.names ∧ g.columns.map Column.scalarAt = f.columns.map Column.scalarAt := by
  have described {h : Frame} {k : Nat} (has : HasRows h.columns k) (read : ofFrame h = .ok x) :
      h.names = x.columns.map FixtureColumn.name ∧
        h.columns.map Column.scalarAt = x.columns.map fun e => (Buffer.ofList e.values).get := by
    have written := (ofFrame_eq_ok_iff has).1 read
    refine ⟨map_eq_map_of_mapM written fun c e made => ?_, map_eq_map_of_mapM written fun c e made => ?_⟩
    · exact (FixtureColumn.ofColumn_eq_ok_iff.1 made).1
    · exact (FixtureColumn.ofColumn_eq_ok_iff.1 made).2.scalarAt_eq_get
  obtain ⟨names, cells⟩ := described hf left
  obtain ⟨names', cells'⟩ := described hg right
  exact ⟨names'.trans names.symm, cells'.trans cells.symm⟩

/-- A frame whose elements all have a scalar form can be written down as a fixture, and the fixture makes a frame
of the same names, rows and cells, for which the same is written down. A fixture of columns of one length that do
not mix kinds comes back from the frame it makes. -/
theorem round_trips :
    (∀ (f : Frame) (n : Nat), f.size = .ok n → (∀ c ∈ f.columns, c.Readable) →
      ∃ x g, ofFrame f = .ok x ∧ x.toFrame = .ok g ∧ g.names = f.names ∧ g.size = .ok n ∧
        g.columns.map Column.scalarAt = f.columns.map Column.scalarAt ∧ ofFrame g = .ok x) ∧
    ∀ (x : Fixture) (n : Nat), (∀ e ∈ x.columns, e.values.length = n) →
      (∀ e ∈ x.columns, ∃ k, Uniform k e.values) → ∃ f, x.toFrame = .ok f ∧ ofFrame f = .ok x := by
  constructor
  · intro f n sized readable
    have has := Frame.size_eq_ok_iff.1 sized
    obtain ⟨x, written, plain⟩ := exists_ofFrame has readable
    obtain ⟨g, made, has', read⟩ := plain.exists_toFrame
    obtain ⟨names, cells⟩ := same_of_ofFrame has has' written read
    exact ⟨x, g, written, made, names, Frame.size_eq_ok_iff.2 has', cells, read⟩
  · intro x n length uniform
    -- A fixture without columns has no rows, whatever length its columns were said to have.
    obtain ⟨m, plain⟩ : ∃ m, x.Plain m := by
      by_cases none : x.columns = []
      · exact ⟨0, by simp [none], uniform, fun _ => rfl⟩
      · exact ⟨n, length, uniform, fun empty => absurd empty none⟩
    obtain ⟨f, made, -, read⟩ := plain.exists_toFrame
    exact ⟨f, made, read⟩

private def harvest : Frame :=
  ⟨[.ofList (.int .u8) "crates" [⟨255, by decide⟩, ⟨0, by decide⟩],
    .ofList .float32 "weight" [⟨0x3DCCCCCD⟩, ⟨0x7FC00000⟩],
    .ofList (.missing (.missing .text)) "note" [some (some "ripe"), some none]], none⟩

private def harvestNotes : Fixture :=
  ⟨[⟨"crates", [.int64 255, .int64 0]⟩,
    ⟨"weight", [.float64 ⟨0x3FB99999A0000000⟩, .float64 ⟨0x7FF8000000000000⟩]⟩,
    ⟨"note", [.utf8 "ripe", .absent]⟩]⟩

theorem round_trips_harvest :
    ofFrame harvest = .ok harvestNotes ∧
    (∃ g, harvestNotes.toFrame = .ok g ∧ g.columns.map Column.type = [.int .i64, .float64, .missing .text] ∧
      g.size = .ok 2 ∧ g.columns.map Column.scalarAt = harvest.columns.map Column.scalarAt ∧
      ofFrame g = .ok harvestNotes) ∧
    ∃ f, toFrame ⟨[⟨"seen", [.absent, .absent]⟩, ⟨"kept", [.bool true, .absent]⟩]⟩ = .ok f ∧
      ofFrame f = .ok ⟨[⟨"seen", [.absent, .absent]⟩, ⟨"kept", [.bool true, .absent]⟩]⟩ := by
  have written : ofFrame harvest = .ok harvestNotes := by decide
  refine ⟨written, ?_, round_trips.2 _ 2 ?_ ?_⟩
  · obtain ⟨x, g, reads, made, -, size, cells, again⟩ := round_trips.1 harvest 2 (by decide) (by decide)
    obtain rfl : harvestNotes = x := Except.ok.inj (written.symm.trans reads)
    have types : harvestNotes.toFrame.map (fun g => g.columns.map Column.type) =
        .ok [.int .i64, .float64, .missing .text] := by decide
    rw [made] at types
    exact ⟨g, made, Except.ok.inj types, size, cells, again⟩
  · simp
  · simp only [List.forall_mem_cons]
    exact ⟨⟨.bool, by simp [Uniform]⟩, ⟨.bool, by simp [Uniform, Scalar.kind]⟩, nofun⟩

end Fixture

end Tabular
