import Tabular.Proofs.Gather
import Tabular.Proofs.Slots

/-! A group index says of every row in which bucket it is. Each row is in one bucket, rows are together if
their keys are equal in all key columns, and a bucket lists its rows in their order. The first of them
gives the bucket its key and its place among the buckets. -/

namespace Tabular

def Frame.cellAt (f : Frame) (i row : Nat) : Except Error Scalar := do (← f.column i).scalarAt row

namespace GroupIndex

section Cells

variable {cells : List (List Scalar)} {k : List Key} {b : Bucket} {row row' : Nat}

theorem mem_partition : b ∈ partition cells ↔ ∃ k ∈ keysOf cells, bucketOf cells k = b := by
  simp only [partition, List.mem_map, List.mem_eraseDups]

theorem mem_rows_bucketOf : row ∈ (bucketOf cells k).rows ↔ (keysOf cells)[row]? = some k := mem_placesOf

theorem rows_ne_nil_of_mem (met : b ∈ partition cells) : b.rows ≠ [] := by
  obtain ⟨k, known, rfl⟩ := mem_partition.1 met
  exact fun none => placesOf_eq_nil_iff.1 none known

theorem pairwise_rows_of_mem (met : b ∈ partition cells) : b.rows.Pairwise (· < ·) := by
  obtain ⟨k, -, rfl⟩ := mem_partition.1 met
  exact pairwise_placesOf _ _

theorem lt_of_mem_rows (met : b ∈ partition cells) (inside : row ∈ b.rows) : row < cells.length := by
  obtain ⟨k, -, rfl⟩ := mem_partition.1 met
  have below := (List.getElem?_eq_some_iff.1 (mem_rows_bucketOf.1 inside)).1
  rwa [keysOf, List.length_map] at below

theorem existsUnique_bucket (below : row < cells.length) :
    ∃! i : Nat, ∃ b : Bucket, (partition cells)[i]? = some b ∧ row ∈ b.rows := by
  have there : row < (keysOf cells).length := by rwa [keysOf, List.length_map]
  have own := List.getElem?_eq_getElem there
  have known : (keysOf cells)[row] ∈ (keysOf cells).eraseDups :=
    List.mem_eraseDups.2 (List.getElem_mem there)
  obtain ⟨i, place⟩ := List.mem_iff_getElem?.1 known
  refine ⟨i, ⟨bucketOf cells (keysOf cells)[row], ?_, mem_rows_bucketOf.2 own⟩, ?_⟩
  · rw [partition, List.getElem?_map, place, Option.map_some]
  · rintro j ⟨b, found, inside⟩
    rw [partition, List.getElem?_map] at found
    obtain ⟨k, place', rfl⟩ := Option.map_eq_some_iff.1 found
    have same : some (keysOf cells)[row] = some k := own.symm.trans (mem_rows_bucketOf.1 inside)
    have within := (List.getElem?_eq_some_iff.1 place').1
    exact (List.getElem?_inj within (nodup_eraseDups _)).1 (by rw [place', place, same])

theorem together_iff (below : row < cells.length) :
    (∃ b ∈ partition cells, row ∈ b.rows ∧ row' ∈ b.rows) ↔
      (keysOf cells)[row]? = (keysOf cells)[row']? := by
  constructor
  · rintro ⟨b, met, inside, inside'⟩
    obtain ⟨k, -, rfl⟩ := mem_partition.1 met
    rw [mem_rows_bucketOf.1 inside, mem_rows_bucketOf.1 inside']
  · intro same
    have there : row < (keysOf cells).length := by rwa [keysOf, List.length_map]
    have own := List.getElem?_eq_getElem there
    refine ⟨_, mem_partition.2 ⟨_, List.getElem_mem there, rfl⟩, mem_rows_bucketOf.2 own, ?_⟩
    exact mem_rows_bucketOf.2 (same.symm.trans own)

theorem pairwise_partition (cells : List (List Scalar)) :
    (partition cells).Pairwise fun a b =>
      ∃ i j, a.rows.head? = some i ∧ b.rows.head? = some j ∧ i < j := by
  rw [partition, List.pairwise_map]
  exact pairwise_eraseDups (keysOf cells)

theorem getElem?_of_head?_rows (met : b ∈ partition cells) (first : b.rows.head? = some row) :
    cells[row]? = some b.key := by
  obtain ⟨k, known, rfl⟩ := mem_partition.1 met
  obtain ⟨c, found⟩ := Option.isSome_iff_exists.1 (isSome_find?_of_mem known)
  have place : (placesOf (keysOf cells) k).head? = some row := first
  have there := find?_eq_head?_placesOf (List.map Scalar.key) cells k
  rw [found, ← keysOf, place, Option.bind_some] at there
  rw [← there, bucketOf, found, Option.getD_some]

theorem find?_eq_some_iff (k : List Key) :
    (partition cells).find? (fun b => b.keys = k) = some b ↔ b ∈ partition cells ∧ b.keys = k := by
  rw [find?_partition]
  constructor
  · intro found
    split at found
    · next met =>
      cases found
      exact ⟨mem_partition.2 ⟨k, met, rfl⟩, keys_bucketOf met⟩
    · cases found
  · rintro ⟨met, named⟩
    obtain ⟨j, known, rfl⟩ := mem_partition.1 met
    obtain rfl := (keys_bucketOf known).symm.trans named
    rw [if_pos known]

end Cells

/-- Buckets of the rows of a frame by their keys in some columns. -/
structure Partitions (f : Frame) (keys : List Nat) (rows : Nat) (buckets : List Bucket) : Prop where
  nonempty : ∀ b ∈ buckets, b.rows ≠ []
  increasing : ∀ b ∈ buckets, b.rows.Pairwise (· < ·)
  inside : ∀ b ∈ buckets, ∀ row ∈ b.rows, row < rows
  unique : ∀ row < rows, ∃! i : Nat, ∃ b : Bucket, buckets[i]? = some b ∧ row ∈ b.rows
  together : ∀ row < rows, ∀ row' < rows, (∃ b ∈ buckets, row ∈ b.rows ∧ row' ∈ b.rows) ↔
    ∀ i ∈ keys, (f.cellAt i row).map Scalar.key = (f.cellAt i row').map Scalar.key
  ordered : buckets.Pairwise fun a b => ∃ i j, a.rows.head? = some i ∧ b.rows.head? = some j ∧ i < j
  key : ∀ b ∈ buckets, ∀ row, b.rows.head? = some row → keys.mapM (f.cellAt · row) = .ok b.key

variable {f : Frame} {keys : List Nat} {n : Nat}

theorem partitions_of_cells {cells : List (List Scalar)}
    (read : (List.range n).mapM (fun row => keys.mapM (f.cellAt · row)) = .ok cells) :
    Partitions f keys n (partition cells) := by
  have counted := length_mapM read
  rw [List.length_range] at counted
  have each (row : Nat) (c : List Scalar) (there : cells[row]? = some c) :
      keys.mapM (f.cellAt · row) = .ok c := by
    obtain ⟨i, place, made⟩ := exists_of_getElem?_mapM read there
    obtain ⟨_, rfl⟩ := List.getElem?_eq_some_iff.1 place
    simpa using made
  exact {
    nonempty := fun _ met => rows_ne_nil_of_mem met
    increasing := fun _ met => pairwise_rows_of_mem met
    inside := by
      intro b met row inside
      rw [← counted]
      exact lt_of_mem_rows met inside
    unique := by
      intro row below
      rw [← counted] at below
      exact existsUnique_bucket below
    together := by
      intro row below row' below'
      rw [← counted] at below below'
      have made := each row _ (List.getElem?_eq_getElem below)
      have made' := each row' _ (List.getElem?_eq_getElem below')
      rw [together_iff below, ← map_eq_map_iff_of_mapM made made' Scalar.key]
      simp [keysOf, below, below']
    ordered := pairwise_partition cells
    key := fun _ met row first => each row _ (getElem?_of_head?_rows met first) }

theorem exists_cellAt {i row : Nat} {c : Column} (has : Frame.HasRows f.columns n)
    (there : f.columns[i]? = some c)
    (scalars : ∀ x ∈ c.contents.cells, (Cell.toScalar? c.type x).isSome) (below : row < n) :
    ∃ v, f.cellAt i row = .ok v := by
  have inside : row < c.buffer.items.length := by
    rw [← has.length c (List.mem_of_getElem? there)] at below
    exact below
  obtain ⟨v, shown⟩ := Option.isSome_iff_exists.1 (scalars _ (List.getElem_mem inside))
  refine ⟨v, ?_⟩
  rw [Frame.cellAt, Frame.column, there, ok_bind,
    Column.scalarAt_of_getElem? (List.getElem?_eq_getElem inside), Cell.toScalar, shown]

/-- An index of rows whose key cells have scalar forms can be built. It is the partition of the rows by
their keys, and it finds the bucket of a key just if there is one. A table of slots does the same. -/
theorem build_partitions (sized : f.size = .ok n) (wide : keys ≠ [])
    (readable : ∀ i ∈ keys, ∃ c, f.columns[i]? = some c ∧
      ∀ x ∈ c.contents.cells, (Cell.toScalar? c.type x).isSome) :
    ∃ index, build f keys = .ok index ∧ index.rows = n ∧ Partitions f keys n index.buckets ∧
      (∀ key b, index.get? key = some b ↔ b ∈ index.buckets ∧ b.keys = key.map Scalar.key) ∧
      ∃ t, SlotTable.build f keys = .ok t ∧ t.buckets = index.buckets ∧
        ∀ key, t.get? key = index.get? key := by
  have has := Frame.size_eq_ok_iff.1 sized
  obtain ⟨columns, found⟩ : ∃ columns, keys.mapM f.column = .ok columns := by
    refine exists_mapM_iff.2 fun i mem => ?_
    obtain ⟨c, there, -⟩ := readable i mem
    exact ⟨c, by rw [Frame.column, there]⟩
  obtain ⟨cells, read⟩ :
      ∃ cells, (List.range n).mapM (fun row => keys.mapM (f.cellAt · row)) = .ok cells := by
    refine exists_mapM_iff.2 fun row mem => exists_mapM_iff.2 fun i key => ?_
    obtain ⟨c, there, scalars⟩ := readable i key
    exact exists_cellAt has there scalars (List.mem_range.1 mem)
  have built : build f keys = .ok ⟨keys, partition cells, n, f.stamp?⟩ := by
    have rows : (fun row => keys.mapM (f.cellAt · row)) = fun row => columns.mapM (·.scalarAt row) :=
      funext fun row => mapM_bind_of_eq_ok found (·.scalarAt row)
    rw [rows] at read
    rw [build_eq wide, sized, ok_bind, found, ok_bind, read]
    rfl
  have slots := SlotTable.build_refines f keys
  rw [built] at slots
  exact ⟨_, built, rfl, partitions_of_cells read, fun key b => find?_eq_some_iff _, slots⟩

private def levels : Frame :=
  ⟨[.ofList .float64 "level" [.zero, .nan, .negZero, .ofParts true 0x7ff0000000000001, .zero],
    .ofList (.missing .bool) "open" [none, some true, none, some true, some true]], none⟩

theorem build_partitions_levels :
    levels.size = .ok 5 ∧
    (∀ i ∈ [0, 1], ∃ c, levels.columns[i]? = some c ∧
      ∀ x ∈ c.contents.cells, (Cell.toScalar? c.type x).isSome) ∧
    ∃ index, build levels [0, 1] = .ok index ∧ Partitions levels [0, 1] 5 index.buckets ∧
      index.buckets = [⟨[.float64 .zero, .absent], [0, 2]⟩, ⟨[.float64 .nan, .bool true], [1, 3]⟩,
        ⟨[.float64 .zero, .bool true], [4]⟩] ∧
      index.get? [.float64 .negZero, .bool true] = some ⟨[.float64 .zero, .bool true], [4]⟩ ∧
      index.get? [.float64 .nan] = none := by
  have sized : levels.size = .ok 5 := rfl
  have readable : ∀ i ∈ [0, 1], ∃ c, levels.columns[i]? = some c ∧
      ∀ x ∈ c.contents.cells, (Cell.toScalar? c.type x).isSome := by
    simp only [List.forall_mem_cons]
    refine ⟨⟨_, rfl, ?_⟩, ⟨_, rfl, ?_⟩, nofun⟩
    · decide
    · decide
  obtain ⟨index, built, -, partitions, -⟩ := build_partitions sized (List.cons_ne_nil 0 [1]) readable
  refine ⟨sized, readable, index, built, partitions, ?_⟩
  cases built
  exact ⟨rfl, rfl, rfl⟩

end GroupIndex

end Tabular
