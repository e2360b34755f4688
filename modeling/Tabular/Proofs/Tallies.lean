import Mathlib.Algebra.BigOperators.Group.List.Lemmas
import Tabular.Proofs.RollUp
import Tabular.Proofs.RowOrder

/-! Counts and sums of integers account for every row of a frame. The rows are divided among the keys that are
met, so that what is counted or added up for the keys comes to what there is in all; sums wrap around, and do so
for the whole just as for its parts. -/

namespace Tabular

section Shares

variable {κ : Type} [DecidableEq κ] [BEq κ] [LawfulBEq κ]

theorem flatMap_placesOf_eraseDups_perm (keys : List κ) :
    (keys.eraseDups.flatMap (placesOf keys)).Perm (List.range keys.length) := by
  have all := flatMap_placesOf_perm (fun _ => ()) keys ()
  have places : placesOf (keys.map fun _ => ()) () = List.range keys.length := by
    rw [placesOf, List.length_map, List.filter_eq_self]
    intro i mem
    have below := List.mem_range.1 mem
    simp [below]
  rwa [places, List.filter_eq_self.2 (by simp)] at all

theorem sum_map_placesOf (keys : List κ) (weight : Nat → Int) :
    (keys.eraseDups.map fun k => ((placesOf keys k).map weight).sum).sum =
      ((List.range keys.length).map weight).sum := by
  rw [← ((flatMap_placesOf_eraseDups_perm keys).map weight).sum_eq, List.map_flatMap, List.flatMap_def,
    List.sum_flatten, List.map_map]
  rfl

theorem sum_length_placesOf (keys : List κ) :
    (keys.eraseDups.map fun k => (placesOf keys k).length).sum = keys.length := by
  rw [← List.length_flatMap, (flatMap_placesOf_eraseDups_perm keys).length_eq, List.length_range]

end Shares

theorem sum_ofInt (ns : List Int) : (ns.map Int64.ofInt).sum = Int64.ofInt ns.sum := by
  induction ns with
  | nil => rfl
  | cons n ns ih => rw [List.map_cons, List.sum_cons, ih, List.sum_cons, Int64.ofInt_add]

theorem Fold.mergeAll_plus_ints {ns : List Int} (nonempty : ns ≠ []) :
    mergeAll plus (ns.map fun n => .int64 (.ofInt n)) = some (.int64 (.ofInt ns.sum)) := by
  obtain ⟨n, ns, rfl⟩ := List.exists_cons_of_ne_nil nonempty
  exact congrArg some (foldl_plus_ints ns n)

namespace Frame

open GroupIndex

def keyAt (f : Frame) (keys : List Nat) (row : Nat) : List Key := (f.keyCells keys row).map Scalar.key

/-- The keys of the rows in the order in which they are met. -/
def keysMet (f : Frame) (n : Nat) (keys : List Nat) : List (List Key) :=
  ((List.range n).map (f.keyAt keys)).eraseDups

/-- The rows with a key. -/
def rowsWith (f : Frame) (n : Nat) (keys : List Nat) (k : List Key) : List Nat :=
  (List.range n).filter fun row => f.keyAt keys row = k

def intAt (f : Frame) (i row : Nat) : Int :=
  match f.cellOf row i with
  | .int64 n => n.toInt
  | _ => 0

section Keys

variable {f : Frame} {n : Nat} {keys : List Nat} {columns : List Column} {cells : List (List Scalar)}

theorem Keyed.cells_eq (keyed : f.Keyed n keys columns cells) :
    cells = (List.range n).map (f.keyCells keys) := by
  refine eq_map_of_mapM keyed.read fun row c read => ?_
  rw [← mapM_bind_of_eq_ok keyed.found] at read
  refine eq_map_of_mapM read fun i v found => ?_
  have same := cellAt_eq_of_exists ⟨v, found⟩
  rw [cellAt, found] at same
  exact Except.ok.inj same

theorem Keyed.keysOf_eq (keyed : f.Keyed n keys columns cells) :
    keysOf cells = (List.range n).map (f.keyAt keys) := by
  rw [keyed.cells_eq, keysOf, List.map_map]
  rfl

theorem Keyed.keysMet_eq (keyed : f.Keyed n keys columns cells) :
    (keysOf cells).eraseDups = f.keysMet n keys := by
  rw [keyed.keysOf_eq, keysMet]

theorem Keyed.rowsWith_eq (keyed : f.Keyed n keys columns cells) (k : List Key) :
    placesOf (keysOf cells) k = f.rowsWith n keys k := by
  rw [placesOf, keyed.counted, rowsWith, keyed.keysOf_eq]
  refine List.filter_congr fun row mem => ?_
  have below := List.mem_range.1 mem
  simp [below]

theorem Keyed.firsts_eq (keyed : f.Keyed n keys columns cells) :
    firstPlaces (keysOf cells) = (f.keysMet n keys).map fun k => (f.rowsWith n keys k).headD 0 := by
  simp only [firstPlaces, keyed.keysMet_eq, keyed.rowsWith_eq]

end Keys

/-- Counts of rows, and sums of columns whose elements are integers of any width, none of them missing. -/
inductive Tallies (f : Frame) : Aggregation Nat → Prop
  | count : Tallies f .count
  | sum (i : Nat) (c : Column) : f.columns[i]? = some c →
      (∀ x ∈ c.contents.cells, ∃ m, Cell.toScalar? c.type x = some (.int64 m)) → Tallies f (.fold .sum i)

/-- A column of a summary has for every key the number of its rows, or the sum of their integers, and these
come to the number of all rows and, with wrap around, to the sum of all integers. No count is stated as more
than the greatest integer. -/
def Accounts (f : Frame) (n : Nat) (keys : List Nat) : Aggregation Nat → Column → Prop
  | .count, c =>
    c.Shows ((f.keysMet n keys).map fun k => .ofCount (f.rowsWith n keys k).length) ∧
    ((f.keysMet n keys).map fun k => (f.rowsWith n keys k).length).sum = n ∧
    (n ≤ Int64.maxValue.toInt → ∀ k, ∃ m : Int64, Scalar.ofCount (f.rowsWith n keys k).length = .int64 m ∧
      m.toInt = (f.rowsWith n keys k).length)
  | .fold _ i, c => ∃ sums : List Int64, c.Shows (sums.map .int64) ∧
    (∀ row < n, f.cellAt i row = .ok (.int64 (.ofInt (f.intAt i row)))) ∧
    sums = (f.keysMet n keys).map (fun k => .ofInt ((f.rowsWith n keys k).map (f.intAt i)).sum) ∧
    sums.sum = .ofInt ((List.range n).map (f.intAt i)).sum

section Tallied

variable {f : Frame} {n : Nat} {keys : List Nat} {columns : List Column} {cells : List (List Scalar)}

theorem exists_toColumn {a : Aggregation Nat} {buckets : List Bucket} {ns : List Int64}
    (values : ∀ shared, a.values shared f buckets = .ok (ns.map .int64))
    (named : ∃ name, a.name f = .ok name) :
    ∃ c : Column, (∀ shared, a.toColumn shared f buckets = .ok c) ∧ c.Shows (ns.map .int64) := by
  have uniform : Uniform .int64 (ns.map Scalar.int64) := fun v mem => by
    obtain ⟨m, -, rfl⟩ := List.mem_map.1 mem
    exact .inr rfl
  obtain ⟨name, named⟩ := named
  obtain ⟨t, made, inferred⟩ := Column.exists_infer_of_uniform uniform
  refine ⟨.ofList t name made, fun shared => ?_, (inferred name).2⟩
  rw [Aggregation.toColumn, values, ok_bind, named, ok_bind, (inferred name).1]

theorem Keyed.map_partition (keyed : f.Keyed n keys columns cells) {β : Type} (g : List Nat → β) :
    (partition cells).map (fun b => g b.rows) = (f.keysMet n keys).map fun k => g (f.rowsWith n keys k) := by
  rw [partition, List.map_map, keyed.keysMet_eq]
  exact List.map_congr_left fun k _ => congrArg g (keyed.rowsWith_eq k)

theorem Keyed.sum_length_rowsWith (keyed : f.Keyed n keys columns cells) :
    ((f.keysMet n keys).map fun k => (f.rowsWith n keys k).length).sum = n := by
  have shares := sum_length_placesOf (keysOf cells)
  simpa only [keyed.keysMet_eq, keyed.rowsWith_eq, keyed.counted] using shares

theorem Keyed.sum_map_rowsWith (keyed : f.Keyed n keys columns cells) (weight : Nat → Int) :
    ((f.keysMet n keys).map fun k => ((f.rowsWith n keys k).map weight).sum).sum =
      ((List.range n).map weight).sum := by
  have shares := sum_map_placesOf (keysOf cells) weight
  simpa only [keyed.keysMet_eq, keyed.rowsWith_eq, keyed.counted] using shares

theorem shows_ints (has : HasRows f.columns n) {i : Nat} {c : Column} (there : f.columns[i]? = some c)
    (ints : ∀ x ∈ c.contents.cells, ∃ m, Cell.toScalar? c.type x = some (.int64 m)) :
    c.Shows ((List.range n).map fun row => .int64 (.ofInt (f.intAt i row))) ∧
      ∀ row < n, f.cellAt i row = .ok (.int64 (.ofInt (f.intAt i row))) := by
  have long : c.buffer.items.length = n := has.length c (List.mem_of_getElem? there)
  have each (row : Nat) (below : row < n) : ∃ x, c.buffer.items[row]? = some x ∧
      Cell.toScalar? c.type x = some (.int64 (.ofInt (f.intAt i row))) := by
    rw [← long] at below
    have found := List.getElem?_eq_getElem below
    obtain ⟨m, shown⟩ := ints _ (List.getElem_mem below)
    have read : f.cellAt i row = .ok (.int64 m) := by
      rw [cellAt, column, there, ok_bind, Column.scalarAt_of_getElem? found, Cell.toScalar, shown]
    refine ⟨_, found, ?_⟩
    rw [shown, intAt, cellOf, read]
    exact congrArg (some ∘ Scalar.int64) m.ofInt_toInt.symm
  constructor
  · refine List.ext_getElem? fun row => ?_
    by_cases below : row < n
    · obtain ⟨x, found, shown⟩ := each row below
      simp [found, below, shown]
    · have beyond : c.buffer.items.length ≤ row := by rwa [long, ← Nat.not_lt]
      simp [List.getElem?_eq_none beyond, below]
  · intro row below
    obtain ⟨x, found, shown⟩ := each row below
    rw [cellAt, column, there, ok_bind, Column.scalarAt_of_getElem? found, Cell.toScalar, shown]

theorem mergedAt_ints (weight : Nat → Int) {rows : List Nat} (nonempty : rows ≠ [])
    (inside : ∀ row ∈ rows, row < n) :
    mergedAt Fold.plus ((List.range n).map fun row => .int64 (.ofInt (weight row))) rows =
      .int64 (.ofInt (rows.map weight).sum) := by
  have picked : valuesAt (List.range n) rows = rows := by
    refine valuesAt_eq_iff (List.map_congr_left fun row mem => ?_)
    have below := inside row mem
    simp [below]
  have some : rows.map weight ≠ [] := fun none => nonempty (List.map_eq_nil_iff.1 none)
  have ints := Fold.mergeAll_plus_ints some
  rw [List.map_map] at ints
  rw [mergedAt, valuesAt_map, picked]
  exact congrArg (·.getD .absent) ints

theorem Keyed.rowsWith_ne_nil (keyed : f.Keyed n keys columns cells) {k : List Key}
    (met : k ∈ f.keysMet n keys) : f.rowsWith n keys k ≠ [] := by
  rw [← keyed.rowsWith_eq]
  rw [← keyed.keysMet_eq] at met
  exact fun none => placesOf_eq_nil_iff.1 none (List.mem_eraseDups.1 met)

theorem Keyed.exists_accounts (keyed : f.Keyed n keys columns cells) {a : Aggregation Nat}
    (tallies : f.Tallies a) :
    ∃ c : Column, c.length = (keysOf cells).eraseDups.length ∧ f.Accounts n keys a c ∧
      ∀ shared, a.toColumn shared f (partition cells) = .ok c := by
  rw [keyed.keysMet_eq]
  cases tallies with
  | count =>
    have values : (partition cells).map (fun b => Scalar.ofCount b.length) = ((f.keysMet n keys).map fun k =>
        Int64.ofInt (min (f.rowsWith n keys k).length Int64.maxValue.toInt)).map .int64 := by
      rw [List.map_map]
      exact keyed.map_partition fun rows => Scalar.ofCount rows.length
    obtain ⟨c, made, shows⟩ := exists_toColumn (f := f) (a := .count)
      (fun _ => congrArg Except.ok values) ⟨_, rfl⟩
    refine ⟨c, by rw [shows.length]; simp, ⟨?_, keyed.sum_length_rowsWith, fun fits k => ?_⟩, made⟩
    · rw [List.map_map] at shows
      exact shows
    · have few : (f.rowsWith n keys k).length ≤ n := by
        have fewer := List.length_filter_le (f.keyAt keys · = k) (List.range n)
        rwa [List.length_range] at fewer
      have short : ((f.rowsWith n keys k).length : Int) ≤ Int64.maxValue.toInt :=
        (Int.ofNat_le.2 few).trans fits
      refine ⟨_, rfl, ?_⟩
      rw [min_eq_left short]
      exact Int64.toInt_ofInt_of_le (by omega) (by rw [Int64.toInt_maxValue] at short; omega)
  | sum i c there ints =>
    obtain ⟨shows, read⟩ := shows_ints keyed.has there ints
    have found : f.column i = .ok c := by rw [column, there]
    have uniform : Uniform .int64 ((List.range n).map fun row => .int64 (.ofInt (f.intAt i row))) := by
      intro v mem
      obtain ⟨row, -, rfl⟩ := List.mem_map.1 mem
      exact .inr rfl
    have reads := Aggregation.reads_fold Fold.sum_mergesBy keyed.has found shows uniform
    have values (shared : Bool) : (Aggregation.fold .sum i).values shared f (partition cells) =
        .ok (((f.keysMet n keys).map fun k =>
          Int64.ofInt ((f.rowsWith n keys k).map (f.intAt i)).sum).map .int64) := by
      rw [reads.values shared _ keyed.proper, keyed.map_partition, List.map_map]
      refine congrArg Except.ok (List.map_congr_left fun k met => ?_)
      exact mergedAt_ints (f.intAt i) (keyed.rowsWith_ne_nil met) fun row mem =>
        List.mem_range.1 (List.mem_filter.1 mem).1
    obtain ⟨d, made, shows'⟩ := exists_toColumn values reads.named
    refine ⟨d, by rw [shows'.length]; simp, ⟨_, shows', read, rfl, ?_⟩, made⟩
    rw [← keyed.sum_map_rowsWith, ← sum_ofInt, List.map_map]
    rfl

end Tallied

/-- Counts and sums of integers account for every row, whatever room they use: the summary has a row for each
key that is met, in the order of the first rows of the keys, with the key cells of these, and in every other
column what the rows of the key come to. -/
theorem groupBy_accounts {f : Frame} {n : Nat} {keys : List Nat} {aggregations : List (Aggregation Nat)}
    (sized : f.size = .ok n) (wide : keys ≠ [])
    (readable : ∀ i ∈ keys, ∃ c, f.columns[i]? = some c ∧
      ∀ x ∈ c.contents.cells, (Cell.toScalar? c.type x).isSome)
    (tallies : ∀ a ∈ aggregations, f.Tallies a) (options : ScratchOptions) :
    ∃ g columns others, f.groupBy keys aggregations options = .ok g ∧
      g.size = .ok (f.keysMet n keys).length ∧ keys.mapM f.column = .ok columns ∧
      (∀ i ∈ keys, ∀ row < n, f.cellAt i row = .ok (f.cellOf row i)) ∧
      (∀ k ∈ f.keysMet n keys, f.rowsWith n keys k ≠ []) ∧
      g.columns = columns.map (fun c => .ofList c.type c.name (valuesAt c.buffer.items
        ((f.keysMet n keys).map fun k => (f.rowsWith n keys k).headD 0))) ++ others ∧
      List.Forall₂ (f.Accounts n keys) aggregations others := by
  have has := size_eq_ok_iff.1 sized
  obtain ⟨columns, cells, keyed⟩ := exists_keyed has wide readable
  have took : columns.mapM (·.take (firstPlaces (keysOf cells))) = .ok (columns.map fun c =>
      .ofList c.type c.name (valuesAt c.buffer.items (firstPlaces (keysOf cells)))) := by
    refine mapM_eq_ok_map fun c mem => Column.take_eq_ok fun row inside => ?_
    rw [keyed.length_eq mem]
    exact keyed.inside row inside
  obtain ⟨others, ran, sizes, each⟩ := keyed.groupBy_of_toColumn took
    (fun a mem => keyed.exists_accounts (tallies a mem)) options
  refine ⟨_, columns, others, ran, ?_, keyed.found, fun i key row below => ?_,
    fun k met => keyed.rowsWith_ne_nil met, ?_, each⟩
  · rw [length_firstPlaces, keyed.keysMet_eq] at sizes
    exact size_eq_ok_iff.2 sizes
  · obtain ⟨c, there, scalars⟩ := readable i key
    exact cellAt_eq_of_exists (exists_cellAt has there scalars below)
  · rw [keyed.firsts_eq]

private def harvest : Frame :=
  ⟨[.ofList .float64 "plot" [.zero, .nan, .negZero, .zero],
    .ofList (.missing (.int .i64)) "weight" [some ⟨9223372036854775800, by decide⟩, some ⟨50, by decide⟩,
      some ⟨8, by decide⟩, some ⟨-3, by decide⟩]], none⟩

theorem groupBy_accounts_harvest :
    harvest.size = .ok 4 ∧
    (∀ i ∈ [0], ∃ c, harvest.columns[i]? = some c ∧
      ∀ x ∈ c.contents.cells, (Cell.toScalar? c.type x).isSome) ∧
    (∀ a ∈ [.count, .fold .sum 1], harvest.Tallies a) ∧
    ∃ g counts sums, harvest.groupBy [0] [.count, .fold .sum 1] ⟨true, 0⟩ = .ok g ∧
      g.columns = [.ofList .float64 "plot" [.zero, .nan], counts, sums] ∧
      counts.Shows [.int64 3, .int64 1] ∧ sums.Shows [.int64 9223372036854775805, .int64 50] := by
  have sized : harvest.size = .ok 4 := rfl
  have readable : ∀ i ∈ [0], ∃ c, harvest.columns[i]? = some c ∧
      ∀ x ∈ c.contents.cells, (Cell.toScalar? c.type x).isSome := by
    simp only [List.forall_mem_cons]
    exact ⟨⟨_, rfl, by decide⟩, nofun⟩
  have tallies : ∀ a ∈ [.count, .fold .sum 1], harvest.Tallies a := by
    simp only [List.forall_mem_cons]
    refine ⟨.count, .sum 1 _ rfl ?_, nofun⟩
    rintro x (_ | ⟨_, _ | ⟨_, _ | ⟨_, _ | ⟨_, ⟨⟩⟩⟩⟩⟩) <;> exact ⟨_, rfl⟩
  obtain ⟨g, columns, others, ran, -, found, -, -, made, each⟩ :=
    groupBy_accounts sized (List.cons_ne_nil 0 []) readable tallies ⟨true, 0⟩
  cases found
  obtain ⟨counts, _, ⟨counted, -⟩, rest, rfl⟩ := List.forall₂_cons_left_iff.1 each
  obtain ⟨sums, _, ⟨_, summed, -, rfl, -⟩, none, rfl⟩ := List.forall₂_cons_left_iff.1 rest
  obtain rfl := List.forall₂_nil_left_iff.1 none
  exact ⟨sized, readable, tallies, g, counts, sums, ran, made, counted, summed⟩

end Frame

end Tabular
