import Mathlib.Data.List.Perm.Subperm
import Tabular.Proofs.Merging
import Tabular.Proofs.Summaries

/-! Aggregation in two steps. Rows grouped by some columns and then by the first of these come to what they
come to when they are grouped by the first at once: the coarse groups are unions of fine ones, they are met in
the same order and at the same rows, and the aggregations merge. -/

namespace Tabular

open GroupIndex

def mergedAt (op : Scalar → Scalar → Scalar) (values : List Scalar) (rows : List Nat) : Scalar :=
  (mergeAll op (valuesAt values rows)).getD .absent

def mergedByKey {κ : Type} [DecidableEq κ] [BEq κ] (op : Scalar → Scalar → Scalar) (values : List Scalar)
    (keys : List κ) : List Scalar :=
  keys.eraseDups.map fun k => mergedAt op values (placesOf keys k)

section Merged

variable {k : Kind} {op : Scalar → Scalar → Scalar} {values : List Scalar}

theorem uniform_valuesAt (uniform : Uniform k values) (rows : List Nat) : Uniform k (valuesAt values rows) :=
  fun v mem => uniform v (mem_of_mem_valuesAt mem)

theorem admits_mergedAt (merges : Merges k.Admits op) (uniform : Uniform k values) (rows : List Nat) :
    k.Admits (mergedAt op values rows) := by
  unfold mergedAt
  cases found : mergeAll op (valuesAt values rows) with
  | none => exact .inl rfl
  | some v => exact merges.closed_mergeAll (uniform_valuesAt uniform rows) found

theorem mergeAll_eq_mergedAt {rows : List Nat} (nonempty : rows ≠ [])
    (inside : ∀ row ∈ rows, row < values.length) :
    mergeAll op (valuesAt values rows) = some (mergedAt op values rows) := by
  unfold mergedAt
  cases here : valuesAt values rows with
  | nil =>
    have counted := length_valuesAt inside
    rw [here] at counted
    exact absurd (List.length_eq_zero_iff.1 counted.symm) nonempty
  | cons v vs => rfl

variable {κ γ : Type} [DecidableEq κ] [DecidableEq γ] [BEq κ]

theorem uniform_mergedByKey (merges : Merges k.Admits op) (uniform : Uniform k values) (keys : List κ) :
    Uniform k (mergedByKey op values keys) := by
  intro v mem
  obtain ⟨j, -, rfl⟩ := List.mem_map.1 mem
  exact admits_mergedAt merges uniform _

variable [LawfulBEq κ]

theorem mergedAt_coarse (merges : Merges k.Admits op) (uniform : Uniform k values) {keys : List κ}
    (counted : keys.length = values.length) (g : κ → γ) (key : γ) :
    mergedAt op (mergedByKey op values keys) (placesOf (keys.eraseDups.map g) key) =
      mergedAt op values (placesOf (keys.map g) key) := by
  have inside (j : κ) : ∀ row ∈ placesOf keys j, row < values.length := by
    intro row mem
    rw [← counted]
    exact (List.getElem?_eq_some_iff.1 (mem_placesOf.1 mem)).1
  have parts : (keys.eraseDups.filter (g · = key)).map (fun j => mergedAt op values (placesOf keys j)) =
      ((keys.eraseDups.filter (g · = key)).map fun j => valuesAt values (placesOf keys j)).filterMap
        (mergeAll op) := by
    rw [List.filterMap_map, ← List.filterMap_eq_map]
    refine List.filterMap_congr fun j mem => ?_
    have met := List.mem_eraseDups.1 (List.mem_filter.1 mem).1
    exact (mergeAll_eq_mergedAt (fun none => placesOf_eq_nil_iff.1 none met) (inside j)).symm
  have together : (valuesAt values
      ((keys.eraseDups.filter (g · = key)).flatMap (placesOf keys))).Perm
        (valuesAt values (placesOf (keys.map g) key)) :=
    (flatMap_placesOf_perm g keys key).filterMap _
  rw [mergedAt, mergedByKey, valuesAt_map, valuesAt_placesOf_map, parts, merges.mergeAll_flatten,
    ← List.flatMap_def, ← valuesAt_flatMap]
  · exact congrArg (·.getD .absent) (merges.mergeAll_perm (uniform_valuesAt uniform _) together)
  · intro part mem
    obtain ⟨j, -, rfl⟩ := List.mem_map.1 mem
    exact uniform_valuesAt uniform _

theorem mergedByKey_coarse [BEq γ] [LawfulBEq γ] (merges : Merges k.Admits op) (uniform : Uniform k values)
    {keys : List κ} (counted : keys.length = values.length) (g : κ → γ) :
    mergedByKey op (mergedByKey op values keys) (keys.eraseDups.map g) =
      mergedByKey op values (keys.map g) := by
  rw [mergedByKey, mergedByKey, eraseDups_map_eraseDups]
  exact List.map_congr_left fun key _ => mergedAt_coarse merges uniform counted g key

end Merged

namespace Aggregation

/-- An aggregation of the rows of a frame merges these values, one for each row. -/
structure Reads (f : Frame) (n : Nat) (a : Aggregation Nat) (op : Scalar → Scalar → Scalar)
    (values : List Scalar) : Prop where
  counted : values.length = n
  named : ∃ name, a.name f = .ok name
  values : ∀ shared buckets, (∀ b ∈ buckets, b.rows ≠ [] ∧ b.rows.Nodup ∧ ∀ row ∈ b.rows, row < n) →
    a.values shared f buckets = .ok (buckets.map fun b : Bucket => mergedAt op values b.rows)

variable {f : Frame} {n i : Nat} {c : Column} {k : Kind} {op : Scalar → Scalar → Scalar} {cells : List Scalar}

theorem reads_fold {fold : Fold} (folds : fold.MergesBy k op) (has : Frame.HasRows f.columns n)
    (found : f.column i = .ok c) (shows : c.Shows cells) (uniform : Uniform k cells) :
    (Aggregation.fold fold i).Reads f n op cells where
  counted := by rw [← shows.length, has.length c (Frame.mem_of_column found)]
  named := ⟨_, by rw [name, found]; rfl⟩
  values shared buckets proper := by
    rw [values_fold found, mapM_eq_ok_iff, List.forall₂_map_right_iff, List.forall₂_same]
    intro b mem
    have inside := (proper b mem).2.2
    rw [← has.length c (Frame.mem_of_column found), shows.length] at inside
    rw [Column.mapM_scalarAt_eq_ok shows inside, ok_bind, folds.reduces (uniform_valuesAt uniform _)]
    rfl

theorem reads_count (fits : n ≤ Int64.maxValue.toInt) :
    count.Reads f n Fold.plus (List.replicate n (.int64 1)) where
  counted := List.length_replicate
  named := ⟨_, rfl⟩
  values shared buckets proper := by
    refine congrArg Except.ok (List.map_congr_left fun b mem => ?_)
    obtain ⟨nonempty, distinct, inside⟩ := proper b mem
    have few : b.rows.length ≤ n := by
      have subset : b.rows ⊆ List.range n := fun row mem => List.mem_range.2 (inside row mem)
      have length := (List.subperm_of_subset distinct subset).length_le
      rwa [List.length_range] at length
    have ones : valuesAt (List.replicate n (Scalar.int64 1)) b.rows =
        List.replicate b.rows.length (.int64 1) := by
      refine List.eq_replicate_iff.2 ⟨length_valuesAt ?_, fun v mem => ?_⟩
      · rwa [List.length_replicate]
      · exact List.eq_of_mem_replicate (mem_of_mem_valuesAt mem)
    have short : (b.rows.length : Int) ≤ Int64.maxValue.toInt := (Int.ofNat_le.2 few).trans fits
    rw [mergedAt, ones, ← Fold.ofCount_eq (by simpa using nonempty) short]
    rfl

/-- Aggregations of a frame of `n` rows that are rolled up by this fold of what they come to: counts by sums,
sums of integers by sums, and the least or greatest cells of any column with scalar forms by themselves. The
number of rows has to be one that a count can state, as it is for all frames that fit in memory. -/
inductive RollsUp (f : Frame) (n : Nat) : Aggregation Nat → Fold → Prop
  | count : n ≤ Int64.maxValue.toInt → RollsUp f n .count .sum
  | sum (i : Nat) (c : Column) (w : IntWidth) : f.columns[i]? = some c →
      c.type = .int w ∨ c.type = .missing (.int w) → RollsUp f n (.fold .sum i) .sum
  | min (i : Nat) (c : Column) : f.columns[i]? = some c →
      (∀ x ∈ c.contents.cells, (Cell.toScalar? c.type x).isSome) → RollsUp f n (.fold .min i) .min
  | max (i : Nat) (c : Column) : f.columns[i]? = some c →
      (∀ x ∈ c.contents.cells, (Cell.toScalar? c.type x).isSome) → RollsUp f n (.fold .max i) .max

theorem exists_shows (scalars : ∀ x ∈ c.contents.cells, (Cell.toScalar? c.type x).isSome) :
    ∃ cells, c.Shows cells := by
  obtain ⟨cells, same⟩ := exists_map_some_iff.2 scalars
  exact ⟨cells, same.symm⟩

theorem scalars_of_int {t : CellType} {w : IntWidth} (int : t = .int w ∨ t = .missing (.int w)) :
    t.kind = .int64 ∧ ∀ x, (Cell.toScalar? t x).isSome := by
  rcases int with rfl | rfl
  · exact ⟨rfl, fun _ => rfl⟩
  · refine ⟨rfl, fun x => ?_⟩
    cases x <;> rfl

theorem RollsUp.exists_reads {a : Aggregation Nat} {again : Fold} (rolls : a.RollsUp f n again)
    (has : Frame.HasRows f.columns n) :
    ∃ k op values, again.MergesBy k op ∧ Uniform k values ∧ a.Reads f n op values := by
  cases rolls with
  | count fits =>
    refine ⟨_, _, _, Fold.sum_mergesBy, fun v mem => ?_, reads_count fits⟩
    rw [List.eq_of_mem_replicate mem]
    exact .inr rfl
  | sum i c w there int =>
    obtain ⟨kind, scalars⟩ := scalars_of_int int
    obtain ⟨cells, shows⟩ := exists_shows fun x _ => scalars x
    have found : f.column i = .ok c := by rw [Frame.column, there]
    have uniform := shows.uniform
    rw [kind] at uniform
    exact ⟨_, _, _, Fold.sum_mergesBy, uniform, reads_fold Fold.sum_mergesBy has found shows uniform⟩
  | min i c there scalars =>
    obtain ⟨cells, shows⟩ := exists_shows scalars
    have found : f.column i = .ok c := by rw [Frame.column, there]
    exact ⟨_, _, _, Fold.min_mergesBy _, shows.uniform,
      reads_fold (Fold.min_mergesBy _) has found shows shows.uniform⟩
  | max i c there scalars =>
    obtain ⟨cells, shows⟩ := exists_shows scalars
    have found : f.column i = .ok c := by rw [Frame.column, there]
    exact ⟨_, _, _, Fold.max_mergesBy _, shows.uniform,
      reads_fold (Fold.max_mergesBy _) has found shows shows.uniform⟩

end Aggregation

namespace GroupIndex

theorem keysOf_map_take (cells : List (List Scalar)) (m : Nat) :
    keysOf (cells.map (·.take m)) = (keysOf cells).map (·.take m) := by
  simp only [keysOf, List.map_map, Function.comp_def, List.map_take]

theorem keysOf_valuesAt (cells : List (List Scalar)) (m : Nat) :
    keysOf (valuesAt (cells.map (·.take m)) (firstPlaces (keysOf cells))) =
      (keysOf cells).eraseDups.map (·.take m) := by
  rw [keysOf, ← valuesAt_map, ← keysOf, keysOf_map_take, valuesAt_map, valuesAt_firstPlaces]

end GroupIndex

namespace Frame

/-- The columns at these positions and, row by row, their cells. -/
structure Keyed (f : Frame) (n : Nat) (keys : List Nat) (columns : List Column) (cells : List (List Scalar)) :
    Prop where
  has : HasRows f.columns n
  wide : keys ≠ []
  found : keys.mapM f.column = .ok columns
  read : (List.range n).mapM (fun row => columns.mapM (·.scalarAt row)) = .ok cells

section Keyed

variable {f : Frame} {n : Nat} {keys : List Nat} {columns : List Column} {cells : List (List Scalar)}

theorem exists_keyed (has : HasRows f.columns n) (wide : keys ≠ [])
    (readable : ∀ i ∈ keys, ∃ c, f.columns[i]? = some c ∧
      ∀ x ∈ c.contents.cells, (Cell.toScalar? c.type x).isSome) :
    ∃ columns cells, f.Keyed n keys columns cells := by
  obtain ⟨columns, found⟩ : ∃ columns, keys.mapM f.column = .ok columns := by
    refine exists_mapM_iff.2 fun i mem => ?_
    obtain ⟨c, there, -⟩ := readable i mem
    exact ⟨c, by rw [column, there]⟩
  obtain ⟨cells, read⟩ :
      ∃ cells, (List.range n).mapM (fun row => columns.mapM (·.scalarAt row)) = .ok cells := by
    refine exists_mapM_iff.2 fun row below => ?_
    rw [← mapM_bind_of_eq_ok found]
    refine exists_mapM_iff.2 fun i key => ?_
    obtain ⟨c, there, scalars⟩ := readable i key
    exact exists_cellAt has there scalars (List.mem_range.1 below)
  exact ⟨columns, cells, has, wide, found, read⟩

theorem Keyed.length_eq (keyed : f.Keyed n keys columns cells) {c : Column} (mem : c ∈ columns) :
    c.length = n := by
  obtain ⟨i, -, found⟩ := exists_of_mem_mapM keyed.found mem
  exact keyed.has.length c (mem_of_column found)

theorem Keyed.counted (keyed : f.Keyed n keys columns cells) : (keysOf cells).length = n := by
  rw [keysOf, List.length_map, length_mapM keyed.read, List.length_range]

theorem Keyed.inside (keyed : f.Keyed n keys columns cells) : ∀ row ∈ firstPlaces (keysOf cells), row < n := by
  intro row mem
  rw [← keyed.counted]
  exact lt_of_mem_firstPlaces mem

theorem Keyed.build_eq (keyed : f.Keyed n keys columns cells) :
    build f keys = .ok ⟨keys, partition cells, n, f.stamp?⟩ := by
  rw [GroupIndex.build_eq keyed.wide, size_eq_ok_iff.2 keyed.has, ok_bind, keyed.found, ok_bind, keyed.read]
  rfl

theorem Keyed.proper (keyed : f.Keyed n keys columns cells) :
    ∀ b ∈ partition cells, b.rows ≠ [] ∧ b.rows.Nodup ∧ ∀ row ∈ b.rows, row < n := by
  intro b met
  refine ⟨rows_ne_nil_of_mem met, (pairwise_rows_of_mem met).imp Nat.ne_of_lt, fun row inside => ?_⟩
  rw [← List.length_range (n := n), ← length_mapM keyed.read]
  exact lt_of_mem_rows met inside

theorem Keyed.coarse {more : List Nat} (keyed : f.Keyed n (keys ++ more) columns cells) (wide : keys ≠ []) :
    ∃ left right, columns = left ++ right ∧ left.length = keys.length ∧
      f.Keyed n keys left (cells.map (·.take keys.length)) := by
  obtain ⟨left, right, found, -, rfl⟩ := mapM_append_eq_ok_iff.1 keyed.found
  have counted := length_mapM found
  refine ⟨left, right, rfl, counted, keyed.has, wide, found, ?_⟩
  rw [mapM_eq_ok_iff, List.forall₂_map_right_iff]
  refine (mapM_eq_ok_iff.1 keyed.read).imp fun row c read => ?_
  obtain ⟨first, rest, here, -, rfl⟩ := mapM_append_eq_ok_iff.1 read
  rw [← counted, ← length_mapM here, List.take_left]
  exact here

theorem Keyed.taken (keyed : f.Keyed n keys columns cells) {rows : List Nat} (inside : ∀ row ∈ rows, row < n)
    {taken others : List Column} (took : columns.mapM (·.take rows) = .ok taken)
    (has : HasRows (taken ++ others) rows.length) :
    Keyed ⟨taken ++ others, none⟩ rows.length (List.range keys.length) taken (valuesAt cells rows) := by
  have counted : taken.length = keys.length := (length_mapM took).trans (length_mapM keyed.found)
  refine ⟨has, ?_, ?_, ?_⟩
  · rw [ne_eq, List.range_eq_nil, List.length_eq_zero_iff]
    exact keyed.wide
  · have reads (i : Nat) (c : Column) (there : taken[i]? = some c) :
        (⟨taken ++ others, none⟩ : Frame).column i = .ok c := by
      rw [column, List.getElem?_append_left (List.getElem?_eq_some_iff.1 there).1, there]
    rw [← counted, mapM_range reads, mapM_eq_ok_iff, List.forall₂_same]
    exact fun c _ => rfl
  · have reads (i row : Nat) (there : rows[i]? = some row) :
        taken.mapM (·.scalarAt i) = columns.mapM (·.scalarAt row) := by
      refine mapM_eq_of_eq_ok took fun c mem d first => ?_
      rw [← keyed.length_eq mem] at inside
      exact Column.scalarAt_take first inside there
    rw [mapM_range reads, mapM_valuesAt keyed.read inside]

theorem Keyed.taken_coarse (keyed : f.Keyed n keys columns cells) {ks : List (List Key)}
    (inside : ∀ row ∈ firstPlaces ks, row < n) {taken : List Column}
    (took : columns.mapM (·.take (firstPlaces ks)) = .ok taken) (g : List Key → List Key) :
    taken.mapM (·.take (firstPlaces (ks.eraseDups.map g))) =
      columns.mapM (·.take (firstPlaces (ks.map g))) := by
  rw [Column.mapM_take_take took, valuesAt_firstPlaces_map]
  · intro c mem
    rwa [keyed.length_eq mem]
  · intro place met
    rw [length_firstPlaces, ← List.length_map (f := g)]
    exact lt_of_mem_firstPlaces met

theorem Keyed.exists_taken (keyed : f.Keyed n keys columns cells) :
    ∃ taken, columns.mapM (·.take (firstPlaces (keysOf cells))) = .ok taken := by
  refine exists_mapM_iff.2 fun c mem => ⟨_, Column.take_eq_ok fun row inside => ?_⟩
  rw [keyed.length_eq mem]
  exact keyed.inside row inside

/-- What a frame is grouped to: the key columns at the first places of the keys, and beside them what is made of
the rows with each key. -/
theorem Keyed.groupBy_of_toColumn (keyed : f.Keyed n keys columns cells) {taken : List Column}
    (took : columns.mapM (·.take (firstPlaces (keysOf cells))) = .ok taken)
    {aggregations : List (Aggregation Nat)} {Made : Aggregation Nat → Column → Prop}
    (made : ∀ a ∈ aggregations, ∃ c : Column, c.length = (keysOf cells).eraseDups.length ∧ Made a c ∧
      ∀ shared, a.toColumn shared f (partition cells) = .ok c) (options : ScratchOptions) :
    ∃ others, f.groupBy keys aggregations options = .ok ⟨taken ++ others, none⟩ ∧
      HasRows (taken ++ others) (firstPlaces (keysOf cells)).length ∧
      List.Forall₂ Made aggregations others := by
  obtain ⟨shared, summed⟩ := exists_summarize_eq (g := ⟨keys, partition cells, n, f.stamp?⟩) keyed.found
    aggregations options
  obtain ⟨others, summaries⟩ :
      ∃ others, aggregations.mapM (·.toColumn shared f (partition cells)) = .ok others := by
    refine exists_mapM_iff.2 fun a mem => ?_
    obtain ⟨c, -, -, same⟩ := made a mem
    exact ⟨c, same shared⟩
  have each : List.Forall₂ Made aggregations others := by
    have all := (List.forall₂_and_left (p := (· ∈ aggregations)) _ _).2
      ⟨fun _ mem => mem, mapM_eq_ok_iff.1 summaries⟩
    refine all.imp fun a c ⟨mem, found⟩ => ?_
    obtain ⟨d, -, good, same⟩ := made a mem
    rw [same shared] at found
    cases found
    exact good
  have has : HasRows (taken ++ others) (firstPlaces (keysOf cells)).length := by
    refine ⟨fun d mem => ?_, fun none => ?_⟩
    · rcases List.mem_append.1 mem with mem | mem
      · obtain ⟨c, -, first⟩ := exists_of_mem_mapM took mem
        exact (Column.eq_of_take first).2
      · obtain ⟨a, inside, found⟩ := exists_of_mem_mapM summaries mem
        obtain ⟨c, counted, -, same⟩ := made a inside
        rw [same shared] at found
        cases found
        rw [counted, length_firstPlaces]
    · have narrow := (length_mapM took).trans (length_mapM keyed.found)
      rw [(List.append_eq_nil_iff.1 none).1] at narrow
      exact absurd (List.length_eq_zero_iff.1 narrow.symm) keyed.wide
  refine ⟨others, ?_, has, each⟩
  rw [groupBy, keyed.build_eq, ok_bind, summed, firstRows_partition, took, ok_bind, summaries]
  exact ofColumns_eq_ok_iff.2 ⟨rfl, _, has⟩

theorem Keyed.groupBy_eq (keyed : f.Keyed n keys columns cells) {taken : List Column}
    (took : columns.mapM (·.take (firstPlaces (keysOf cells))) = .ok taken) {a : Aggregation Nat}
    {op : Scalar → Scalar → Scalar} {values : List Scalar} (reads : a.Reads f n op values) {t : CellType}
    {made : List (Cell t)}
    (inferred : ∀ name, Column.infer name (mergedByKey op values (keysOf cells)) = .ok (.ofList t name made) ∧
      (Column.ofList t name made).Shows (mergedByKey op values (keysOf cells)))
    (options : ScratchOptions) :
    ∃ name, f.groupBy keys [a] options = .ok ⟨taken ++ [.ofList t name made], none⟩ ∧
      HasRows (taken ++ [.ofList t name made]) (firstPlaces (keysOf cells)).length := by
  obtain ⟨name, named⟩ := reads.named
  obtain ⟨column, shows⟩ := inferred name
  have summary (shared : Bool) : a.toColumn shared f (partition cells) = .ok (.ofList t name made) := by
    rw [Aggregation.toColumn, reads.values shared _ keyed.proper, ok_bind, named, ok_bind, ← column, partition,
      List.map_map]
    rfl
  let folded : Column := .ofList t name made
  have makes : ∀ b ∈ [a], ∃ c : Column, c.length = (keysOf cells).eraseDups.length ∧ c = folded ∧
      ∀ shared, b.toColumn shared f (partition cells) = .ok c := by
    rintro _ (_ | ⟨_, ⟨⟩⟩)
    exact ⟨folded, by rw [shows.length, mergedByKey, List.length_map], rfl, summary⟩
  obtain ⟨others, ran, has, each⟩ := keyed.groupBy_of_toColumn took makes options
  obtain ⟨_, _, rfl, nothing, rfl⟩ := List.forall₂_cons_left_iff.1 each
  obtain rfl := List.forall₂_nil_left_iff.1 nothing
  exact ⟨name, ran, has⟩

end Keyed

/-- To aggregate by the columns `A` and `B` and then, with the fold that rolls the aggregation up, by the first
columns of what was made is to aggregate by `A` at once. All three runs succeed, whatever room they use, and the
two ends have the same columns, cell by cell, but for the name of the last. -/
theorem roll_up {f : Frame} {n : Nat} {A B : List Nat} {a : Aggregation Nat} {again : Fold}
    (sized : f.size = .ok n) (wide : A ≠ [])
    (readable : ∀ i ∈ A ++ B, ∃ c, f.columns[i]? = some c ∧
      ∀ x ∈ c.contents.cells, (Cell.toScalar? c.type x).isSome)
    (rolls : a.RollsUp f n again) (options options' options'' : ScratchOptions) :
    ∃ fine rolled direct keys name name', ∃ (t : CellType) (cells : List (Cell t)),
      f.groupBy (A ++ B) [a] options = .ok fine ∧
      fine.groupBy (List.range A.length) [.fold again (A ++ B).length] options' = .ok rolled ∧
      f.groupBy A [a] options'' = .ok direct ∧ keys.length = A.length ∧
      rolled.columns = keys ++ [.ofList t name cells] ∧ direct.columns = keys ++ [.ofList t name' cells] := by
  have has := size_eq_ok_iff.1 sized
  obtain ⟨k, op, values, folds, uniform, reads⟩ := rolls.exists_reads has
  obtain ⟨columns, cells, keyed⟩ := exists_keyed has (by simp [wide]) readable
  obtain ⟨left, right, rfl, narrow, coarse⟩ := keyed.coarse wide
  have counted := keyed.counted.trans reads.counted.symm
  have fineUniform := uniform_mergedByKey folds.merges uniform (keysOf cells)
  have same := mergedByKey_coarse folds.merges uniform counted (·.take A.length)
  -- The fine groups.
  obtain ⟨t, made, inferred⟩ := Column.exists_infer_of_uniform fineUniform
  obtain ⟨taken, took⟩ := keyed.exists_taken
  obtain ⟨title, fine, sizedFine⟩ := keyed.groupBy_eq took reads inferred options
  obtain ⟨takenLeft, takenRight, tookLeft, -, rfl⟩ := mapM_append_eq_ok_iff.1 took
  -- The coarse groups at once.
  obtain ⟨t', made', inferred'⟩ := Column.exists_infer_of_uniform
    (uniform_mergedByKey folds.merges uniform (keysOf (cells.map (·.take A.length))))
  obtain ⟨keys, tookKeys⟩ := coarse.exists_taken
  obtain ⟨name', direct, -⟩ := coarse.groupBy_eq tookKeys reads inferred' options''
  -- The coarse groups of the fine ones.
  rw [List.append_assoc] at sizedFine fine
  have keyedFine := coarse.taken keyed.inside tookLeft sizedFine
  have tookAgain := coarse.taken_coarse keyed.inside tookLeft (·.take A.length)
  rw [← keysOf_map_take, tookKeys, ← keysOf_valuesAt] at tookAgain
  rw [← keysOf_map_take, ← keysOf_valuesAt] at same
  rw [← same] at inferred'
  have last : (⟨takenLeft ++ (takenRight ++ [.ofList t title made]), none⟩ : Frame).column (A ++ B).length =
      .ok (.ofList t title made) := by
    have width := (length_mapM took).trans (length_mapM keyed.found)
    rw [column, ← List.append_assoc, ← width, List.getElem?_concat_length]
  have readsFine := Aggregation.reads_fold folds sizedFine last (inferred _).2 fineUniform
  obtain ⟨name, rolled, -⟩ := keyedFine.groupBy_eq tookAgain readsFine inferred' options'
  exact ⟨_, _, _, keys, name, name', t', made', fine, rolled, direct,
    (length_mapM tookKeys).trans narrow, rfl, rfl⟩

private def tides : Frame :=
  ⟨[.ofList .float64 "level" [.zero, .nan, .negZero, .ofParts true 0x7ff0000000000001, .zero],
    .ofList .bool "rising" [true, false, false, true, true],
    .ofList (.missing (.int .i64)) "flow" [some ⟨9223372036854775807, by decide⟩, some ⟨40, by decide⟩,
      some ⟨11, by decide⟩, none, some ⟨6, by decide⟩]], none⟩

theorem roll_up_tides :
    tides.size = .ok 5 ∧
    (∀ i ∈ [0] ++ [1], ∃ c, tides.columns[i]? = some c ∧
      ∀ x ∈ c.contents.cells, (Cell.toScalar? c.type x).isSome) ∧
    Aggregation.RollsUp tides 5 (.fold .sum 2) .sum ∧
    ∃ fine rolled name, tides.groupBy [0, 1] [.fold .sum 2] {} = .ok fine ∧
      fine.groupBy [0] [.fold .sum 2] {} = .ok rolled ∧
      rolled.columns = [.ofList .float64 "level" [.zero, .nan],
        .ofList (.missing (.int .i64)) name [some ⟨-9223372036854775792, by decide⟩, none]] := by
  have sized : tides.size = .ok 5 := rfl
  have readable : ∀ i ∈ [0] ++ [1], ∃ c, tides.columns[i]? = some c ∧
      ∀ x ∈ c.contents.cells, (Cell.toScalar? c.type x).isSome := by
    simp only [List.singleton_append, List.forall_mem_cons]
    refine ⟨⟨_, rfl, ?_⟩, ⟨_, rfl, ?_⟩, nofun⟩
    · decide
    · decide
  have rolls : Aggregation.RollsUp tides 5 (.fold .sum 2) .sum := .sum 2 _ .i64 rfl (.inr rfl)
  obtain ⟨fine, rolled, direct, keys, name, name', t, cells, ran, again, once, single, ends, ends'⟩ :=
    roll_up sized (List.cons_ne_nil 0 []) readable rolls {} {} {}
  refine ⟨sized, readable, rolls, fine, rolled, name, ran, again, ?_⟩
  cases once
  obtain ⟨key, rfl⟩ := List.length_eq_one_iff.1 single
  cases ends'
  exact ends

end Frame

end Tabular
