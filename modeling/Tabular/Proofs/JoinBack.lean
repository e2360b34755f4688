import Tabular.Proofs.Joins
import Tabular.Proofs.Summaries

/-! A frame joined to its own summary. The keys of the summary are those of the frame, each of them once, so
that every row finds one partner, and that is the row made of its own bucket. -/

namespace Tabular

namespace Join

section Once

variable {left right : List Key}

theorem matching_congr (all : ∀ k ∈ left, k ∈ right) (type type' : JoinType) :
    matching type left right = matching type' left right := by
  refine List.flatMap_congr fun k mem => List.flatMap_congr fun l _ => ?_
  have shared := all k (List.mem_eraseDups.1 mem)
  simp only [partners, if_pos shared]

theorem exists_of_mem_matching (all : ∀ k ∈ left, k ∈ right) {type : JoinType} {p : Pair}
    (paired : p ∈ matching type left right) :
    ∃ k j, left[p.left]? = some k ∧ p.right? = some j ∧ right[j]? = some k := by
  obtain ⟨k, there, goes⟩ := mem_matching.1 paired
  cases found : p.right? with
  | none =>
    rw [found] at goes
    exact absurd (all k (List.mem_of_getElem? there)) (none_mem_partners.1 goes).2
  | some j =>
    rw [found] at goes
    exact ⟨k, j, there, rfl, some_mem_partners.1 goes⟩

theorem lefts_matching_perm (all : ∀ k ∈ left, k ∈ right) (distinct : right.Nodup) (type : JoinType) :
    ((matching type left right).map Pair.left).Perm (List.range left.length) := by
  have once : ((matching type left right).map Pair.left).Nodup := by
    refine nodup_matching.map_on ?_
    rintro ⟨i, r?⟩ paired ⟨i', r?'⟩ paired' (rfl : i = i')
    obtain ⟨k, j, there, (rfl : r? = some j), place⟩ := exists_of_mem_matching all paired
    obtain ⟨k', j', there', (rfl : r?' = some j'), place'⟩ := exists_of_mem_matching all paired'
    obtain rfl : k = k' := Option.some.inj (there.symm.trans there')
    obtain ⟨below, -⟩ := List.getElem?_eq_some_iff.1 place
    obtain rfl : j = j' := (List.getElem?_inj below distinct).1 (place.trans place'.symm)
    rfl
  refine (List.perm_ext_iff_of_nodup once List.nodup_range).2 fun i => ?_
  rw [List.mem_range, List.mem_map]
  constructor
  · rintro ⟨p, paired, rfl⟩
    obtain ⟨k, -, there, -⟩ := exists_of_mem_matching all paired
    exact (List.getElem?_eq_some_iff.1 there).1
  · intro below
    obtain ⟨j, place⟩ := List.mem_iff_getElem?.1 (all _ (List.getElem_mem below))
    exact ⟨⟨i, some j⟩, mem_matching.2 ⟨_, List.getElem?_eq_getElem below, some_mem_partners.2 place⟩, rfl⟩

end Once

end Join

namespace Frame

open GroupIndex

variable {f t : Frame} {n key : Nat} {index : GroupIndex} {aggregations : List (Aggregation Nat)}
  {options : ScratchOptions}

theorem exists_of_build_single (has : HasRows f.columns n) (built : build f [key] = .ok index) :
    ∃ c scalars, f.column key = .ok c ∧ c.Shows scalars ∧
      index = ⟨[key], partition (scalars.map ([·])), n, f.stamp?⟩ := by
  obtain ⟨c, found⟩ : ∃ c, f.column key = .ok c := by
    rw [build_eq (List.cons_ne_nil key []), size_eq_ok_iff.2 has, ok_bind] at built
    obtain ⟨columns, found, -⟩ := bind_eq_ok_iff.1 built
    obtain ⟨c, -, first, -⟩ := mapM_cons_eq_ok_iff.1 found
    exact ⟨c, first⟩
  rw [build_single has found] at built
  obtain ⟨scalars, read, rfl⟩ := map_eq_ok_iff.1 built
  exact ⟨c, scalars, found, Column.shows_iff.2 read, rfl⟩

theorem keys_of_shows {c : Column} {scalars : List Scalar} (shows : c.Shows scalars) :
    c.keys = .ok (scalars.map Scalar.key) := by
  rw [Column.keys, Column.shows_iff.1 shows]
  rfl

theorem exists_keys_of_summarize {c : Column} {scalars : List Scalar} (found : f.column key = .ok c)
    (shows : c.Shows scalars) (columns : index.columns = [key])
    (buckets : index.buckets = partition (scalars.map ([·])))
    (summed : index.summarize f aggregations options = .ok t) :
    HasRows t.columns index.buckets.length ∧
      ∃ r, t.column 0 = .ok r ∧ r.keys = .ok (scalars.map Scalar.key).eraseDups := by
  have read : index.columns.mapM f.column = .ok [c] := by
    rw [columns, List.mapM_cons, found]
    rfl
  obtain ⟨taken, made, picked, rfl, has⟩ := exists_of_summarize read (List.cons_ne_nil c []) summed
  obtain ⟨r, none, first, nothing, rfl⟩ := mapM_cons_eq_ok_iff.1 picked
  refine ⟨has, r, rfl, ?_⟩
  rw [buckets, firstRows_partition, Join.keysOf_single, firstPlaces_map List.singleton_injective] at first
  rw [keys_of_shows (shows.take first), ← valuesAt_map, valuesAt_firstPlaces]

theorem exists_bucket_of_place {scalars : List Scalar} {i j : Nat} {k : Key}
    (there : (scalars.map Scalar.key)[i]? = some k)
    (place : (scalars.map Scalar.key).eraseDups[j]? = some k) :
    ∃ b, (partition (scalars.map ([·])))[j]? = some b ∧ i ∈ b.rows := by
  refine ⟨bucketOf (scalars.map ([·])) [k], ?_, mem_rows_bucketOf.2 ?_⟩
  · rw [partition, Join.keysOf_single, eraseDups_map List.singleton_injective, List.map_map,
      List.getElem?_map, place]
    rfl
  · rw [Join.keysOf_single, List.getElem?_map, there]
    rfl

/-- What a frame is grouped to by one column can be joined back to it on that column. It makes no
difference to the frame that is made whether rows without a match are kept, nor how room is made for the
pairs, since there are none: every row comes out once, beside the row made of its own bucket. -/
theorem join_back (sized : f.size = .ok n) (grouped : f.groupBy [key] aggregations options = .ok t) :
    ∃ index pairs made, build f [key] = .ok index ∧
      (∀ type options, f.join key t 0 type options = .ok made) ∧ made.size = .ok n ∧
      f.Joined t pairs made ∧ (pairs.map Join.Pair.left).Perm (List.range n) ∧
      ∀ p ∈ pairs, ∃ j b, p.right? = some j ∧ index.buckets[j]? = some b ∧ p.left ∈ b.rows := by
  have hf := size_eq_ok_iff.1 sized
  obtain ⟨index, built, summed⟩ := bind_eq_ok_iff.1 grouped
  obtain ⟨c, scalars, found, shows, rfl⟩ := exists_of_build_single hf built
  obtain ⟨ht, r, first, keys⟩ := exists_keys_of_summarize found shows rfl rfl summed
  have all : ∀ k ∈ scalars.map Scalar.key, k ∈ (scalars.map Scalar.key).eraseDups := fun k mem =>
    List.mem_eraseDups.2 mem
  have counted : (scalars.map Scalar.key).length = n := by
    rw [List.length_map, ← shows.length, length_of_column hf found]
  have counted' := (length_keys keys).trans (length_of_column ht first)
  have wide : f.columns ≠ [] := List.ne_nil_of_mem (mem_of_column found)
  have wide' : t.columns ≠ [] := List.ne_nil_of_mem (mem_of_column first)
  obtain ⟨made, gathered⟩ : ∃ made, f.gatherPairs t (Join.matching .inner (scalars.map Scalar.key)
      (scalars.map Scalar.key).eraseDups) = .ok made :=
    (exists_gatherPairs_iff hf ht wide wide').2 ⟨exists_takeRows_matching hf counted,
      (exists_takeRowsOrDefault_matching_iff ht counted').2 fun _ => .inl all⟩
  have once := Join.lefts_matching_perm all (nodup_eraseDups _) .inner
  rw [counted] at once
  have joined := joined_of_eq_ok hf ht wide wide' gathered
  refine ⟨_, _, made, built, fun type options' => ?_, ?_, joined, once, fun p paired => ?_⟩
  · rw [join_eq hf ht found first, keys_of_shows shows, ok_bind, keys, ok_bind,
      Join.matching_congr all type .inner, gathered]
  · have many := once.length_eq
    rw [List.length_map, List.length_range] at many
    rw [joined.sized, many]
  · obtain ⟨k, j, there, partner, place⟩ := Join.exists_of_mem_matching all paired
    obtain ⟨b, bucket, inside⟩ := exists_bucket_of_place there place
    exact ⟨j, b, partner, bucket, inside⟩

private def gauges : Frame :=
  ⟨[.ofList (.missing .float64) "level" [some .zero, some .nan, none, some .negZero, none,
      some (.ofParts true 0x7ff0000000000001)],
    .ofList (.foreign "site") "site" [3, 1, 4, 1, 5, 9]], none⟩

private def counted : Frame :=
  ⟨[.ofList (.missing .float64) "level" [some .zero, some .nan, none],
    .ofList (.int .i64) "count(*)" [⟨2, by decide⟩, ⟨2, by decide⟩, ⟨2, by decide⟩]], none⟩

theorem join_back_gauges :
    gauges.size = .ok 6 ∧ gauges.groupBy [0] [.count] {} = .ok counted ∧
      ∃ index pairs made, build gauges [0] = .ok index ∧
        (∀ type options, gauges.join 0 counted 0 type options = .ok made) ∧ made.size = .ok 6 ∧
        gauges.Joined counted pairs made ∧ (pairs.map Join.Pair.left).Perm (List.range 6) ∧
        ∀ p ∈ pairs, ∃ j b, p.right? = some j ∧ index.buckets[j]? = some b ∧ p.left ∈ b.rows := by
  have sized : gauges.size = .ok 6 := rfl
  have grouped : gauges.groupBy [0] [.count] {} = .ok counted := rfl
  exact ⟨sized, grouped, join_back sized grouped⟩

end Frame

end Tabular
