import Mathlib.Algebra.BigOperators.Group.List.Lemmas
import Mathlib.Algebra.GroupWithZero.Nat
import Tabular.Join
import Tabular.Proofs.Gather
import Tabular.Proofs.Groups

/-! Joins come to what they are meant to be: every pair of rows with equal keys once, in the order of the
keys of the left frame as they are first met there, and in a left join every other row of the left frame
with defaults. A join succeeds unless a key cell has no scalar form or a default is missing where one
is called for. -/

namespace Tabular

namespace Join

/-- The rows of the right frame that go with a key of the left one. -/
def partners (type : JoinType) (right : List Key) (k : Key) : List (Option Nat) :=
  if k ∈ right then (placesOf right k).map some
  else
    match type with
    | .inner => []
    | .left => [none]

/-- The pairs of rows of a join of frames with these keys. -/
def matching (type : JoinType) (left right : List Key) : List Pair :=
  left.eraseDups.flatMap fun k => (placesOf left k).flatMap fun l =>
    (partners type right k).map (⟨l, ·⟩)

section Matching

variable {type : JoinType} {left right : List Key}

theorem some_mem_partners {k : Key} {r : Nat} : some r ∈ partners type right k ↔ right[r]? = some k := by
  unfold partners
  split
  · simp [mem_placesOf]
  · next unmet =>
    have nowhere : right[r]? ≠ some k := fun there => unmet (List.mem_of_getElem? there)
    cases type <;> simp [nowhere]

theorem none_mem_partners {k : Key} : none ∈ partners type right k ↔ type = .left ∧ k ∉ right := by
  unfold partners
  split
  · next met => simp [met]
  · next unmet => cases type <;> simp [unmet]

theorem nodup_partners (k : Key) : (partners type right k).Nodup := by
  unfold partners
  split
  · exact (nodup_placesOf right k).map fun _ _ => Option.some.inj
  · cases type <;> simp

theorem length_partners (k : Key) :
    (partners type right k).length =
      if k ∈ right then right.count k else match type with | .inner => 0 | .left => 1 := by
  unfold partners
  split
  · rw [List.length_map, length_placesOf]
  · cases type <;> rfl

theorem mem_matching {p : Pair} :
    p ∈ matching type left right ↔ ∃ k, left[p.left]? = some k ∧ p.right? ∈ partners type right k := by
  obtain ⟨l, r?⟩ := p
  simp only [matching, List.mem_flatMap, List.mem_map, mem_placesOf, Pair.mk.injEq, List.mem_eraseDups]
  constructor
  · rintro ⟨k, -, i, there, r, goes, rfl, rfl⟩
    exact ⟨k, there, goes⟩
  · rintro ⟨k, there, goes⟩
    exact ⟨k, List.mem_of_getElem? there, l, there, r?, goes, rfl, rfl⟩

theorem nodup_matching : (matching type left right).Nodup := by
  refine List.nodup_flatMap.2 ⟨fun k _ => List.nodup_flatMap.2 ⟨fun l _ => ?_, ?_⟩, ?_⟩
  · exact (nodup_partners k).map fun a b same => by simpa using same
  · refine (nodup_placesOf left k).imp fun {i j} apart p first second => ?_
    obtain ⟨_, -, rfl⟩ := List.mem_map.1 first
    obtain ⟨_, -, same⟩ := List.mem_map.1 second
    exact apart (Pair.mk.inj same).1.symm
  · refine (nodup_eraseDups left).imp fun {j k} apart p first second => ?_
    obtain ⟨i, there, first⟩ := List.mem_flatMap.1 first
    obtain ⟨i', there', second⟩ := List.mem_flatMap.1 second
    obtain ⟨_, -, rfl⟩ := List.mem_map.1 first
    obtain ⟨_, -, same⟩ := List.mem_map.1 second
    rw [mem_placesOf] at there there'
    rw [(Pair.mk.inj same).1, there] at there'
    exact apart (Option.some.inj there')

theorem sum_count_eraseDups (keys : List Key) (p : Key → Prop) [DecidablePred p] :
    ((keys.eraseDups.filter (p ·)).map keys.count).sum = keys.countP (p ·) := by
  have same : keys.eraseDups.Perm keys.dedup :=
    (List.perm_ext_iff_of_nodup (nodup_eraseDups keys) keys.nodup_dedup).2 fun k => by
      rw [List.mem_eraseDups, List.mem_dedup]
  rw [((same.filter _).map _).sum_eq]
  exact List.sum_map_count_dedup_filter_eq_countP _ keys

/-- The number of pairs: for each shared key every row of one side with every row of the other, and in a
left join the rows whose key is not shared. -/
theorem length_matching :
    (matching type left right).length =
      ((left.eraseDups.filter (· ∈ right)).map fun k => left.count k * right.count k).sum +
        if type = .left then left.countP (· ∉ right) else 0 := by
  have each : (matching type left right).length =
      (left.eraseDups.map fun k => left.count k * (partners type right k).length).sum := by
    simp only [matching, List.length_flatMap, List.length_map, List.map_const', List.sum_replicate_nat,
      length_placesOf]
  -- The shared keys give the first sum and the others the rows that a left join keeps alone.
  rw [each, ← List.sum_map_filter_add_sum_map_filter_not (· ∈ right)]
  congr 1
  · refine congrArg List.sum (List.map_congr_left fun k mem => ?_)
    rw [length_partners, if_pos (by simpa using (List.mem_filter.1 mem).2)]
  · have unmet {k : Key} (mem : k ∈ left.eraseDups.filter (· ∉ right)) : k ∉ right := by
      simpa using (List.mem_filter.1 mem).2
    cases type with
    | inner =>
      rw [if_neg (by decide)]
      refine List.sum_eq_zero fun n mem => ?_
      obtain ⟨k, inside, rfl⟩ := List.mem_map.1 mem
      rw [length_partners, if_neg (unmet inside), Nat.mul_zero]
    | left =>
      rw [if_pos rfl]
      refine Eq.trans (congrArg List.sum (List.map_congr_left fun k mem => ?_))
        (sum_count_eraseDups left (· ∉ right))
      rw [length_partners, if_neg (unmet mem), Nat.mul_one]

/-- What the pairs of a join have to be by the keys of either side: every two rows with equal keys once,
and in a left join every other row of the left side once, by itself. -/
structure Exact (type : JoinType) (left right : List Key) (pairs : List Pair) : Prop where
  distinct : pairs.Nodup
  matched : ∀ i j, ⟨i, some j⟩ ∈ pairs ↔ ∃ k, left[i]? = some k ∧ right[j]? = some k
  unmatched : ∀ i, ⟨i, none⟩ ∈ pairs ↔ type = .left ∧ ∃ k, left[i]? = some k ∧ k ∉ right
  counted : pairs.length =
    ((left.eraseDups.filter (· ∈ right)).map fun k => left.count k * right.count k).sum +
      if type = .left then left.countP (· ∉ right) else 0

theorem exact_matching (type : JoinType) (left right : List Key) :
    Exact type left right (matching type left right) := by
  refine ⟨nodup_matching, fun i j => ?_, fun i => ?_, length_matching⟩
  · simp only [mem_matching, some_mem_partners]
  · simp only [mem_matching, none_mem_partners]
    exact ⟨fun ⟨k, there, keeps, unmet⟩ => ⟨keeps, k, there, unmet⟩,
      fun ⟨keeps, k, there, unmet⟩ => ⟨k, there, keeps, unmet⟩⟩

end Matching

section Plan

private theorem singleton_injective {α : Type} : Function.Injective (fun a : α => [a]) :=
  fun _ _ same => (List.cons.inj same).1

theorem keysOf_single (scalars : List Scalar) :
    GroupIndex.keysOf (scalars.map ([·])) = (scalars.map Scalar.key).map ([·]) := by
  rw [GroupIndex.keysOf, List.map_map, List.map_map]
  rfl

theorem pairBucket_eq {type : JoinType} {left right : List Scalar} {index : GroupIndex}
    (partition : index.buckets = GroupIndex.partition (right.map ([·]))) {k : Key}
    (met : k ∈ left.map Scalar.key) :
    pairBucket type index (GroupIndex.bucketOf (left.map ([·])) [k]) =
      (placesOf (left.map Scalar.key) k).flatMap fun l =>
        (partners type (right.map Scalar.key) k).map (⟨l, ·⟩) := by
  have inside : [k] ∈ GroupIndex.keysOf (left.map ([·])) := by
    rw [keysOf_single]
    exact List.mem_map_of_mem met
  have rows (scalars : List Scalar) : (GroupIndex.bucketOf (scalars.map ([·])) [k]).rows =
      placesOf (scalars.map Scalar.key) k := by
    rw [GroupIndex.bucketOf, keysOf_single]
    exact placesOf_map singleton_injective _ k
  have named : (GroupIndex.bucketOf (left.map ([·])) [k]).key.map Scalar.key = [k] :=
    GroupIndex.keys_bucketOf inside
  have found : index.get? (GroupIndex.bucketOf (left.map ([·])) [k]).key =
      if k ∈ right.map Scalar.key then some (GroupIndex.bucketOf (right.map ([·])) [k]) else none := by
    rw [GroupIndex.get?, partition, named, GroupIndex.find?_partition, keysOf_single]
    simp only [List.mem_map_of_injective singleton_injective]
  unfold pairBucket partners
  rw [found, rows left]
  by_cases shared : k ∈ right.map Scalar.key
  · simp only [if_pos shared, rows right, List.map_map]
    rfl
  · simp only [if_neg shared]
    cases type with
    | inner => simp
    | left => simp only [List.map_eq_flatMap, List.flatMap_singleton]

theorem plan_eq {type : JoinType} {left right : List Scalar} {l r : GroupIndex}
    (hl : l.buckets = GroupIndex.partition (left.map ([·])))
    (hr : r.buckets = GroupIndex.partition (right.map ([·]))) (options : ScratchOptions) :
    plan type l r options = matching type (left.map Scalar.key) (right.map Scalar.key) := by
  have same : plan type l r options = pairs type l r := by
    rw [plan]
    split
    · simp [Buffer.withCapacity]
    · rfl
  rw [same, pairs, hl, GroupIndex.partition, keysOf_single, eraseDups_map singleton_injective,
    List.map_map, List.flatMap_map, matching]
  refine List.flatMap_congr fun k mem => ?_
  exact pairBucket_eq hr (List.mem_eraseDups.1 mem)

end Plan

end Join

def Column.keys (c : Column) : Except Error (List Key) :=
  (c.buffer.items.mapM (Cell.toScalar c.type)).map (List.map Scalar.key)

namespace Frame

variable {f g made : Frame} {n m : Nat} {l r : Column} {leftKey rightKey : Nat} {type : JoinType}
  {options : ScratchOptions}

theorem length_of_column (has : HasRows f.columns n) {i : Nat} {c : Column} (found : f.column i = .ok c) :
    c.length = n :=
  has.length c (mem_of_column found)

theorem build_single (has : HasRows f.columns n) {i : Nat} {c : Column} (found : f.column i = .ok c) :
    GroupIndex.build f [i] = (c.buffer.items.mapM (Cell.toScalar c.type)).map fun scalars =>
      ⟨[i], GroupIndex.partition (scalars.map ([·])), n, f.stamp?⟩ := by
  have cell (row : Nat) : [c].mapM (·.scalarAt row) = (c.scalarAt row).map ([·]) := by
    rw [List.mapM_cons, List.mapM_nil]
    cases c.scalarAt row <;> rfl
  have columns : [i].mapM f.column = .ok [c] := by
    rw [List.mapM_cons, found]
    rfl
  have counted : c.buffer.items.length = n := length_of_column has found
  rw [GroupIndex.build_eq (by simp), size_eq_ok_iff.2 has, ok_bind, columns, ok_bind]
  simp only [cell]
  rw [mapM_comp_map, ← counted, mapM_range fun _ _ => Column.scalarAt_of_getElem?]
  cases c.buffer.items.mapM (Cell.toScalar c.type) <;> rfl

theorem join_eq (hf : HasRows f.columns n) (hg : HasRows g.columns m) (hl : f.column leftKey = .ok l)
    (hr : g.column rightKey = .ok r) :
    f.join leftKey g rightKey type options = (do
      let left ← l.keys
      let right ← r.keys
      f.gatherPairs g (Join.matching type left right)) := by
  rw [join, build_single hf hl, build_single hg hr, Column.keys, Column.keys]
  cases l.buffer.items.mapM (Cell.toScalar l.type) with
  | error e => rfl
  | ok left =>
    cases r.buffer.items.mapM (Cell.toScalar r.type) with
    | error e => rfl
    | ok right =>
      simp only [Except.map, ok_bind]
      rw [Join.plan_eq rfl rfl]

/-- The rows of both frames side by side, pair by pair: the columns of `f` with the left row of each pair
and those of `g` with the right one, or with a default where there is none. -/
structure Joined (f g : Frame) (pairs : List Join.Pair) (made : Frame) : Prop where
  shows : ∃ lefts rights, made.contents = lefts ++ rights ∧
    List.Forall₂ (fun c x => c.Gathers (pairs.map (some ·.left)) x) f.columns lefts ∧
    List.Forall₂ (fun c x => c.Gathers (pairs.map Join.Pair.right?) x) g.columns rights
  sized : made.size = .ok pairs.length

section Pairs

variable {pairs : List Join.Pair}

theorem joined_of_gatherPairs (hf : HasRows f.columns n) (hg : HasRows g.columns m)
    (wide : f.columns ≠ []) (wide' : g.columns ≠ []) {lefts rights : Frame}
    (taken : f.takeRows (pairs.map Join.Pair.left) = .ok lefts)
    (taken' : g.takeRowsOrDefault (pairs.map Join.Pair.right?) = .ok rights) :
    lefts.hcat rights = .ok ⟨lefts.columns ++ rights.columns, none⟩ ∧
      f.Joined g pairs ⟨lefts.columns ++ rights.columns, none⟩ := by
  have side := gathers_of_takeRowsOrDefault hf ((f.takeRowsOrDefault_map_some _).trans taken)
  have side' := gathers_of_takeRowsOrDefault hg taken'
  have rows := hasRows_of_gathers wide side
  have rows' := hasRows_of_gathers wide' side'
  rw [List.map_map, List.length_map] at rows
  rw [List.length_map] at rows'
  refine ⟨hcat_of_hasRows rows rows',
    ⟨lefts.contents, rights.contents, List.map_append, ?_, side'⟩, ?_⟩
  · rwa [List.map_map] at side
  · refine size_eq_ok_iff.2 ⟨fun c mem => ?_, fun none => rows.empty (List.append_eq_nil_iff.1 none).1⟩
    rcases List.mem_append.1 mem with mem | mem
    · exact rows.length c mem
    · exact rows'.length c mem

theorem joined_of_eq_ok (hf : HasRows f.columns n) (hg : HasRows g.columns m)
    (wide : f.columns ≠ []) (wide' : g.columns ≠ []) (gathered : f.gatherPairs g pairs = .ok made) :
    f.Joined g pairs made := by
  obtain ⟨lefts, taken, gathered⟩ := bind_eq_ok_iff.1 gathered
  obtain ⟨rights, taken', gathered⟩ := bind_eq_ok_iff.1 gathered
  obtain ⟨beside, joined⟩ := joined_of_gatherPairs hf hg wide wide' taken taken'
  rw [beside] at gathered
  cases gathered
  exact joined

theorem exists_gatherPairs_iff (hf : HasRows f.columns n) (hg : HasRows g.columns m)
    (wide : f.columns ≠ []) (wide' : g.columns ≠ []) :
    (∃ made, f.gatherPairs g pairs = .ok made) ↔
      (∃ lefts, f.takeRows (pairs.map Join.Pair.left) = .ok lefts) ∧
        ∃ rights, g.takeRowsOrDefault (pairs.map Join.Pair.right?) = .ok rights := by
  constructor
  · rintro ⟨made, gathered⟩
    obtain ⟨lefts, taken, gathered⟩ := bind_eq_ok_iff.1 gathered
    obtain ⟨rights, taken', -⟩ := bind_eq_ok_iff.1 gathered
    exact ⟨⟨lefts, taken⟩, rights, taken'⟩
  · rintro ⟨⟨lefts, taken⟩, rights, taken'⟩
    refine ⟨⟨lefts.columns ++ rights.columns, none⟩, ?_⟩
    rw [gatherPairs, taken, ok_bind, taken', ok_bind]
    exact (joined_of_gatherPairs hf hg wide wide' taken taken').1

end Pairs

theorem length_keys {c : Column} {keys : List Key} (read : c.keys = .ok keys) :
    keys.length = c.length := by
  obtain ⟨scalars, cells, rfl⟩ := map_eq_ok_iff.1 read
  rw [List.length_map, length_mapM cells]
  rfl

theorem isSome_cell?_of_lt {c : Column} {i : Nat} (below : i < c.length) : (c.cell? (some i)).isSome := by
  have inside : i < c.buffer.items.length := below
  rw [Column.cell?, List.getElem?_eq_getElem inside]
  rfl

section Places

variable {left right : List Key}

theorem exists_takeRows_matching (hf : HasRows f.columns n) (counted : left.length = n) :
    ∃ lefts, f.takeRows ((Join.matching type left right).map Join.Pair.left) = .ok lefts := by
  rw [← takeRowsOrDefault_map_some, exists_takeRowsOrDefault_iff hf]
  intro c mem place called
  obtain ⟨i, inside, rfl⟩ := List.mem_map.1 called
  obtain ⟨p, paired, rfl⟩ := List.mem_map.1 inside
  obtain ⟨k, there, -⟩ := Join.mem_matching.1 paired
  have below := (List.getElem?_eq_some_iff.1 there).1
  exact isSome_cell?_of_lt (by rwa [hf.length c mem, ← counted])

theorem exists_takeRowsOrDefault_matching_iff (hg : HasRows g.columns m)
    (counted : right.length = m) :
    (∃ rights, g.takeRowsOrDefault ((Join.matching type left right).map Join.Pair.right?) = .ok rights) ↔
      (type = .left → (∀ k ∈ left, k ∈ right) ∨ ∀ c ∈ g.columns, (Cell.default? c.type).isSome) := by
  have pairs := Join.exact_matching type left right
  rw [exists_takeRowsOrDefault_iff hg]
  constructor
  · intro there keeps
    by_cases all : ∀ k ∈ left, k ∈ right
    · exact .inl all
    · simp only [not_forall] at all
      obtain ⟨k, met, unmet⟩ := all
      obtain ⟨i, found⟩ := List.mem_iff_getElem?.1 met
      have alone := (pairs.unmatched i).2 ⟨keeps, k, found, unmet⟩
      exact .inr fun c mem => there c mem none (List.mem_map.2 ⟨_, alone, rfl⟩)
  · rintro enough c mem place called
    obtain ⟨⟨i, right?⟩, inside, rfl⟩ := List.mem_map.1 called
    cases right? with
    | some j =>
      obtain ⟨k, -, found⟩ := (pairs.matched i j).1 inside
      have below := (List.getElem?_eq_some_iff.1 found).1
      exact isSome_cell?_of_lt (by rwa [hg.length c mem, ← counted])
    | none =>
      obtain ⟨keeps, k, found, unmet⟩ := (pairs.unmatched i).1 inside
      rcases enough keeps with all | defaults
      · exact absurd (all k (List.mem_of_getElem? found)) unmet
      · exact defaults c mem

end Places

/-- A join of two frames, whatever their rows and however room is made for the pairs, succeeds just if
all key cells have scalar forms and either no row of the left frame is to be kept without a match or the
right columns have defaults. What it then makes is the columns of the left frame followed by those of the
right one, with one row for each pair of `Join.matching`, in its order; and those are the pairs of rows
with equal keys, and in a left join the other left rows, each of them once. -/
theorem join_correct (hf : f.size = .ok n) (hg : g.size = .ok m) (hl : f.column leftKey = .ok l)
    (hr : g.column rightKey = .ok r) (type : JoinType) (options : ScratchOptions) :
    ((∃ made, f.join leftKey g rightKey type options = .ok made) ↔
      ∃ left right, l.keys = .ok left ∧ r.keys = .ok right ∧
        (type = .left → (∀ k ∈ left, k ∈ right) ∨ ∀ c ∈ g.columns, (Cell.default? c.type).isSome)) ∧
    ∀ made, f.join leftKey g rightKey type options = .ok made →
      ∃ left right, l.keys = .ok left ∧ r.keys = .ok right ∧
        f.Joined g (Join.matching type left right) made ∧
        Join.Exact type left right (Join.matching type left right) := by
  rw [size_eq_ok_iff] at hf hg
  rw [join_eq hf hg hl hr]
  have wide : f.columns ≠ [] := List.ne_nil_of_mem (mem_of_column hl)
  have wide' : g.columns ≠ [] := List.ne_nil_of_mem (mem_of_column hr)
  have counted {left : List Key} (read : l.keys = .ok left) : left.length = n := by
    rw [length_keys read, length_of_column hf hl]
  have counted' {right : List Key} (read : r.keys = .ok right) : right.length = m := by
    rw [length_keys read, length_of_column hg hr]
  refine ⟨⟨?_, ?_⟩, ?_⟩
  · rintro ⟨made, joined⟩
    obtain ⟨left, read, joined⟩ := bind_eq_ok_iff.1 joined
    obtain ⟨right, read', joined⟩ := bind_eq_ok_iff.1 joined
    have taken := ((exists_gatherPairs_iff hf hg wide wide').1 ⟨made, joined⟩).2
    exact ⟨left, right, read, read', (exists_takeRowsOrDefault_matching_iff hg (counted' read')).1 taken⟩
  · rintro ⟨left, right, read, read', enough⟩
    rw [read, ok_bind, read', ok_bind, exists_gatherPairs_iff hf hg wide wide']
    exact ⟨exists_takeRows_matching hf (counted read),
      (exists_takeRowsOrDefault_matching_iff hg (counted' read')).2 enough⟩
  · intro made joined
    obtain ⟨left, read, joined⟩ := bind_eq_ok_iff.1 joined
    obtain ⟨right, read', joined⟩ := bind_eq_ok_iff.1 joined
    exact ⟨left, right, read, read', joined_of_eq_ok hf hg wide wide' joined,
      Join.exact_matching type left right⟩

private def sales : Frame := ⟨[.ofList .bool "paid" [true, false, true]], none⟩

private def rates : Frame :=
  ⟨[.ofList .bool "paid" [true, true], .ofList (.foreign "rate") "rate" [7, 9]], none⟩

private def remarks : Frame :=
  ⟨[.ofList .bool "paid" [true, true], .ofList (.missing .text) "note" [some "cash", none]], none⟩

theorem join_correct_sales :
    (∃ made, sales.join 0 rates 0 .inner {} = .ok made ∧ sales.Joined rates
      [⟨0, some 0⟩, ⟨0, some 1⟩, ⟨2, some 0⟩, ⟨2, some 1⟩] made) ∧
      (¬∃ made, sales.join 0 rates 0 .left {} = .ok made) ∧
      ∃ made, sales.join 0 remarks 0 .left {} = .ok made ∧
        sales.Joined remarks [⟨0, some 0⟩, ⟨0, some 1⟩, ⟨2, some 0⟩, ⟨2, some 1⟩, ⟨1, none⟩] made ∧
        made.contents = [⟨"paid", .bool, [true, true, true, true, false]⟩,
          ⟨"paid", .bool, [true, true, true, true, false]⟩,
          ⟨"note", .missing .text, [some "cash", none, some "cash", none, none]⟩] := by
  have hf : sales.size = .ok 3 := rfl
  have hg : rates.size = .ok 2 := rfl
  have hg' : remarks.size = .ok 2 := rfl
  have hl : sales.column 0 = .ok (.ofList .bool "paid" [true, false, true]) := rfl
  have hr : rates.column 0 = .ok (.ofList .bool "paid" [true, true]) := rfl
  have hr' : remarks.column 0 = .ok (.ofList .bool "paid" [true, true]) := rfl
  obtain ⟨made, joined⟩ := (join_correct hf hg hl hr .inner {}).1.2 ⟨_, _, rfl, rfl, nofun⟩
  obtain ⟨padded, joined'⟩ := (join_correct hf hg' hl hr' .left {}).1.2
    ⟨_, _, rfl, rfl, fun _ => .inr (by decide)⟩
  refine ⟨⟨made, joined, ?_⟩, fun joined => ?_, padded, joined', ?_⟩
  · obtain ⟨left, right, read, read', shown, -⟩ := (join_correct hf hg hl hr .inner {}).2 made joined
    cases read
    cases read'
    exact shown
  · obtain ⟨left, right, read, read', enough⟩ := (join_correct hf hg hl hr .left {}).1.1 joined
    cases read
    cases read'
    rcases enough rfl with all | defaults
    · exact absurd (all (.bool false) (by decide)) (by decide)
    · cases defaults _ (List.mem_cons_of_mem _ List.mem_cons_self)
  · obtain ⟨left, right, read, read', shown, -⟩ := (join_correct hf hg' hl hr' .left {}).2 padded joined'
    cases read
    cases read'
    have paired : sales.Joined remarks
      [⟨0, some 0⟩, ⟨0, some 1⟩, ⟨2, some 0⟩, ⟨2, some 1⟩, ⟨1, none⟩] padded := shown
    obtain ⟨lefts, rights, same, side, side'⟩ := paired.shows
    obtain _ | ⟨paid, ⟨⟩⟩ := side
    obtain _ | ⟨paid', _ | ⟨note, ⟨⟩⟩⟩ := side'
    have flags : [true, true, true, true, false].map some = _ := rfl
    have texts : [some "cash", none, some "cash", none, none].map some = _ := rfl
    refine ⟨paired, ?_⟩
    rw [same, paid.eq flags, paid'.eq flags, note.eq texts]
    rfl

end Frame

end Tabular
