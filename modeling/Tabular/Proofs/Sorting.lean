import Tabular.Proofs.RowLists
import Tabular.Proofs.RowOrder
import Tabular.Proofs.Summaries

/-! Frames sorted by some columns. The rows are moved as they are, all columns alike, to the one arrangement in
which they are in the order of their key cells and equal rows in the order that they had. -/

namespace Tabular

theorem valuesAt_cons {α : Type} {xs : List α} {row : Nat} (below : row < xs.length) (rows : List Nat) :
    valuesAt xs (row :: rows) = xs[row] :: valuesAt xs rows :=
  List.filterMap_cons_some (List.getElem?_eq_getElem below)

theorem placewise_valuesAt {rows : List Nat} {n : Nat} (inside : ∀ row ∈ rows, row < n) :
    Placewise n rows.length fun xs => valuesAt xs rows where
  zipWith {β γ δ} g xs ys long long' := by
    induction rows with
    | nil => rfl
    | cons row rows ih =>
      obtain ⟨below, rest⟩ := List.forall_mem_cons.1 inside
      have here : row < xs.length := by rwa [long]
      have here' : row < ys.length := by rwa [long']
      have both : row < (List.zipWith g xs ys).length := by
        rwa [List.length_zipWith, long, long', min_self]
      rw [valuesAt_cons here, valuesAt_cons here', valuesAt_cons both, List.getElem_zipWith, ih rest,
        List.zipWith_cons_cons]
  replicate {β} x := by
    refine List.eq_replicate_iff.2 ⟨length_valuesAt (by rwa [List.length_replicate]), fun y mem => ?_⟩
    exact List.eq_of_mem_replicate (mem_of_mem_valuesAt mem)

theorem valuesAt_range {α : Type} (xs : List α) : valuesAt xs (List.range xs.length) = xs := by
  refine valuesAt_eq_iff (List.ext_getElem? fun i => ?_)
  by_cases below : i < xs.length
  · simp [below]
  · simp [below]

namespace Frame

variable {f : Frame} {n : Nat} {keys : List Nat}

theorem exists_admits_cellOf (f : Frame) (i : Nat) : ∃ k : Kind, ∀ row, k.Admits (f.cellOf row i) := by
  cases there : f.column i with
  | error e =>
    refine ⟨.absent, fun row => .inl ?_⟩
    rw [cellOf, cellAt, there]
    rfl
  | ok c =>
    refine ⟨c.type.kind, fun row => ?_⟩
    rw [cellOf, cellAt, there, ok_bind]
    cases read : c.scalarAt row with
    | error e => exact .inl rfl
    | ok v =>
      obtain ⟨x, -, shown⟩ := bind_eq_ok_iff.1 read
      rw [Cell.toScalar] at shown
      split at shown
      · next v' found =>
        cases shown
        exact Cell.admits_of_toScalar? found
      · cases shown

theorem transCmp_compareAt (f : Frame) (keys : List Nat) : Std.TransCmp (f.compareAt keys) := by
  refine transCmp_compareLex fun i _ => ?_
  obtain ⟨k, admits⟩ := f.exists_admits_cellOf i
  exact Scalar.transCmp_of_admits admits

theorem length_keyCells (f : Frame) (keys : List Nat) (row : Nat) :
    (f.keyCells keys row).length = keys.length :=
  List.length_map _

theorem sortedOrder_eq (f : Frame) (n : Nat) (keys : List Nat) (descending : Bool) :
    sortedOrder descending ((List.range n).map (f.keyCells keys)) =
      (List.range n).mergeSort fun i j => (directed descending (f.compareAt keys) i j).isLE := by
  have cells (a : List Scalar × Nat) (mem : a ∈ ((List.range n).map (f.keyCells keys)).zipIdx) :
      a.1 = f.keyCells keys a.2 := by
    have there := List.mem_zipIdx_iff_getElem?.1 mem
    rw [List.getElem?_map] at there
    obtain ⟨row, place, same⟩ := Option.map_eq_some_iff.1 there
    obtain ⟨below, rfl⟩ := List.getElem?_eq_some_iff.1 place
    rw [← same, List.getElem_range]
  have positions : ((List.range n).map (f.keyCells keys)).zipIdx.map Prod.snd = List.range n := by
    rw [List.zipIdx_map_snd, List.length_map, List.length_range, List.range_eq_range']
  rw [sortedOrder, List.map_mergeSort, positions]
  intro a here b there
  rw [cells a here, cells b there, compareRows_eq_compareLex (by simp only [length_keyCells]), ← compareAt,
    directed]
  cases f.compareAt keys a.2 b.2 <;> cases descending <;> rfl

theorem keyRows_eq (has : HasRows f.columns n)
    (readable : ∀ i ∈ keys, ∃ c, f.columns[i]? = some c ∧
      ∀ x ∈ c.contents.cells, (Cell.toScalar? c.type x).isSome) :
    f.keyRows n keys = .ok ((List.range n).map (f.keyCells keys)) := by
  have columns : (keys.mapM fun i => do (← f.column i).scalars n) =
      .ok (keys.map fun i => (List.range n).map (f.cellOf · i)) := by
    refine mapM_eq_ok_map fun i key => ?_
    obtain ⟨c, there, scalars⟩ := readable i key
    have found : f.column i = .ok c := by rw [column, there]
    rw [found, ok_bind, Column.scalars]
    refine mapM_eq_ok_map fun row mem => ?_
    have read := cellAt_eq_of_exists (GroupIndex.exists_cellAt has there scalars (List.mem_range.1 mem))
    rwa [cellAt, found, ok_bind] at read
  rw [keyRows, columns, ok_bind]
  refine congrArg Except.ok (List.map_congr_left fun row mem => ?_)
  rw [List.map_map, keyCells]
  refine List.map_congr_left fun i _ => ?_
  have below := List.mem_range.1 mem
  simp [below]

/-- A frame with the rows of another one, all columns alike, in the one order in which every row precedes the
rows after it. -/
structure Arranges (f : Frame) (n : Nat) (cmp : Nat → Nat → Ordering) (g : Frame) : Prop where
  header : g.header = f.header
  rows : ∃ order, order.Perm (List.range n) ∧ order.Pairwise (Precedes cmp) ∧
    g.rowList = valuesAt f.rowList order ∧
    ∀ other, other.Perm (List.range n) → other.Pairwise (Precedes cmp) → other = order

/-- The frame with rows at some places. -/
def rowsAt (f : Frame) (rows : List Nat) : Frame :=
  ⟨f.columns.map fun c => .ofList c.type c.name (valuesAt c.buffer.items rows), none⟩

section Moved

variable {order : List Nat}

theorem mapM_take_eq (has : HasRows f.columns n) (inside : ∀ row ∈ order, row < n) :
    f.columns.mapM (·.take order) = .ok (f.rowsAt order).columns := by
  refine mapM_eq_ok_map fun c mem => ?_
  rw [← has.length c mem] at inside
  exact Column.take_eq_ok inside

theorem HasRows.taken (has : HasRows f.columns n) (inside : ∀ row ∈ order, row < n) :
    HasRows (f.rowsAt order).columns order.length := by
  refine ⟨fun d mem => ?_, fun none => ?_⟩
  · obtain ⟨c, there, rfl⟩ := List.mem_map.1 mem
    rw [← has.length c there] at inside
    exact length_valuesAt inside
  · rw [has.empty (List.map_eq_nil_iff.1 none)] at inside
    exact List.length_eq_zero_iff.2 (List.eq_nil_iff_forall_not_mem.2 fun row mem =>
      Nat.not_lt_zero row (inside row mem))

theorem HasRows.rowsAt (has : HasRows f.columns n) (inside : ∀ row ∈ order, row < n)
    (counted : order.length = n) : HasRows (f.rowsAt order).columns n := by
  conv => arg 2; rw [← counted]
  exact has.taken inside

theorem takeRows_eq (has : HasRows f.columns n) (inside : ∀ row ∈ order, row < n) :
    f.takeRows order = .ok (f.rowsAt order) := by
  rw [takeRows, size_eq_ok_iff.2 has, ok_bind, mapM_take_eq has inside]
  rfl

theorem header_rowsAt (f : Frame) (order : List Nat) : (f.rowsAt order).header = f.header := by
  simp only [header, contents, rowsAt, List.map_map]
  rfl

theorem rowList_rowsAt (has : HasRows f.columns n) (inside : ∀ row ∈ order, row < n)
    (counted : order.length = n) : (f.rowsAt order).rowList = valuesAt f.rowList order := by
  have data : (f.rowsAt order).contents.map Contents.data =
      (f.contents.map Contents.data).map fun xs => valuesAt xs order := by
    simp only [contents, rowsAt, List.map_map]
    exact List.map_congr_left fun c _ => (valuesAt_map _ _ _).symm
  rw [(has.rowsAt inside counted).rowList, has.rowList, data]
  conv_lhs => rw [← counted]
  exact (placewise_valuesAt inside).across has.data

theorem cellAt_rowsAt (has : HasRows f.columns n) (inside : ∀ row ∈ order, row < n) {i row : Nat}
    (there : order[i]? = some row) (key : Nat) : (f.rowsAt order).cellAt key i = f.cellAt key row := by
  rw [cellAt, cellAt, column, column, rowsAt, List.getElem?_map]
  cases found : f.columns[key]? with
  | none =>
    rw [width, width, List.length_map]
    rfl
  | some c =>
    rw [← has.length c (List.mem_of_getElem? found)] at inside
    exact Column.scalarAt_take (Column.take_eq_ok inside) inside there

theorem cellOf_rowsAt (has : HasRows f.columns n) (inside : ∀ row ∈ order, row < n) {i row : Nat}
    (there : order[i]? = some row) (key : Nat) : (f.rowsAt order).cellOf i key = f.cellOf row key := by
  rw [cellOf, cellOf, cellAt_rowsAt has inside there]

theorem compareAt_rowsAt (has : HasRows f.columns n) (inside : ∀ row ∈ order, row < n) {i j row row' : Nat}
    (here : order[i]? = some row) (there : order[j]? = some row') (keys : List Nat) :
    (f.rowsAt order).compareAt keys i j = f.compareAt keys row row' := by
  have cells {i row : Nat} (place : order[i]? = some row) :
      (f.rowsAt order).keyCells keys i = f.keyCells keys row :=
    List.map_congr_left fun key _ => cellOf_rowsAt has inside place key
  rw [compareAt, compareAt, cells here, cells there]

theorem pairwise_range_rowsAt (has : HasRows f.columns n) (inside : ∀ row ∈ order, row < n)
    (counted : order.length = n) {descending : Bool}
    (arranged : order.Pairwise (Precedes (directed descending (f.compareAt keys)))) :
    (List.range n).Pairwise (Precedes (directed descending ((f.rowsAt order).compareAt keys))) := by
  rw [List.pairwise_iff_getElem] at arranged ⊢
  intro i j hi hj less
  rw [List.length_range, ← counted] at hi hj
  rw [List.getElem_range, List.getElem_range, Precedes, directed,
    compareAt_rowsAt has inside (List.getElem?_eq_getElem hi) (List.getElem?_eq_getElem hj)]
  exact (arranged i j hi hj less).imp_right fun same => ⟨same.1, less⟩

theorem contents_rowsAt_range (has : HasRows f.columns n) :
    (f.rowsAt (List.range n)).contents = f.contents := by
  rw [contents, contents, rowsAt, List.map_map]
  refine List.map_congr_left fun c mem => ?_
  have same := valuesAt_range c.buffer.items
  have counted : c.buffer.items.length = n := has.length c mem
  rw [counted] at same
  exact congrArg (Contents.mk c.name c.type) same

theorem readable_rowsAt (readable : ∀ i ∈ keys, ∃ c, f.columns[i]? = some c ∧
      ∀ x ∈ c.contents.cells, (Cell.toScalar? c.type x).isSome) :
    ∀ i ∈ keys, ∃ c, (f.rowsAt order).columns[i]? = some c ∧
      ∀ x ∈ c.contents.cells, (Cell.toScalar? c.type x).isSome := by
  intro i key
  obtain ⟨c, there, scalars⟩ := readable i key
  refine ⟨.ofList c.type c.name (valuesAt c.buffer.items order), ?_, fun x mem => ?_⟩
  · rw [rowsAt, List.getElem?_map, there, Option.map_some]
  · exact scalars x (mem_of_mem_valuesAt mem)

end Moved

/-- A frame can be sorted, which puts its rows into the order of a comparison, and to sort it again changes no
cell. -/
def SortsBy (f : Frame) (n : Nat) (cmp : Frame → Nat → Nat → Ordering) (sort : Frame → Outcome Frame Unit) :
    Prop :=
  ∃ g, sort f = (.ok (), g) ∧ f.Arranges n (cmp f) g ∧ (List.range n).Pairwise (cmp g · · ≠ .gt) ∧
    ∃ h, sort g = (.ok (), h) ∧ h.contents = g.contents

section Sorted

variable (has : HasRows f.columns n)
  (readable : ∀ i ∈ keys, ∃ c, f.columns[i]? = some c ∧
    ∀ x ∈ c.contents.cells, (Cell.toScalar? c.type x).isSome) (descending : Bool)

include has readable

theorem exists_sortBy_eq : ∃ order, order.Perm (List.range n) ∧
    order.Pairwise (Precedes (directed descending (f.compareAt keys))) ∧
    f.sortBy descending keys = (.ok (), f.rowsAt order) := by
  have trans := transCmp_directed (f.transCmp_compareAt keys) descending
  let order := sortedOrder descending ((List.range n).map (f.keyCells keys))
  have sorted : order = _ := f.sortedOrder_eq n keys descending
  have same : order.Perm (List.range n) := by
    rw [sorted]
    exact List.mergeSort_perm _ _
  have inside : ∀ row ∈ order, row < n := fun row mem => List.mem_range.1 (same.mem_iff.1 mem)
  refine ⟨order, same, ?_, ?_⟩
  · rw [sorted]
    exact pairwise_mergeSort_range n
  · simp only [sortBy, atEnd, size_eq_ok_iff.2 has, keyRows_eq has readable]
    simp only [Except.bind, mapM_take_eq has inside, order]
    rfl

theorem sortsBy_sortBy :
    f.SortsBy n (fun g => directed descending (g.compareAt keys)) (·.sortBy descending keys) := by
  have trans := transCmp_directed (f.transCmp_compareAt keys) descending
  obtain ⟨order, same, arranged, sorted⟩ := exists_sortBy_eq has readable descending
  have inside : ∀ row ∈ order, row < n := fun row mem => List.mem_range.1 (same.mem_iff.1 mem)
  have counted : order.length = n := by rw [same.length_eq, List.length_range]
  have inOrder := pairwise_range_rowsAt has inside counted arranged
  refine ⟨_, sorted, ⟨header_rowsAt f order, order, same, arranged, rowList_rowsAt has inside counted,
    fun other same' arranged' => eq_of_pairwise_precedes (same'.trans same.symm) arranged' arranged⟩, ?_, ?_⟩
  · exact inOrder.imp fun before above => before.elim (by simp [above]) (by simp [above])
  · obtain ⟨again, same', arranged', sorted'⟩ :=
      exists_sortBy_eq (has.rowsAt inside counted) (readable_rowsAt readable) descending
    have trans' := transCmp_directed ((f.rowsAt order).transCmp_compareAt keys) descending
    obtain rfl := eq_of_pairwise_precedes same' arranged' inOrder
    exact ⟨_, sorted', contents_rowsAt_range (has.rowsAt inside counted)⟩

end Sorted

/-- Frames are sorted by columns whose cells have scalar forms. Any rows can be compared by these, and the sorted
rows are those of the frame, in the order of the comparison or of its opposite; rows that are equal by it stand
as they stood before, so that no other arrangement would do. -/
theorem sort_arranges (sized : f.size = .ok n)
    (readable : ∀ i ∈ keys, ∃ c, f.columns[i]? = some c ∧
      ∀ x ∈ c.contents.cells, (Cell.toScalar? c.type x).isSome) :
    (∀ i ∈ keys, ∀ row < n, f.cellAt i row = .ok (f.cellOf row i)) ∧
    (∀ i ∈ keys, ∃ k : Kind, ∀ row, k.Admits (f.cellOf row i)) ∧
    Std.TransCmp (f.compareAt keys) ∧ Std.TransCmp (fun row row' => (f.compareAt keys row row').swap) ∧
    f.SortsBy n (fun g => g.compareAt keys) (·.sort keys) ∧
    f.SortsBy n (fun g row row' => (g.compareAt keys row row').swap) (·.reverseSort keys) := by
  have has := size_eq_ok_iff.1 sized
  refine ⟨fun i key row below => ?_, fun i _ => f.exists_admits_cellOf i, f.transCmp_compareAt keys,
    transCmp_directed (f.transCmp_compareAt keys) true, sortsBy_sortBy has readable false,
    sortsBy_sortBy has readable true⟩
  obtain ⟨c, there, scalars⟩ := readable i key
  exact cellAt_eq_of_exists (GroupIndex.exists_cellAt has there scalars below)

private def readings : Frame :=
  ⟨[.ofList (.missing .float64) "level" [some .zero, none, some .nan, some .negZero, none, some .zero],
    .ofList (.foreign "Tag") "tag" [10, 11, 12, 13, 14, 15],
    .ofList .text "site" ["b", "a", "b", "b", "a", "b"]], none⟩

theorem sort_arranges_readings :
    readings.size = .ok 6 ∧
    (∀ i ∈ [2, 0, 2], ∃ c, readings.columns[i]? = some c ∧
      ∀ x ∈ c.contents.cells, (Cell.toScalar? c.type x).isSome) ∧
    (∃ g, readings.sort [2, 0, 2] = (.ok (), g) ∧
      g.rowList = valuesAt readings.rowList [1, 4, 3, 0, 5, 2]) ∧
    ∃ g, readings.reverseSort [2, 0, 2] = (.ok (), g) ∧
      g.rowList = valuesAt readings.rowList [2, 0, 5, 3, 1, 4] := by
  have sized : readings.size = .ok 6 := rfl
  have readable : ∀ i ∈ [2, 0, 2], ∃ c, readings.columns[i]? = some c ∧
      ∀ x ∈ c.contents.cells, (Cell.toScalar? c.type x).isSome := by
    simp only [List.forall_mem_cons]
    refine ⟨⟨_, rfl, ?_⟩, ⟨_, rfl, ?_⟩, ⟨_, rfl, ?_⟩, nofun⟩ <;> decide
  obtain ⟨-, -, -, -, ⟨g, up, ⟨-, _, -, -, moved, only⟩, -⟩, h, down, ⟨-, _, -, -, moved', only'⟩, -⟩ :=
    sort_arranges sized readable
  rw [← only [1, 4, 3, 0, 5, 2] (by decide) (by decide)] at moved
  rw [← only' [2, 0, 5, 3, 1, 4] (by decide) (by decide)] at moved'
  exact ⟨sized, readable, ⟨g, up, moved⟩, h, down, moved'⟩

end Frame

end Tabular
