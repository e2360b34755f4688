import Tabular.Group.Index
import Tabular.Proofs.Contents
import Tabular.Proofs.Distinct

/-! A group index is the partition of the rows by their keys: one bucket for each key, in the order in
which the keys are first met, with the rows of that key in their order. It depends on nothing but what
the frame shows and its stamp. -/

namespace Tabular

theorem foldlM_eq_mapM {ε α β γ : Type} {g : α → Except ε β} {h : β → α → γ → γ} (as : List α)
    (init : γ) :
    as.foldlM (fun c a => do return h (← g a) a c) init =
      (as.mapM g).map fun bs => (bs.zip as).foldl (fun c ba => h ba.1 ba.2 c) init := by
  induction as generalizing init with
  | nil => rfl
  | cons a as ih =>
    rw [List.foldlM_cons, List.mapM_cons]
    cases ran : g a with
    | error e => rfl
    | ok b =>
      simp only [ok_bind, pure_bind, ih]
      cases as.mapM g <;> rfl

namespace GroupIndex

def keysOf (cells : List (List Scalar)) : List (List Key) := cells.map (·.map Scalar.key)

/-- The rows with a key, and the cells of the first of them. -/
def bucketOf (cells : List (List Scalar)) (k : List Key) : Bucket :=
  ⟨(cells.find? fun c => c.map Scalar.key = k).getD [], placesOf (keysOf cells) k⟩

/-- A bucket for each key. -/
def partition (cells : List (List Scalar)) : List Bucket :=
  (keysOf cells).eraseDups.map (bucketOf cells)

theorem keysOf_append_singleton (cells : List (List Scalar)) (c : List Scalar) :
    keysOf (cells ++ [c]) = keysOf cells ++ [c.map Scalar.key] := by
  simp [keysOf]

theorem isSome_find?_of_mem {cells : List (List Scalar)} {k : List Key} (met : k ∈ keysOf cells) :
    (cells.find? fun c => c.map Scalar.key = k).isSome := by
  obtain ⟨c, inside, rfl⟩ := List.mem_map.1 met
  exact List.find?_isSome.2 ⟨c, inside, by simp⟩

theorem keys_bucketOf {cells : List (List Scalar)} {k : List Key} (met : k ∈ keysOf cells) :
    (bucketOf cells k).keys = k := by
  obtain ⟨c, found⟩ := Option.isSome_iff_exists.1 (isSome_find?_of_mem met)
  rw [Bucket.keys, bucketOf, found]
  simpa using List.find?_some found

section Buckets

variable {key : List Scalar} {row : Nat} {bucket : List Key → Bucket} {ks : List (List Key)}

theorem insertRow_of_not_mem (named : ∀ k ∈ ks, (bucket k).keys = k) (new : key.map Scalar.key ∉ ks) :
    insertRow key row (ks.map bucket) = ks.map bucket ++ [⟨key, [row]⟩] := by
  induction ks with
  | nil => rfl
  | cons k ks ih =>
    have rest := ih (fun k mem => named k (List.mem_cons_of_mem _ mem)) fun mem =>
      new (List.mem_cons_of_mem _ mem)
    have other : (bucket k).keys ≠ key.map Scalar.key := by
      rw [named k List.mem_cons_self]
      rintro rfl
      exact new List.mem_cons_self
    rw [List.map_cons, insertRow, if_neg other, rest, List.cons_append]

theorem insertRow_of_mem (named : ∀ k ∈ ks, (bucket k).keys = k) (distinct : ks.Nodup)
    (met : key.map Scalar.key ∈ ks) :
    insertRow key row (ks.map bucket) = ks.map fun k =>
      if k = key.map Scalar.key then { bucket k with rows := (bucket k).rows ++ [row] } else bucket k := by
  induction ks with
  | nil => cases met
  | cons k ks ih =>
    have ⟨apart, distinct⟩ := List.nodup_cons.1 distinct
    have head := named k List.mem_cons_self
    rw [List.map_cons, List.map_cons, insertRow, head]
    split
    · next same =>
      refine congrArg _ (List.map_congr_left fun j mem => (if_neg ?_).symm)
      rw [← same]
      rintro rfl
      exact apart mem
    · next other =>
      rw [ih (fun k mem => named k (List.mem_cons_of_mem _ mem)) distinct
        ((List.mem_cons.1 met).resolve_left (Ne.symm other))]

theorem find?_buckets (named : ∀ k ∈ ks, (bucket k).keys = k) (k : List Key) :
    (ks.map bucket).find? (fun b => b.keys = k) = if k ∈ ks then some (bucket k) else none := by
  induction ks with
  | nil => rfl
  | cons j ks ih =>
    have rest := ih fun k mem => named k (List.mem_cons_of_mem _ mem)
    rw [List.map_cons, List.find?_cons, named j List.mem_cons_self, rest]
    by_cases same : j = k
    · subst same
      simp
    · simp [same, Ne.symm same]

end Buckets

theorem bucketOf_append_singleton (cells : List (List Scalar)) (c : List Scalar) {k : List Key}
    (met : k ∈ keysOf cells) :
    bucketOf (cells ++ [c]) k =
      if k = c.map Scalar.key then
        { bucketOf cells k with rows := (bucketOf cells k).rows ++ [cells.length] }
      else bucketOf cells k := by
  have first : ((cells ++ [c]).find? fun c => c.map Scalar.key = k) =
      cells.find? fun c => c.map Scalar.key = k := by
    rw [List.find?_append, Option.or_of_isSome (isSome_find?_of_mem met)]
  have counted : (keysOf cells).length = cells.length := List.length_map _
  rw [bucketOf, bucketOf, first, keysOf_append_singleton, placesOf_append_singleton, counted]
  by_cases same : k = c.map Scalar.key
  · rw [if_pos same, if_pos same.symm]
  · rw [if_neg same, if_neg (Ne.symm same), List.append_nil]

theorem find?_partition (cells : List (List Scalar)) (k : List Key) :
    (partition cells).find? (fun b => b.keys = k) =
      if k ∈ keysOf cells then some (bucketOf cells k) else none := by
  have named : ∀ j ∈ (keysOf cells).eraseDups, (bucketOf cells j).keys = j := fun j mem =>
    keys_bucketOf (List.mem_eraseDups.1 mem)
  rw [partition, find?_buckets named]
  simp only [List.mem_eraseDups]

theorem partition_append_singleton (cells : List (List Scalar)) (c : List Scalar) :
    partition (cells ++ [c]) = insertRow c cells.length (partition cells) := by
  have named : ∀ k ∈ (keysOf cells).eraseDups, (bucketOf cells k).keys = k := fun k mem =>
    keys_bucketOf (List.mem_eraseDups.1 mem)
  have kept : ∀ k ∈ (keysOf cells).eraseDups, k ∈ keysOf cells := fun k mem => List.mem_eraseDups.1 mem
  rw [partition, partition, keysOf_append_singleton, eraseDups_append_singleton]
  split
  · next met =>
    rw [insertRow_of_mem named (nodup_eraseDups _) (List.mem_eraseDups.2 met)]
    exact List.map_congr_left fun k mem => bucketOf_append_singleton cells c (kept k mem)
  · next new =>
    rw [insertRow_of_not_mem named fun mem => new (kept _ mem), List.map_append]
    congr 1
    · refine List.map_congr_left fun k mem => ?_
      rw [bucketOf_append_singleton cells c (kept k mem), if_neg]
      rintro rfl
      exact new (kept _ mem)
    · have nowhere : (cells.find? fun d => d.map Scalar.key = c.map Scalar.key) = none := by
        refine List.find?_eq_none.2 fun d inside same => new ?_
        rw [← of_decide_eq_true same]
        exact List.mem_map_of_mem inside
      have places := placesOf_eq_nil_iff.2 new
      have counted : (keysOf cells).length = cells.length := List.length_map _
      rw [List.map_singleton, bucketOf, List.find?_append, nowhere, keysOf_append_singleton,
        placesOf_append_singleton, places, counted]
      simp

theorem foldl_insertRow (cells : List (List Scalar)) :
    (cells.zip (List.range cells.length)).foldl (fun buckets c => insertRow c.1 c.2 buckets) [] =
      partition cells := by
  -- Rows are taken in from the first to the last, so the last one is taken off.
  induction cells using List.reverseRecOn with
  | nil => rfl
  | append_singleton cells c ih =>
    rw [List.length_append, List.length_singleton, List.range_succ,
      List.zip_append List.length_range.symm, List.foldl_append, ih, partition_append_singleton]
    rfl

theorem build_eq {f : Frame} {keys : List Nat} (wide : keys ≠ []) :
    build f keys = (do
      let rows ← f.size
      let columns ← keys.mapM f.column
      let cells ← (List.range rows).mapM fun row => columns.mapM (·.scalarAt row)
      return ⟨keys, partition cells, rows, f.stamp?⟩) := by
  have nonempty : keys.isEmpty = false := by simpa using wide
  rw [build, nonempty]
  simp only [Bool.false_eq_true, if_false, foldlM_eq_mapM]
  refine congrArg _ (funext fun rows => congrArg _ (funext fun columns => ?_))
  cases read : (List.range rows).mapM fun row => columns.mapM (·.scalarAt row) with
  | error e => rfl
  | ok cells =>
    have counted := length_mapM read
    rw [List.length_range] at counted
    have grouped := foldl_insertRow cells
    rw [counted] at grouped
    simp only [Except.map, grouped, ok_bind]

end GroupIndex

def Contents.toColumn (x : Contents) : Column := ⟨x.type, ⟨x.name, ⟨x.cells, 0⟩, .fresh⟩⟩

namespace Frame

/-- The frame that shows just what `f` shows, with its stamp. -/
def bare (f : Frame) : Frame := ⟨f.contents.map Contents.toColumn, f.stamp?⟩

theorem commonLength_map {change : Column → Column} (named : ∀ c, (change c).name = c.name)
    (long : ∀ c, (change c).length = c.length) (columns : List Column) :
    commonLength (columns.map change) = commonLength columns := by
  cases columns with
  | nil => rfl
  | cons first rest =>
    rw [List.map_cons, commonLength, ← List.map_cons, List.zipIdx_map, List.find?_map, commonLength]
    simp only [Function.comp_def, Prod.map, long, id_eq]
    cases (first :: rest).zipIdx.find? _ with
    | none => rfl
    | some found => simp [named, long]

theorem size_bare (f : Frame) : f.bare.size = f.size := by
  have shown : f.bare.columns = f.columns.map fun c => c.contents.toColumn := List.map_map
  rw [size, size, shown]
  refine commonLength_map (fun c => ?_) (fun c => ?_) f.columns
  · rfl
  · rfl

theorem column_bare (f : Frame) (i : Nat) :
    f.bare.column i = (f.column i).map fun c => c.contents.toColumn := by
  simp only [column, bare, contents, List.getElem?_map, width, List.length_map]
  cases f.columns[i]? <;> rfl

theorem mapM_column_bare (f : Frame) (keys : List Nat) :
    keys.mapM f.bare.column = (keys.mapM f.column).map (List.map fun c => c.contents.toColumn) := by
  rw [← mapM_comp_map, funext f.column_bare]

end Frame

namespace GroupIndex

theorem build_bare (f : Frame) {keys : List Nat} (wide : keys ≠ []) :
    build f.bare keys = build f keys := by
  rw [build_eq wide, build_eq wide, f.size_bare, f.mapM_column_bare]
  refine congrArg _ (funext fun rows => ?_)
  cases keys.mapM f.column with
  | error e => rfl
  | ok columns =>
    simp only [Except.map, ok_bind, List.mapM_map]
    rfl

theorem columns_build {f : Frame} {keys : List Nat} {index : GroupIndex}
    (built : build f keys = .ok index) : index.columns = keys ∧ index.stamp? = f.stamp? := by
  by_cases none : keys = []
  · subst none
    cases built
  · rw [build_eq none] at built
    obtain ⟨rows, -, built⟩ := bind_eq_ok_iff.1 built
    obtain ⟨columns, -, built⟩ := bind_eq_ok_iff.1 built
    obtain ⟨cells, -, same⟩ := bind_eq_ok_iff.1 built
    cases same
    exact ⟨rfl, rfl⟩

theorem build_congr {f g : Frame} (shown : f.contents = g.contents) (stamp : f.stamp? = g.stamp?)
    (keys : List Nat) : build f keys = build g keys := by
  by_cases none : keys = []
  · rw [none]
    rfl
  · have same : f.bare = g.bare := by rw [Frame.bare, Frame.bare, shown, stamp]
    rw [← build_bare f none, same, build_bare g none]

end GroupIndex

end Tabular
