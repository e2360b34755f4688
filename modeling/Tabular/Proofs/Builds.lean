import Tabular.Frame.Build
import Tabular.Proofs.Edits

/-! Where the columns of a new frame come from: they are made of the columns of other frames and of those
handed over. A new frame has no stamp yet, unless it is an old one. -/

namespace Tabular

namespace Column

theorem fresh_of_takeOrDefault {c d : Column} {rows : List (Option Nat)}
    (taken : c.takeOrDefault rows = .ok d) : d.storage = .fresh := by
  rw [takeOrDefault] at taken
  split at taken
  · obtain ⟨fill, -, taken⟩ := bind_eq_ok_iff.1 taken
    obtain ⟨cells, -, same⟩ := bind_eq_ok_iff.1 taken
    cases same
    rfl
  · exact fresh_of_take taken

theorem fresh_of_aggregation {shared : Bool} {f : Frame} {buckets : List Bucket}
    {a : Aggregation Nat} {c : Column} (made : a.toColumn shared f buckets = .ok c) :
    c.storage = .fresh := by
  rw [Aggregation.toColumn] at made
  obtain ⟨values, -, made⟩ := bind_eq_ok_iff.1 made
  obtain ⟨name, -, made⟩ := bind_eq_ok_iff.1 made
  exact fresh_of_infer made

theorem result_derived {α : Type} {source : Column → Prop} {c d : Column} {o : Outcome Column α}
    (derived : c.Derived source) (elementary : c.Elementary o) (made : o.result = .ok d) :
    d.Derived source := by
  obtain ⟨_, -, rfl⟩ := map_eq_ok_iff.1 made
  exact derived.change elementary

theorem Derived.trans {source further : Column → Prop} {c : Column} (derived : c.Derived source)
    (deeper : ∀ b, source b → b.Derived further) : c.Derived further := by
  induction derived with
  | source given => exact deeper _ given
  | fresh new => exact .fresh new
  | change _ elementary ih => exact ih.change elementary

end Column

namespace Frame

/-- A new frame, without a stamp, whose columns are made of others. -/
structure Made (source : Column → Prop) (f : Frame) : Prop where
  stamp : f.stamp? = none
  derived : ∀ c ∈ f.columns, c.Derived source

section Makers

variable {source : Column → Prop} {f g made : Frame}

theorem made_of_ofColumns {columns : List Column} (derived : ∀ c ∈ columns, c.Derived source)
    (h : ofColumns columns = .ok made) : made.Made source := by
  obtain ⟨_, -, same⟩ := bind_eq_ok_iff.1 h
  cases same
  exact ⟨rfl, derived⟩

theorem made_of_addColumn {c : Column} (derived : ∀ c ∈ f.columns, c.Derived source)
    (handed : c.Derived source) (h : (f.addColumn c).result = .ok made) : made.Made source := by
  rw [addColumn, insertColumn] at h
  split at h
  · cases h
    refine ⟨rfl, fun d mem => ?_⟩
    rcases List.eq_or_mem_of_mem_insertIdx mem with rfl | mem
    · exact handed
    · exact derived d mem
  · cases h

theorem made_of_select {positions : List Nat} (derived : ∀ c ∈ f.columns, c.Derived source)
    (h : f.select positions = .ok made) : made.Made source := by
  obtain ⟨columns, picked, same⟩ := bind_eq_ok_iff.1 h
  cases same
  refine ⟨rfl, fun c mem => ?_⟩
  obtain ⟨i, -, found⟩ := exists_of_mem_mapM picked mem
  exact derived c (mem_of_column found)

theorem made_of_takeRows {rows : List Nat} (h : f.takeRows rows = .ok made) : made.Made source := by
  obtain ⟨_, -, h⟩ := bind_eq_ok_iff.1 h
  obtain ⟨columns, taken, same⟩ := bind_eq_ok_iff.1 h
  cases same
  refine ⟨rfl, fun c mem => ?_⟩
  obtain ⟨b, -, made⟩ := exists_of_mem_mapM taken mem
  exact .fresh (Column.fresh_of_take made)

theorem made_of_takeRowsOrDefault {rows : List (Option Nat)}
    (h : f.takeRowsOrDefault rows = .ok made) : made.Made source := by
  obtain ⟨_, -, h⟩ := bind_eq_ok_iff.1 h
  obtain ⟨columns, taken, same⟩ := bind_eq_ok_iff.1 h
  cases same
  refine ⟨rfl, fun c mem => ?_⟩
  obtain ⟨b, -, made⟩ := exists_of_mem_mapM taken mem
  exact .fresh (Column.fresh_of_takeOrDefault made)

theorem derived_pad {rows target : Nat} (derived : ∀ c ∈ f.columns, c.Derived source)
    (h : f.pad rows target = .ok made) : ∀ c ∈ made.columns, c.Derived source := by
  rw [pad] at h
  split at h
  · cases h
    exact derived
  · obtain ⟨_, -, rfl⟩ := map_eq_ok_iff.1 h
    intro c mem
    refine ((f.insertDefaultRows_safe _ _).derived c mem).trans fun b inside => derived b ?_
    simpa using inside

theorem made_of_hcat (left : ∀ c ∈ f.columns, c.Derived source)
    (right : ∀ c ∈ g.columns, c.Derived source) (h : f.hcat g = .ok made) : made.Made source := by
  obtain ⟨_, -, h⟩ := bind_eq_ok_iff.1 h
  obtain ⟨_, -, h⟩ := bind_eq_ok_iff.1 h
  obtain ⟨_, padded, h⟩ := bind_eq_ok_iff.1 h
  obtain ⟨_, padded', same⟩ := bind_eq_ok_iff.1 h
  cases same
  refine ⟨rfl, fun c mem => ?_⟩
  rcases List.mem_append.1 mem with mem | mem
  · exact derived_pad left padded c mem
  · exact derived_pad right padded' c mem

theorem made_of_vcat (upper : ∀ c ∈ f.columns, c.Derived source) (h : f.vcat g = .ok made) :
    made.Made source ∨ made = g := by
  rw [vcat] at h
  split at h
  · cases h
    exact .inr rfl
  · split at h
    · cases h
    · obtain ⟨_, -, h⟩ := bind_eq_ok_iff.1 h
      obtain ⟨_, -, h⟩ := bind_eq_ok_iff.1 h
      obtain ⟨columns, extended, same⟩ := bind_eq_ok_iff.1 h
      cases same
      refine .inl ⟨rfl, fun c mem => ?_⟩
      obtain ⟨⟨b, other⟩, inside, made⟩ := exists_of_mem_mapM extended mem
      exact Column.result_derived (upper b (List.of_mem_zip inside).1)
        (b.extendFrom_elementary other) made

theorem made_of_summarize {index : GroupIndex} {aggregations : List (Aggregation Nat)}
    {options : ScratchOptions} (h : index.summarize f aggregations options = .ok made) :
    made.Made source := by
  obtain ⟨keys, taken, h⟩ := bind_eq_ok_iff.1 h
  obtain ⟨columns, reduced, h⟩ := bind_eq_ok_iff.1 h
  refine made_of_ofColumns (fun c mem => ?_) h
  rcases List.mem_append.1 mem with mem | mem
  · obtain ⟨i, -, taken⟩ := exists_of_mem_mapM taken mem
    obtain ⟨b, -, taken⟩ := bind_eq_ok_iff.1 taken
    exact .fresh (Column.fresh_of_take taken)
  · obtain ⟨a, -, made⟩ := exists_of_mem_mapM reduced mem
    exact .fresh (Column.fresh_of_aggregation made)

theorem made_of_join {leftKey rightKey : Nat} {type : JoinType} {options : ScratchOptions}
    (h : f.join leftKey g rightKey type options = .ok made) : made.Made source := by
  obtain ⟨_, -, h⟩ := bind_eq_ok_iff.1 h
  obtain ⟨_, -, h⟩ := bind_eq_ok_iff.1 h
  obtain ⟨left, taken, h⟩ := bind_eq_ok_iff.1 h
  obtain ⟨right, taken', h⟩ := bind_eq_ok_iff.1 h
  exact made_of_hcat (made_of_takeRows taken).derived (made_of_takeRowsOrDefault taken').derived h

end Makers

def Build.columns : Build → List Column
  | .ofColumns columns => columns
  | .withColumn _ c => [c]
  | _ => []

theorem Build.run_made {frames : Nat → Frame} {indices : Nat → Option GroupIndex} {b : Build}
    {made : Frame} (h : b.run frames indices = .ok made) :
    made.Made (fun c => c ∈ b.columns ∨ ∃ i, c ∈ (frames i).columns) ∨ ∃ i, made = frames i := by
  have own (i : Nat) (given : List Column) : ∀ c ∈ (frames i).columns,
      c.Derived (fun c => c ∈ given ∨ ∃ i, c ∈ (frames i).columns) :=
    fun c mem => .source (.inr ⟨i, mem⟩)
  cases b with
  | ofColumns columns => exact .inl (made_of_ofColumns (fun c mem => .source (.inl mem)) h)
  | clone i =>
    cases h
    exact .inr ⟨i, rfl⟩
  | select i positions => exact .inl (made_of_select (own i _) h)
  | withColumn i c =>
    exact .inl (made_of_addColumn (own i _) (.source (.inl List.mem_cons_self)) h)
  | takeRows i rows => exact .inl (made_of_takeRows h)
  | takeRowsOrDefault i rows => exact .inl (made_of_takeRowsOrDefault h)
  | hcat i j => exact .inl (made_of_hcat (own i _) (own j _) h)
  | vcat i j =>
    rcases made_of_vcat (own i _) h with made | same
    · exact .inl made
    · exact .inr ⟨j, same⟩
  | filter i condition =>
    obtain ⟨mask, -, h⟩ := bind_eq_ok_iff.1 h
    exact .inl (made_of_takeRows h)
  | groupBy i keys aggregations options =>
    obtain ⟨index, -, h⟩ := bind_eq_ok_iff.1 h
    exact .inl (made_of_summarize h)
  | aggregate i index aggregations options =>
    rw [run] at h
    split at h
    · rw [GroupIndex.aggregate] at h
      split at h
      · exact .inl (made_of_summarize h)
      · cases h
    · cases h
  | join i leftKey j rightKey type options => exact .inl (made_of_join h)

end Frame

end Tabular
