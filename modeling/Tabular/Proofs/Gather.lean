import Tabular.Frame.Rows
import Tabular.Proofs.Rows

/-! Rows gathered from a frame by their places, with a row of defaults where no place is given. That
succeeds if every place is one of a row and defaults are not called for in vain, and what is gathered
is in the order of the places. -/

namespace Tabular

theorem exists_map_some_iff {α β : Type} {f : α → Option β} {as : List α} :
    (∃ bs : List β, bs.map some = as.map f) ↔ ∀ a ∈ as, (f a).isSome := by
  induction as with
  | nil => simp
  | cons a as ih =>
    rw [List.forall_mem_cons, ← ih, List.map_cons]
    constructor
    · rintro ⟨bs, same⟩
      obtain ⟨b, bs, rfl, head, tail⟩ := List.map_eq_cons_iff.1 same
      exact ⟨by rw [← head]; rfl, bs, tail⟩
    · rintro ⟨head, bs, tail⟩
      obtain ⟨b, found⟩ := Option.isSome_iff_exists.1 head
      exact ⟨b :: bs, by rw [List.map_cons, tail, found]⟩

theorem mapM_eq_ok_iff_map {ε α β : Type} {f : α → Option β} {g : α → Except ε β} {as : List α}
    {bs : List β} (same : ∀ a b, g a = .ok b ↔ f a = some b) :
    as.mapM g = .ok bs ↔ bs.map some = as.map f := by
  rw [mapM_eq_ok_iff, eq_comm, ← List.forall₂_eq_eq_eq, List.forall₂_map_left_iff,
    List.forall₂_map_right_iff]
  simp only [same]

theorem map_getElem?_range' {α : Type} {xs : List α} {first last : Nat} (inside : last ≤ xs.length) :
    (List.range' first (last - first)).map (xs[·]?) = (Buffer.slice xs first last).map some := by
  refine List.ext_getElem? fun i => ?_
  by_cases below : i < last - first
  · have there : first + i < xs.length := by omega
    simp [Buffer.slice, below, there]
  · have beyond : (Buffer.slice xs first last).length ≤ i := by
      rw [Buffer.length_slice inside]
      omega
    simp [below, beyond]

namespace Column

/-- The element at a place, and the default where there is no place. -/
def cell? (c : Column) : Option Nat → Option (Cell c.type)
  | some i => c.buffer.items[i]?
  | none => Cell.default? c.type

/-- What is left of a column's elements, with its name and type: those at these places, in this order. -/
def Gathers (c : Column) (places : List (Option Nat)) (x : Contents) : Prop :=
  ∃ cells, x = ⟨c.name, c.type, cells⟩ ∧ cells.map some = places.map c.cell?

variable {c d : Column}

theorem Gathers.length {places : List (Option Nat)} {x : Contents} (gathered : c.Gathers places x) :
    x.length = places.length := by
  obtain ⟨cells, rfl, same⟩ := gathered
  have counted := congrArg List.length same
  rwa [List.length_map, List.length_map] at counted

theorem Gathers.eq {places : List (Option Nat)} {x : Contents} (gathered : c.Gathers places x)
    {cells : List (Cell c.type)} (found : cells.map some = places.map c.cell?) : x = ⟨c.name, c.type, cells⟩ := by
  obtain ⟨cells', rfl, same⟩ := gathered
  rw [List.map_injective_iff.2 (fun _ _ => Option.some.inj) (same.trans found.symm)]

theorem get_eq_ok_iff {i : Nat} {x : Cell c.type} : c.series.get i = .ok x ↔ c.cell? (some i) = some x := by
  show Buffer.get c.series.buffer i = .ok x ↔ c.series.buffer.items[i]? = some x
  rw [Buffer.get]
  split
  · next y found => rw [found, Except.ok.injEq, Option.some.injEq]
  · next none => simp [none]

theorem scalarAt_of_getElem? {i : Nat} {x : Cell c.type} (there : c.buffer.items[i]? = some x) :
    c.scalarAt i = Cell.toScalar c.type x := by
  rw [scalarAt, get_eq_ok_iff.2 there, ok_bind]

theorem default_eq_ok_iff {t : CellType} {x : Cell t} :
    Cell.default t = .ok x ↔ Cell.default? t = some x := by
  rw [Cell.default]
  cases Cell.default? t <;> simp

theorem take_eq_ok_iff {rows : List Nat} :
    c.take rows = .ok d ↔ ∃ cells, d = ofList c.type c.name cells ∧
      cells.map some = (rows.map some).map c.cell? := by
  rw [take, bind_eq_ok_iff, List.map_map]
  refine exists_congr fun cells => ?_
  rw [mapM_eq_ok_iff_map (f := c.cell? ∘ some) fun i x => get_eq_ok_iff, and_comm]
  exact and_congr_left' ⟨fun same => (Except.ok.inj same).symm, fun same => by rw [same]; rfl⟩

theorem takeOrDefault_eq_ok_iff {places : List (Option Nat)} :
    c.takeOrDefault places = .ok d ↔ ∃ cells, d = ofList c.type c.name cells ∧
      cells.map some = places.map c.cell? := by
  rw [takeOrDefault]
  split
  · next gaps =>
    cases fill : Cell.default? c.type with
    | none =>
      have refused : Cell.default c.type = .error (.noDefault c.type) := by rw [Cell.default, fill]
      rw [refused]
      refine ⟨nofun, fun ⟨cells, _, same⟩ => ?_⟩
      have called : c.cell? none ∈ cells.map some := by
        rw [same]
        exact List.mem_map_of_mem (List.contains_iff_mem.1 gaps)
      rw [cell?, fill] at called
      simp at called
    | some x =>
      rw [default_eq_ok_iff.2 fill, ok_bind, bind_eq_ok_iff]
      refine exists_congr fun cells => ?_
      rw [mapM_eq_ok_iff_map (f := c.cell?) fun place y => ?_, and_comm]
      · exact and_congr_left' ⟨fun same => (Except.ok.inj same).symm, fun same => by rw [same]; rfl⟩
      · cases place with
        | none => rw [cell?, fill, Except.ok.injEq, Option.some.injEq]
        | some row => exact get_eq_ok_iff
  · next full =>
    have rows : (places.filterMap id).map some = places := by
      rw [List.map_filterMap_some_eq_filter_map_isSome, List.map_id]
      refine List.filter_eq_self.2 fun place mem => Option.isSome_iff_ne_none.2 ?_
      rintro rfl
      exact full (List.contains_iff_mem.2 mem)
    rw [take_eq_ok_iff, rows]

theorem takeOrDefault_map_some (c : Column) (rows : List Nat) :
    c.takeOrDefault (rows.map some) = c.take rows := by
  rw [takeOrDefault, if_neg (by simp), List.filterMap_map, Function.id_comp, List.filterMap_some]

end Column

namespace Frame

variable {f g made : Frame} {n : Nat} {places : List (Option Nat)}

theorem takeRowsOrDefault_map_some (f : Frame) (rows : List Nat) :
    f.takeRowsOrDefault (rows.map some) = f.takeRows rows := by
  simp only [takeRowsOrDefault, takeRows, Column.takeOrDefault_map_some]

theorem takeRowsOrDefault_eq_ok_iff (has : HasRows f.columns n) :
    f.takeRowsOrDefault places = .ok made ↔
      ∃ columns, f.columns.mapM (·.takeOrDefault places) = .ok columns ∧ made = ⟨columns, none⟩ := by
  rw [takeRowsOrDefault, size_eq_ok_iff.2 has, ok_bind, bind_eq_ok_iff]
  refine exists_congr fun columns => and_congr_right fun _ => ?_
  exact ⟨fun same => (Except.ok.inj same).symm, fun same => by rw [same]; rfl⟩

theorem takeRows_of_forall (has : HasRows f.columns n) {rows : List Nat}
    (pick : (c : Column) → List (Cell c.type))
    (picks : ∀ c ∈ f.columns, (pick c).map some = rows.map (c.buffer.items[·]?)) :
    f.takeRows rows = .ok ⟨f.columns.map fun c => .ofList c.type c.name (pick c), none⟩ := by
  have each : f.columns.mapM (·.take rows) =
      .ok (f.columns.map fun c => .ofList c.type c.name (pick c)) := by
    rw [mapM_eq_ok_iff, List.forall₂_map_right_iff, List.forall₂_same]
    intro c mem
    have taken := picks c mem
    exact Column.take_eq_ok_iff.2 ⟨pick c, rfl, by rwa [List.map_map]⟩
  rw [takeRows, size_eq_ok_iff.2 has, ok_bind, each]
  rfl

theorem exists_takeRowsOrDefault_iff (has : HasRows f.columns n) :
    (∃ made, f.takeRowsOrDefault places = .ok made) ↔
      ∀ c ∈ f.columns, ∀ place ∈ places, (c.cell? place).isSome := by
  have columns : (∃ made, f.takeRowsOrDefault places = .ok made) ↔
      ∃ columns, f.columns.mapM (·.takeOrDefault places) = .ok columns := by
    simp only [takeRowsOrDefault_eq_ok_iff has]
    exact ⟨fun ⟨_, columns, taken, _⟩ => ⟨columns, taken⟩, fun ⟨columns, taken⟩ => ⟨_, columns, taken, rfl⟩⟩
  rw [columns, exists_mapM_iff]
  refine forall_congr' fun c => imp_congr_right fun _ => ?_
  rw [← exists_map_some_iff]
  simp only [Column.takeOrDefault_eq_ok_iff]
  exact ⟨fun ⟨_, cells, _, same⟩ => ⟨cells, same⟩, fun ⟨cells, same⟩ => ⟨_, cells, rfl, same⟩⟩

theorem gathers_of_takeRowsOrDefault (has : HasRows f.columns n)
    (taken : f.takeRowsOrDefault places = .ok made) :
    List.Forall₂ (fun c x => c.Gathers places x) f.columns made.contents := by
  obtain ⟨columns, each, rfl⟩ := (takeRowsOrDefault_eq_ok_iff has).1 taken
  rw [contents, List.forall₂_map_right_iff]
  refine (mapM_eq_ok_iff.1 each).imp fun c d taken => ?_
  obtain ⟨cells, rfl, same⟩ := Column.takeOrDefault_eq_ok_iff.1 taken
  exact ⟨cells, rfl, same⟩

theorem hasRows_of_gathers {columns : List Column} (wide : columns ≠ [])
    (gathered : List.Forall₂ (fun c x => c.Gathers places x) columns made.contents) :
    HasRows made.columns places.length := by
  rw [contents, List.forall₂_map_right_iff] at gathered
  refine ⟨fun d mem => ?_, fun none => ?_⟩
  · clear wide
    generalize made.columns = ds at gathered mem
    induction gathered with
    | nil => cases mem
    | cons head _ ih =>
      rcases List.mem_cons.1 mem with rfl | mem
      · exact head.length
      · exact ih mem
  · rw [none, List.forall₂_nil_right_iff] at gathered
    exact absurd gathered wide

theorem pad_of_le {rows target : Nat} (long : target ≤ rows) : f.pad rows target = .ok f := by
  rw [pad, if_pos (by simp [long])]

theorem hcat_of_hasRows (left : HasRows f.columns n) (right : HasRows g.columns n) :
    f.hcat g = .ok ⟨f.columns ++ g.columns, none⟩ := by
  rw [hcat, size_eq_ok_iff.2 left, size_eq_ok_iff.2 right]
  simp only [ok_bind, pad_of_le (Nat.le_refl n)]
  rfl

end Frame

end Tabular
