import Tabular.Proofs.Rows

/-! A frame read as the list of its rows. A row is the tuple of the elements that stand side by side, each
with its type. What rearranges a column by places alone does the same to the rows, and rows come and go
as the elements of all columns do. -/

namespace Tabular

section Across

variable {α : Type}

/-- The rows across columns of `n` elements. -/
def across (n : Nat) : List (List α) → List (List α)
  | [] => List.replicate n []
  | c :: cs => List.zipWith List.cons c (across n cs)

theorem length_across {n : Nat} {columns : List (List α)} (long : ∀ c ∈ columns, c.length = n) :
    (across n columns).length = n := by
  induction columns with
  | nil => exact List.length_replicate
  | cons c cs ih =>
    have head := long c List.mem_cons_self
    have tail := ih fun c mem => long c (List.mem_cons_of_mem _ mem)
    simp [across, head, tail]

theorem across_map_replicate (count : Nat) (row : List α) :
    across count (row.map (List.replicate count ·)) = List.replicate count row := by
  induction row with
  | nil => rfl
  | cons x row ih => simp [across, ih]

theorem getElem?_across {n i : Nat} {columns : List (List α)} (long : ∀ c ∈ columns, c.length = n)
    (below : i < n) : (across n columns)[i]? = columns.mapM (·[i]?) := by
  induction columns with
  | nil => simp [across, below]
  | cons c cs ih =>
    have inside : i < c.length := by rw [long c List.mem_cons_self]; exact below
    have rest := ih fun c mem => long c (List.mem_cons_of_mem _ mem)
    have there : i < (across n cs).length := by
      rw [length_across fun c mem => long c (List.mem_cons_of_mem _ mem)]
      exact below
    rw [List.getElem?_eq_getElem there] at rest
    rw [across, List.getElem?_zipWith, List.mapM_cons, ← rest]
    simp [inside, there]

/-- Rearrangements of `n` elements to `m` that look at nothing but their places. -/
structure Placewise (n m : Nat) (rearrange : ∀ {β : Type}, List β → List β) : Prop where
  zipWith : ∀ {β γ δ : Type} (g : β → γ → δ) (xs : List β) (ys : List γ), xs.length = n →
    ys.length = n → rearrange (List.zipWith g xs ys) = List.zipWith g (rearrange xs) (rearrange ys)
  replicate : ∀ {β : Type} (x : β), rearrange (List.replicate n x) = List.replicate m x

theorem Placewise.across {n m : Nat} {rearrange : ∀ {β : Type}, List β → List β}
    (placewise : Placewise n m rearrange) {columns : List (List α)}
    (long : ∀ c ∈ columns, c.length = n) :
    across m (columns.map rearrange) = rearrange (across n columns) := by
  induction columns with
  | nil => exact (placewise.replicate []).symm
  | cons c cs ih =>
    have tails := fun c mem => long c (List.mem_cons_of_mem _ mem)
    have head := long c List.mem_cons_self
    simp only [List.map_cons, Tabular.across]
    rw [ih tails, placewise.zipWith _ _ _ head (length_across tails)]

end Across

structure Datum where
  type : CellType
  cell : Cell type

abbrev Row : Type := List Datum

namespace Contents

def data (x : Contents) : List Datum := x.cells.map (Datum.mk x.type)

def header (x : Contents) : String × CellType := (x.name, x.type)

@[simp] theorem length_data (x : Contents) : x.data.length = x.length := by simp [data, length]

theorem data_splice (x : Contents) (pos : Nat) (cells : List (Cell x.type)) :
    (x.splice pos cells).data =
      x.data.take pos ++ cells.map (Datum.mk x.type) ++ x.data.drop pos := by
  simp [data, splice, List.map_take, List.map_drop]

theorem data_erase (x : Contents) (first last : Nat) :
    (x.erase first last).data = x.data.take first ++ x.data.drop last := by
  simp [data, erase, List.map_take, List.map_drop]

end Contents

namespace Frame

def height (f : Frame) : Nat := (f.columns.head?.map Column.length).getD 0

def rowList (f : Frame) : List Row := across f.height (f.contents.map Contents.data)

def header (f : Frame) : List (String × CellType) := f.contents.map Contents.header

def types (f : Frame) : List CellType := f.columns.map Column.type

theorem types_eq (f : Frame) : f.types = f.header.map Prod.snd := by
  simp only [types, header, contents, List.map_map]
  rfl

section Reading

variable {f : Frame} {n : Nat}

theorem HasRows.height (has : HasRows f.columns n) : f.height = n := by
  cases columns : f.columns with
  | nil => simp [Frame.height, columns, has.empty columns]
  | cons c cs => simp [Frame.height, columns, has.length c (by simp [columns])]

theorem HasRows.contents (has : HasRows f.columns n) : ∀ x ∈ f.contents, x.length = n := by
  intro x mem
  obtain ⟨c, inside, rfl⟩ := List.mem_map.1 mem
  exact has.length c inside

theorem HasRows.data (has : HasRows f.columns n) :
    ∀ d ∈ f.contents.map Contents.data, d.length = n := by
  intro d mem
  obtain ⟨x, inside, rfl⟩ := List.mem_map.1 mem
  simpa using has.contents x inside

theorem HasRows.rowList (has : HasRows f.columns n) :
    f.rowList = across n (f.contents.map Contents.data) := by
  rw [Frame.rowList, has.height]

theorem HasRows.length_rowList (has : HasRows f.columns n) : f.rowList.length = n := by
  rw [has.rowList, length_across has.data]

/-- The elements at one place of all columns, whatever their lengths. -/
def rowAt? (f : Frame) (i : Nat) : Option Row := (f.contents.map Contents.data).mapM (·[i]?)

theorem getElem?_rowList (has : HasRows f.columns n) (wide : f.columns ≠ []) (i : Nat) :
    f.rowList[i]? = f.rowAt? i := by
  by_cases below : i < n
  · rw [has.rowList, getElem?_across has.data below, rowAt?]
  · have beyond : f.rowList.length ≤ i := by
      rw [has.length_rowList]
      omega
    obtain ⟨c, cs, columns⟩ := List.exists_cons_of_ne_nil wide
    have short : c.contents.data.length ≤ i := by
      have long := has.length c (by simp [columns])
      simp only [Contents.length_data, Column.length_contents]
      omega
    rw [List.getElem?_eq_none beyond]
    simp [rowAt?, contents, columns, List.mapM_cons, List.getElem?_eq_none short]

section Erasures

variable {first last : Nat}

theorem placewise_erase (ordered : first ≤ last) (inside : last ≤ n) :
    Placewise n (n - (last - first)) fun xs => xs.take first ++ xs.drop last where
  zipWith g xs ys long long' := by
    rw [List.take_zipWith, List.drop_zipWith, List.zipWith_append]
    simp [long, long']
  replicate x := by
    simp only [List.take_replicate, List.drop_replicate, List.replicate_append_replicate]
    congr 1
    omega

theorem eraseRows_spec (has : HasRows f.columns n) (ordered : first ≤ last) (inside : last ≤ n) :
    ∃ g, f.eraseRows first last = (.ok (last - first), g) ∧
      g.contents = f.contents.map (·.erase first last) ∧ HasRows g.columns (n - (last - first)) := by
  refine ⟨_, eraseRows_ok has ordered inside, ?_, has.erase ordered inside⟩
  simp only [contents, List.map_map]
  refine List.map_congr_left fun c mem => ?_
  exact (c.erase_spec ordered (by rw [has.length c mem]; exact inside)).2

theorem header_of_erase {g : Frame} (shown : g.contents = f.contents.map (·.erase first last)) :
    g.header = f.header := by
  rw [header, shown, List.map_map]
  rfl

theorem rowList_of_erase {g : Frame} (has : HasRows f.columns n) (ordered : first ≤ last)
    (inside : last ≤ n) (shown : g.contents = f.contents.map (·.erase first last))
    (left : HasRows g.columns (n - (last - first))) :
    g.rowList = f.rowList.take first ++ f.rowList.drop last := by
  have data : g.contents.map Contents.data =
      (f.contents.map Contents.data).map fun xs => xs.take first ++ xs.drop last := by
    rw [shown, List.map_map, List.map_map]
    exact List.map_congr_left fun x _ => x.data_erase first last
  rw [left.rowList, has.rowList, data]
  exact (placewise_erase ordered inside).across has.data

end Erasures

end Reading

end Frame

end Tabular
