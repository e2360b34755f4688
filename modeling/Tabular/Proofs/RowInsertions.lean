import Tabular.Proofs.Gather
import Tabular.Proofs.RowLists

/-! Rows put before a position of a frame, column by column and into each column in its own way: values,
defaults, elements of another frame or of the frame itself. Either every column takes its part, and then
the list of rows has the new rows at that position, or the insertion is refused. What was inserted can be
erased again. -/

namespace Tabular

namespace Row

def cell? (t : CellType) : Option Scalar → Option (Cell t)
  | some v => Cell.ofScalar? t v
  | none => Cell.default? t

/-- The row of these values. Columns for which there is no value take their default. -/
def ofScalars? : List CellType → List Scalar → Option Row
  | [], [] => some []
  | [], _ :: _ => none
  | t :: types, values => do
    let x ← cell? t values.head?
    let rest ← ofScalars? types values.tail
    return ⟨t, x⟩ :: rest

theorem ofScalars?_of_lt {types : List CellType} {values : List Scalar}
    (wide : types.length < values.length) : ofScalars? types values = none := by
  induction types generalizing values with
  | nil =>
    cases values with
    | nil => simp at wide
    | cons v vs => rfl
  | cons t types ih =>
    have rest : ofScalars? types values.tail = none := ih (by simp at wide ⊢; omega)
    simp [ofScalars?, rest]

/-- A row of a frame, for a list of rows of these types. -/
def copy? (types : List CellType) (source : Frame) (row : Nat) : Option Row :=
  (source.rowAt? row).bind fun r => if r.map Datum.type = types then some r else none

/-- So many rows of defaults. No defaults are needed for no rows. -/
def defaults? (types : List CellType) (count : Nat) : Option (List Row) :=
  if count = 0 then some [] else (ofScalars? types []).map (List.replicate count ·)

theorem length_of_defaults? {types : List CellType} {count : Nat} {new : List Row}
    (made : defaults? types count = some new) : new.length = count := by
  rw [defaults?] at made
  split at made
  · next none =>
    cases made
    exact none.symm
  · obtain ⟨row, -, rfl⟩ := Option.map_eq_some_iff.1 made
    exact List.length_replicate

end Row

def Column.Takes (c : Column) (pos : Nat) (cells? : Option (List (Cell c.type)))
    (o : Outcome Column Unit) : Prop :=
  match cells? with
  | some cells => o.1 = .ok () ∧ o.2.contents = c.contents.splice pos cells
  | none => ∃ err, o.1 = .error err

theorem Column.Splices.takes {c : Column} {pos : Nat} {cells? : Except Error (List (Cell c.type))}
    {o : Outcome Column Unit} (splices : c.Splices pos cells? o) : c.Takes pos cells?.toOption o := by
  cases cells? with
  | ok cells => exact splices
  | error err => exact ⟨err, splices.1⟩

namespace Frame

/-- Columns before and after elements were put before position `pos`, a part into each of them. -/
inductive Spliced (pos : Nat) : List Contents → List (List Datum) → List Contents → Prop
  | nil : Spliced pos [] [] []
  | cons {x : Contents} {xs ys : List Contents} {parts : List (List Datum)}
    (cells : List (Cell x.type)) (rest : Spliced pos xs parts ys) :
    Spliced pos (x :: xs) (cells.map (Datum.mk x.type) :: parts) (x.splice pos cells :: ys)

namespace Spliced

variable {pos n count : Nat} {xs ys : List Contents} {parts : List (List Datum)}

theorem header (spliced : Spliced pos xs parts ys) :
    ys.map Contents.header = xs.map Contents.header := by
  induction spliced with
  | nil => rfl
  | cons cells rest ih =>
    simp only [List.map_cons, ih]
    rfl

theorem length (spliced : Spliced pos xs parts ys) (long : ∀ x ∈ xs, x.length = n)
    (counted : ∀ part ∈ parts, part.length = count) : ∀ y ∈ ys, y.length = n + count := by
  induction spliced with
  | nil => exact nofun
  | @cons x xs ys parts cells rest ih =>
    have head : cells.length = count := by simpa using counted _ List.mem_cons_self
    have tail := ih (fun x mem => long x (List.mem_cons_of_mem _ mem))
      fun part mem => counted part (List.mem_cons_of_mem _ mem)
    refine List.forall_mem_cons.2 ⟨?_, tail⟩
    rw [x.length_splice, long x List.mem_cons_self, head]

theorem across (spliced : Spliced pos xs parts ys) (long : ∀ x ∈ xs, x.length = n)
    (counted : ∀ part ∈ parts, part.length = count) (inside : pos ≤ n) :
    across (n + count) (ys.map Contents.data) =
      (across n (xs.map Contents.data)).take pos ++ across count parts ++
        (across n (xs.map Contents.data)).drop pos := by
  induction spliced with
  | nil =>
    simp only [List.map_nil, Tabular.across, List.take_replicate, List.drop_replicate,
      List.replicate_append_replicate]
    congr 1
    omega
  | @cons x xs ys parts cells rest ih =>
    have tails := fun x mem => long x (List.mem_cons_of_mem _ mem)
    have head : x.data.length = n := by simpa using long x List.mem_cons_self
    have new : (cells.map (Datum.mk x.type)).length = count := counted _ List.mem_cons_self
    have others := fun part mem => counted part (List.mem_cons_of_mem _ mem)
    have below : (Tabular.across n (xs.map Contents.data)).length = n :=
      length_across fun d mem => by
        obtain ⟨y, inside, rfl⟩ := List.mem_map.1 mem
        simpa using tails y inside
    have between : (Tabular.across count parts).length = count := length_across others
    simp only [List.map_cons, Tabular.across]
    rw [ih tails others, x.data_splice, List.zipWith_append, List.zipWith_append, List.take_zipWith,
      List.drop_zipWith]
    · simp [head, below]
    · simp [head, below, new, between]

theorem erase (spliced : Spliced pos xs parts ys) (long : ∀ x ∈ xs, x.length = n)
    (counted : ∀ part ∈ parts, part.length = count) (inside : pos ≤ n) :
    ys.map (·.erase pos (pos + count)) = xs := by
  induction spliced with
  | nil => rfl
  | @cons x xs ys parts cells rest ih =>
    have tail := ih (fun x mem => long x (List.mem_cons_of_mem _ mem))
      fun part mem => counted part (List.mem_cons_of_mem _ mem)
    have head : cells.length = count := by simpa using counted _ List.mem_cons_self
    have reaches : pos ≤ x.length := by
      rw [long x List.mem_cons_self]
      exact inside
    rw [List.map_cons, tail, ← head, x.erase_splice reaches]

end Spliced

def parts? (cells? : Nat → (c : Column) → Option (List (Cell c.type))) :
    Nat → List Column → Option (List (List Datum))
  | _, [] => some []
  | i, c :: cs => do
    let cells ← cells? i c
    let others ← parts? cells? (i + 1) cs
    return cells.map (Datum.mk c.type) :: others

section Insertions

variable {f g : Frame} {n pos count : Nat} {insert : Nat → Column → Outcome Column Unit}
  {cells? : Nat → (c : Column) → Option (List (Cell c.type))}

theorem insertEach_spliced (undo : Column → Column) {columns : List Column}
    (takes : ∀ i, ∀ c ∈ columns, c.Takes pos (cells? i c) (insert i c)) (i : Nat) :
    match parts? cells? i columns with
    | some parts => ∃ after, insertEach insert undo i columns = (.ok (), after) ∧
        Spliced pos (columns.map Column.contents) parts (after.map Column.contents)
    | none => ∃ err after, insertEach insert undo i columns = (.error err, after) := by
  induction columns generalizing i with
  | nil => exact ⟨[], rfl, .nil⟩
  | cons c cs ih =>
    have head := takes i c List.mem_cons_self
    have tail := ih (fun i c mem => takes i c (List.mem_cons_of_mem _ mem)) (i + 1)
    generalize ran : insert i c = o at head
    obtain ⟨answer, b⟩ := o
    cases put : cells? i c with
    | none =>
      rw [put] at head
      obtain ⟨err, refused⟩ := head
      simp only at refused
      simp only [parts?, put, insertEach, ran, refused]
      exact ⟨err, _, rfl⟩
    | some cells =>
      rw [put] at head
      obtain ⟨accepted, shown⟩ := head
      simp only at accepted shown
      cases others : parts? cells? (i + 1) cs with
      | none =>
        rw [others] at tail
        obtain ⟨err, after, refused⟩ := tail
        simp only [parts?, put, others, insertEach, ran, accepted, refused]
        exact ⟨err, _, rfl⟩
      | some parts =>
        rw [others] at tail
        obtain ⟨after, made, spliced⟩ := tail
        simp only [parts?, put, others, insertEach, ran, accepted, made]
        refine ⟨b :: after, rfl, ?_⟩
        rw [List.map_cons, List.map_cons, shown]
        exact .cons (x := c.contents) cells spliced

/-- The frame `g` is `f` with `new` rows put before position `pos`. -/
def Inserted (f : Frame) (pos : Nat) (new : List Row) (g : Frame) : Prop :=
  ∃ parts, Spliced pos f.contents parts g.contents ∧ (∀ part ∈ parts, part.length = new.length) ∧
    across new.length parts = new

/-- What an insertion of rows, if there are such rows, comes to: they are put before a position that is
there, or nothing is. -/
inductive Insertion (f : Frame) (pos : Nat) : Option (List Row) → Except Error Frame → Prop
  | accepted {new : List Row} {g : Frame} (inside : pos ≤ f.height) (inserted : f.Inserted pos new g) :
    Insertion f pos (some new) (.ok g)
  | beyond (new? : Option (List Row)) (err : Error) (far : f.height < pos) :
    Insertion f pos new? (.error err)
  | refused (err : Error) : Insertion f pos none (.error err)

theorem lockstepInsert_insertion (has : HasRows f.columns n)
    (takes : ∀ i (c : Column), pos ≤ c.length → c.Takes pos (cells? i c) (insert i c))
    (counted : ∀ parts, parts? cells? 0 f.columns = some parts →
      ∀ part ∈ parts, part.length = count) :
    f.Insertion pos ((parts? cells? 0 f.columns).map (across count))
      (f.lockstepInsert pos count insert).result := by
  rw [lockstepInsert, size_eq_ok_iff.2 has]
  by_cases far : n < pos
  · simp only [if_pos far]
    exact .beyond _ _ (by rw [has.height]; exact far)
  · have inside : pos ≤ n := by omega
    have reaches (c : Column) (mem : c ∈ f.columns) : pos ≤ c.length := by
      rw [has.length c mem]
      exact inside
    have each := insertEach_spliced (fun c => (c.erase pos (pos + count)).2)
      (fun i c mem => takes i c (reaches c mem)) 0
    simp only [if_neg far]
    cases made : parts? cells? 0 f.columns with
    | none =>
      rw [made] at each
      obtain ⟨err, after, refused⟩ := each
      simp only [refused]
      exact .refused err
    | some parts =>
      rw [made] at each
      obtain ⟨after, accepted, spliced⟩ := each
      simp only [accepted]
      have long := counted parts made
      have rows : (across count parts).length = count := length_across long
      refine .accepted (by rw [has.height]; exact inside) ⟨parts, spliced, ?_, ?_⟩
      · rw [rows]
        exact long
      · rw [rows]

def row? (cell? : Nat → (c : Column) → Option (Cell c.type)) : Nat → List Column → Option Row
  | _, [] => some []
  | i, c :: cs => do
    let x ← cell? i c
    let rest ← row? cell? (i + 1) cs
    return ⟨c.type, x⟩ :: rest

theorem parts?_replicate (cell? : Nat → (c : Column) → Option (Cell c.type)) (count i : Nat)
    (columns : List Column) :
    parts? (fun i c => (cell? i c).map (List.replicate count ·)) i columns =
      (row? cell? i columns).map (List.map (List.replicate count ·)) := by
  induction columns generalizing i with
  | nil => rfl
  | cons c cs ih =>
    cases put : cell? i c with
    | none => simp [parts?, row?, put]
    | some x =>
      cases others : row? cell? (i + 1) cs with
      | none => simp [parts?, row?, put, ih, others]
      | some rest => simp [parts?, row?, put, ih, others]

theorem lockstepInsert_copies (has : HasRows f.columns n)
    {cell? : Nat → (c : Column) → Option (Cell c.type)}
    (takes : ∀ i (c : Column), pos ≤ c.length →
      c.Takes pos ((cell? i c).map (List.replicate count ·)) (insert i c)) :
    f.Insertion pos ((row? cell? 0 f.columns).map (List.replicate count ·))
      (f.lockstepInsert pos count insert).result := by
  have counted (parts : List (List Datum))
      (made : parts? (fun i c => (cell? i c).map (List.replicate count ·)) 0 f.columns = some parts) :
      ∀ part ∈ parts, part.length = count := by
    rw [parts?_replicate] at made
    obtain ⟨row, -, rfl⟩ := Option.map_eq_some_iff.1 made
    simp
  have insertion := lockstepInsert_insertion has takes counted
  rw [parts?_replicate, Option.map_map] at insertion
  simpa only [Function.comp_def, across_map_replicate] using insertion

end Insertions

section Rows

variable {f : Frame} {n : Nat}

theorem lockstepInsert_single (has : HasRows f.columns n) {pos : Nat}
    {insert : Nat → Column → Outcome Column Unit} {cell? : Nat → (c : Column) → Option (Cell c.type)}
    (takes : ∀ i (c : Column), pos ≤ c.length → c.Takes pos ((cell? i c).map ([·])) (insert i c)) :
    f.Insertion pos ((row? cell? 0 f.columns).map ([·])) (f.lockstepInsert pos 1 insert).result := by
  have insertion : f.Insertion pos ((row? cell? 0 f.columns).map (List.replicate 1 ·)) _ :=
    lockstepInsert_copies has takes
  exact insertion

theorem toOption_default (t : CellType) : (Cell.default t).toOption = Cell.default? t := by
  rw [Cell.default]
  cases Cell.default? t <;> rfl

theorem toOption_ofScalar (t : CellType) (v : Scalar) :
    (Cell.ofScalar t v).toOption = Cell.ofScalar? t v := by
  rw [Cell.ofScalar]
  cases Cell.ofScalar? t v <;> rfl

/-- Values are read from left to right, so column `i` takes the first of those that are left. -/
theorem row?_values (values : List Scalar) (i : Nat) (columns : List Column)
    (fits : values.length ≤ i + columns.length) :
    row? (fun i c => Row.cell? c.type values[i]?) i columns =
      Row.ofScalars? (columns.map Column.type) (values.drop i) := by
  induction columns generalizing i with
  | nil => simp [row?, Row.ofScalars?, List.drop_eq_nil_of_le (by simpa using fits)]
  | cons c cs ih =>
    have rest := ih (i + 1) (by simp at fits; omega)
    simp [row?, Row.ofScalars?, rest, List.head?_drop, List.tail_drop]

theorem insertRow_insertion (has : HasRows f.columns n) (pos : Nat) (values : List Scalar) :
    f.Insertion pos ((Row.ofScalars? f.types values).map ([·])) (f.insertRow pos values).result := by
  rw [insertRow]
  split
  · next wide =>
    rw [Row.ofScalars?_of_lt (by simpa [types, width] using wide)]
    exact .refused _
  · next fits =>
    have row := row?_values values 0 f.columns (by simpa [width] using fits)
    rw [List.drop_zero] at row
    rw [types, ← row]
    refine lockstepInsert_single has fun i c reaches => ?_
    cases value : values[i]? with
    | none =>
      have taken := (c.insertDefault_spec reaches 1).takes
      rw [if_neg Nat.one_ne_zero, toOption_map, toOption_default] at taken
      simpa [value, Row.cell?] using taken
    | some v =>
      have taken := (c.insertScalar_spec reaches v).takes
      rw [toOption_map, toOption_ofScalar] at taken
      simpa [value, Row.cell?] using taken

theorem insertDefaultRows_insertion (has : HasRows f.columns n) (pos count : Nat) :
    f.Insertion pos (Row.defaults? f.types count) (f.insertDefaultRows pos count).result := by
  have taken (c : Column) (reaches : pos ≤ c.length) := (c.insertDefault_spec reaches count).takes
  rw [insertDefaultRows, Row.defaults?]
  split
  · next none =>
    subst none
    have nothing (i : Nat) (columns : List Column) :
        parts? (fun _ _ => some []) i columns = some (columns.map fun _ => []) := by
      induction columns generalizing i with
      | nil => rfl
      | cons c cs ih => simp [parts?, ih]
    have empty : across 0 (f.columns.map fun _ => ([] : List Datum)) = [] := by
      cases f.columns <;> rfl
    have insertion : f.Insertion pos ((parts? (fun _ _ => some []) 0 f.columns).map (across 0)) _ :=
      lockstepInsert_insertion has (fun _ => taken) fun parts made => by
        rw [nothing] at made
        cases made
        simp
    rwa [nothing, Option.map_some, empty] at insertion
  · next some =>
    have row := row?_values [] 0 f.columns (Nat.zero_le _)
    rw [List.drop_nil] at row
    rw [types, ← row]
    refine lockstepInsert_copies has fun i c reaches => ?_
    have copies := taken c reaches
    rwa [if_neg some, toOption_map, toOption_default] at copies

theorem toOption_get {α : Type} (b : Buffer α) (i : Nat) : (b.get i).toOption = b.items[i]? := by
  rw [Buffer.get]
  cases b.items[i]? <;> rfl

theorem slice_succ {α : Type} (xs : List α) (i : Nat) : Buffer.slice xs i (i + 1) = xs[i]?.toList := by
  rw [Buffer.slice, Nat.add_sub_cancel_left, List.take_one, List.head?_drop]

theorem row?_at (row i : Nat) (columns : List Column) :
    row? (fun _ c => c.buffer.items[row]?) i columns =
      (columns.map fun c => c.contents.data).mapM (·[row]?) := by
  induction columns generalizing i with
  | nil => rfl
  | cons c cs ih =>
    rw [row?, ih, List.map_cons, List.mapM_cons, Contents.data, List.getElem?_map]
    show (c.buffer.items[row]?).bind _ = (c.buffer.items[row]?.map _).bind _
    cases c.buffer.items[row]? <;> rfl

theorem insertRowWithin_insertion (has : HasRows f.columns n) (wide : f.columns ≠ []) (pos row : Nat) :
    f.Insertion pos (f.rowList[row]?.map ([·])) (f.insertRowWithin pos row).result := by
  have own : f.rowList[row]? = row? (fun _ c => c.buffer.items[row]?) 0 f.columns := by
    rw [getElem?_rowList has wide, rowAt?, row?_at, contents, List.map_map]
    rfl
  rw [own, insertRowWithin]
  refine lockstepInsert_single has fun i c reaches => ?_
  have taken := (c.insertWithin_spec reaches (Nat.le_succ row)).takes
  split at taken
  · next within =>
    have there : row < c.buffer.items.length := within
    simpa [slice_succ, there, Except.toOption] using taken
  · next beyond =>
    have nowhere : c.buffer.items.length ≤ row := Nat.not_lt.1 beyond
    simpa [nowhere, Except.toOption] using taken

def element? (row : Nat) (source c : Column) : Option (Cell c.type) :=
  ((c.elementsFrom source).bind (·.get row)).toOption

theorem map_element? (row : Nat) (source c : Column) :
    (element? row source c).map (Datum.mk c.type) =
      (source.contents.data[row]?).bind fun d => if d.type = c.type then some d else none := by
  obtain ⟨u, s⟩ := source
  obtain ⟨t, series⟩ := c
  have read : (⟨u, s⟩ : Column).contents.data[row]? = s.buffer.items[row]?.map (Datum.mk u) :=
    List.getElem?_map
  rw [read]
  by_cases same : u = t
  · subst same
    have elements : (⟨u, series⟩ : Column).elementsFrom ⟨u, s⟩ = .ok s.buffer := by
      simp [Column.elementsFrom, Column.seriesAs?]
    have found : element? row ⟨u, s⟩ ⟨u, series⟩ = s.buffer.items[row]? := by
      rw [element?, elements]
      exact toOption_get s.buffer row
    rw [found]
    cases s.buffer.items[row]? <;> simp
  · have refused : element? row ⟨u, s⟩ ⟨t, series⟩ = none := by
      simp [element?, Column.elementsFrom, Column.seriesAs?, same, Except.bind, Except.toOption]
    rw [refused]
    cases s.buffer.items[row]? <;> simp [same]

theorem row?_from (sources : List Column) (row i : Nat) (columns : List Column)
    (fits : (sources.drop i).length = columns.length) :
    row? (fun i c => sources[i]?.bind (element? row · c)) i columns =
      (((sources.drop i).map fun c => c.contents.data).mapM (·[row]?)).bind fun r =>
        if r.map Datum.type = columns.map Column.type then some r else none := by
  induction columns generalizing i with
  | nil =>
    rw [List.length_eq_zero_iff.1 fits]
    rfl
  | cons c cs ih =>
    obtain ⟨s, ss, rest⟩ : ∃ s ss, sources.drop i = s :: ss :=
      List.exists_cons_of_length_eq_add_one fits
    have head : sources[i]? = some s := by rw [← List.head?_drop, rest, List.head?_cons]
    have tail : sources.drop (i + 1) = ss := by rw [← List.tail_drop, rest, List.tail_cons]
    have others := ih (i + 1) (by rw [tail]; simpa [rest] using fits)
    have element := map_element? row s c
    rw [tail] at others
    simp only [row?, others, head, rest, List.map_cons, List.mapM_cons]
    generalize s.contents.data[row]? = d? at element
    cases d? with
    | none =>
      have nowhere : element? row s c = none := by simpa using element
      simp [nowhere]
    | some d =>
      by_cases same : d.type = c.type
      · obtain ⟨x, found, rfl⟩ : ∃ x, element? row s c = some x ∧ Datum.mk c.type x = d := by
          simpa [same] using element
        cases (ss.map fun c => c.contents.data).mapM (·[row]?) with
        | none => simp [found]
        | some r => by_cases alike : r.map Datum.type = cs.map Column.type <;> simp [found, alike]
      · have foreign : element? row s c = none := by simpa [same] using element
        cases (ss.map fun c => c.contents.data).mapM (·[row]?) <;> simp [foreign, same]

theorem length_of_mapM_eq_some {α β : Type} {g : α → Option β} {as : List α} {bs : List β}
    (made : as.mapM g = some bs) : bs.length = as.length := by
  induction as generalizing bs with
  | nil =>
    cases made
    rfl
  | cons a as ih =>
    rw [List.mapM_cons] at made
    obtain ⟨b, -, made⟩ := Option.bind_eq_some_iff.1 made
    obtain ⟨rest, others, same⟩ := Option.bind_eq_some_iff.1 made
    cases same
    simp [ih others]

theorem copy?_of_width_ne {source : Frame} (differs : source.width ≠ f.width) (row : Nat) :
    Row.copy? f.types source row = none := by
  cases copied : Row.copy? f.types source row with
  | none => rfl
  | some r =>
    obtain ⟨r', read, same⟩ := Option.bind_eq_some_iff.1 copied
    obtain ⟨alike, rfl⟩ : r'.map Datum.type = f.types ∧ r' = r := by simpa using same
    have counted : r'.length = source.columns.length := by
      simpa [contents] using length_of_mapM_eq_some read
    have wide := congrArg List.length alike
    simp only [types, List.length_map] at wide
    exact absurd (counted.symm.trans wide) differs

theorem insertRowFrom_insertion (has : HasRows f.columns n) (pos : Nat) (source : Frame) (row : Nat) :
    f.Insertion pos ((Row.copy? f.types source row).map ([·]))
      (f.insertRowFrom pos source row).result := by
  rw [insertRowFrom]
  split
  · next differs =>
    rw [copy?_of_width_ne differs]
    exact .refused _
  · next same =>
    have fits : source.columns.length = f.columns.length := not_not.1 same
    have read := row?_from source.columns row 0 f.columns (by simpa using fits)
    have copied : Row.copy? f.types source row =
        row? (fun i c => source.columns[i]?.bind (element? row · c)) 0 f.columns := by
      rw [read, Row.copy?, rowAt?, contents, List.map_map]
      rfl
    rw [copied]
    refine lockstepInsert_single has fun i c reaches => ?_
    rw [column]
    cases there : source.columns[i]? with
    | none => exact ⟨_, rfl⟩
    | some s =>
      have taken := (c.insertFrom_spec reaches s row).takes
      rwa [toOption_map] at taken

section Results

variable {g : Frame} {pos : Nat} {new : List Row}

theorem Inserted.header (inserted : f.Inserted pos new g) : g.header = f.header := by
  obtain ⟨parts, spliced, -⟩ := inserted
  exact spliced.header

theorem Inserted.hasRows (inserted : f.Inserted pos new g) (has : HasRows f.columns n)
    (wide : f.columns ≠ []) : HasRows g.columns (n + new.length) := by
  obtain ⟨parts, spliced, counted, -⟩ := inserted
  have long := spliced.length has.contents counted
  refine ⟨fun c mem => long c.contents (List.mem_map_of_mem mem), fun none => ?_⟩
  have header := congrArg List.length spliced.header
  simp [contents, none] at header
  exact absurd header.symm (by simpa using wide)

theorem Inserted.rowList (inserted : f.Inserted pos new g) (has : HasRows f.columns n)
    (wide : f.columns ≠ []) (inside : pos ≤ n) :
    g.rowList = f.rowList.take pos ++ new ++ f.rowList.drop pos := by
  have grown := inserted.hasRows has wide
  obtain ⟨parts, spliced, counted, rows⟩ := inserted
  rw [grown.rowList, has.rowList, spliced.across has.contents counted inside, rows]

theorem Inserted.erase (inserted : f.Inserted pos new g) (has : HasRows f.columns n)
    (wide : f.columns ≠ []) (inside : pos ≤ n) :
    ∃ h, g.eraseRows pos (pos + new.length) = (.ok new.length, h) ∧ h.contents = f.contents := by
  have grown := inserted.hasRows has wide
  obtain ⟨parts, spliced, counted, -⟩ := inserted
  have after : pos ≤ pos + new.length := Nat.le_add_right pos new.length
  obtain ⟨h, erased, shown, -⟩ := eraseRows_spec grown after (by omega)
  refine ⟨h, ?_, ?_⟩
  · rw [erased, Nat.add_sub_cancel_left]
  · rw [shown, spliced.erase has.contents counted inside]

end Results

end Rows

end Frame

end Tabular
