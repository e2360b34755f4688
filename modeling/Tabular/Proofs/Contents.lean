import Tabular.Frame.Rows
import Tabular.Proofs.Except
import Tabular.Proofs.Series

/-! What can be seen of a column: its name, its type and its elements, and neither where it lives nor
how much room it has. An insertion into a column puts elements before a position or is refused, and a
change that is refused shows nothing. -/

namespace Tabular

open Buffer (slice)

structure Contents where
  name : String
  type : CellType
  cells : List (Cell type)

namespace Contents

def length (x : Contents) : Nat := x.cells.length

def splice (x : Contents) (pos : Nat) (cells : List (Cell x.type)) : Contents :=
  { x with cells := x.cells.take pos ++ cells ++ x.cells.drop pos }

def append (x : Contents) (cells : List (Cell x.type)) : Contents := { x with cells := x.cells ++ cells }

def erase (x : Contents) (first last : Nat) : Contents :=
  { x with cells := x.cells.take first ++ x.cells.drop last }

theorem length_splice (x : Contents) (pos : Nat) (cells : List (Cell x.type)) :
    (x.splice pos cells).length = x.length + cells.length := by
  simp only [length, splice, List.length_append, List.length_take, List.length_drop]
  omega

@[simp] theorem splice_nil (x : Contents) {pos : Nat} : x.splice pos [] = x := by
  simp [splice]

theorem splice_length (x : Contents) (cells : List (Cell x.type)) : x.splice x.length cells = x.append cells := by
  rw [splice, length, List.take_length, List.drop_length, List.append_nil, append]

@[simp] theorem length_append (x : Contents) (cells : List (Cell x.type)) :
    (x.append cells).length = x.length + cells.length :=
  List.length_append

@[simp] theorem append_nil (x : Contents) : x.append [] = x := by
  rw [append, List.append_nil]

theorem append_append (x : Contents) (cells cells' : List (Cell x.type)) :
    (x.append cells).append cells' = x.append (cells ++ cells') :=
  congrArg (Contents.mk x.name x.type) (List.append_assoc ..)

theorem length_erase {x : Contents} {first last : Nat} (ordered : first ≤ last)
    (inside : last ≤ x.length) : (x.erase first last).length = x.length - (last - first) := by
  simp only [length, erase, List.length_append, List.length_take, List.length_drop] at inside ⊢
  omega

theorem erase_splice (x : Contents) {pos : Nat} {cells : List (Cell x.type)} (h : pos ≤ x.length) :
    (x.splice pos cells).erase pos (pos + cells.length) = x := by
  exact congrArg (Contents.mk x.name x.type) (Buffer.erase_inserted h)

end Contents

namespace Column

def contents (c : Column) : Contents := ⟨c.name, c.type, c.buffer.items⟩

@[simp] theorem length_contents (c : Column) : c.contents.length = c.length := rfl

theorem seriesAs?_eq_some_iff {c : Column} {t : CellType} {s : Series t} :
    c.seriesAs? t = some s ↔ c = ⟨t, s⟩ := by
  obtain ⟨type, series⟩ := c
  constructor
  · intro found
    rw [seriesAs?] at found
    split at found
    · next same =>
      subst same
      cases found
      rfl
    · cases found
  · rintro ⟨⟩
    exact seriesAs?_type _

/-- What a change of a column comes to: it is refused, does nothing, renames the column or is one change
of its elements. -/
inductive Elementary {α : Type} (c : Column) : Outcome Column α → Prop
  | refusal (err : Error) : Elementary c (.error err, c)
  | idle (a : α) : Elementary c (.ok a, c)
  | rename (a : α) (name : String) : Elementary c (.ok a, c.rename name)
  | edit (e : Buffer.Edit (Cell c.type)) (g : Buffer.Reply (Cell c.type) → α) :
    Elementary c ((c.edit e).1.map g, (c.edit e).2)

theorem contents_edit_of_error {c : Column} {e : Buffer.Edit (Cell c.type)} {err : Error}
    (refused : (c.edit e).1 = .error err) : (c.edit e).2.contents = c.contents := by
  simp only [edit, Series.edit] at refused ⊢
  cases ran : e.run (Cell.default c.type) c.series.buffer with
  | error _ => rfl
  | ok _ => simp [ran] at refused

theorem Elementary.contents_of_error {α : Type} {c : Column} {o : Outcome Column α}
    (elementary : c.Elementary o) {err : Error} (refused : o.1 = .error err) :
    o.2.contents = c.contents := by
  cases elementary with
  | refusal _ => rfl
  | idle a => rfl
  | rename a name => cases refused
  | edit e g => exact contents_edit_of_error (map_eq_error_iff.1 refused)

theorem Elementary.map {α β : Type} {c : Column} {o : Outcome Column α} {g : α → β}
    (elementary : c.Elementary o) : c.Elementary (o.1.map g, o.2) := by
  cases elementary with
  | refusal err => exact .refusal err
  | idle a => exact .idle (g a)
  | rename a name => exact .rename (g a) name
  | edit e k =>
    rw [map_map]
    exact .edit e _

section Changes

variable (c : Column)

theorem edit_elementary (e : Buffer.Edit (Cell c.type)) : c.Elementary (c.edit e) := by
  have same : ((c.edit e).1.map id, (c.edit e).2) = c.edit e := by rw [Except.map_id]; rfl
  exact same ▸ .edit e id

theorem setScalar_elementary (row : Nat) (value : Scalar) :
    c.Elementary (c.setScalar row value) := by
  rw [setScalar]
  split
  · exact .edit _ _
  · exact .refusal _

theorem insertScalar_elementary (pos : Nat) (value : Scalar) :
    c.Elementary (c.insertScalar pos value) := by
  rw [insertScalar]
  split
  · exact .edit _ _
  · exact .refusal _

theorem insertDefault_elementary (pos count : Nat) : c.Elementary (c.insertDefault pos count) := by
  rw [insertDefault]
  split
  · exact .idle ()
  · split
    · exact .edit _ _
    · exact .refusal _

theorem insertFrom_elementary (pos : Nat) (source : Column) (row : Nat) :
    c.Elementary (c.insertFrom pos source row) := by
  rw [insertFrom]
  split
  · exact .edit _ _
  · exact .refusal _

theorem insertWithin_elementary (pos first last : Nat) :
    c.Elementary (c.insertWithin pos first last) :=
  .edit _ _

theorem extendFrom_elementary (source : Column) : c.Elementary (c.extendFrom source) := by
  rw [extendFrom]
  split
  · exact .edit _ _
  · exact .refusal _

theorem erase_elementary (first last : Nat) : c.Elementary (c.erase first last) := .edit _ _

theorem run_elementary (e : Edit) : c.Elementary (e.run c) := by
  cases e with
  | setName name => exact .rename none name
  | setScalar row value => exact (c.setScalar_elementary row value).map
  | insertScalar pos value => exact (c.insertScalar_elementary pos value).map
  | insertDefault pos count => exact (c.insertDefault_elementary pos count).map
  | insertFrom pos source row => exact (c.insertFrom_elementary pos source row).map
  | insertWithin pos first last => exact (c.insertWithin_elementary pos first last).map
  | extendFrom source => exact (c.extendFrom_elementary source).map
  | erase first last => exact (c.erase_elementary first last).map
  | resize n => exact (Elementary.edit (.resize n) fun _ => ()).map

end Changes

/-- A column made of others: one of them, one that is in no block, or what an elementary change makes of
such a column. -/
inductive Derived (source : Column → Prop) : Column → Prop
  | source {c : Column} (given : source c) : Derived source c
  | fresh {c : Column} (new : c.storage = .fresh) : Derived source c
  | change {α : Type} {c : Column} {o : Outcome Column α} (derived : Derived source c)
    (elementary : c.Elementary o) : Derived source o.2

theorem edit_of_run {c : Column} {e : Buffer.Edit (Cell c.type)} {reply : Buffer.Reply (Cell c.type)}
    {after : Buffer (Cell c.type)} (ran : e.run (Cell.default c.type) c.buffer = .ok (reply, after)) :
    (c.edit e).1 = .ok reply ∧ (c.edit e).2.contents = ⟨c.name, c.type, after.items⟩ := by
  simp only [buffer] at ran
  simp only [edit, Series.edit, ran]
  exact ⟨trivial, rfl⟩

theorem erase_spec {c : Column} {first last : Nat} (ordered : first ≤ last)
    (inside : last ≤ c.length) :
    (c.erase first last).1 = .ok (last - first) ∧
      (c.erase first last).2.contents = c.contents.erase first last := by
  obtain ⟨answer, shown⟩ := c.edit_of_run (e := .erase first last)
    (by rw [Buffer.Edit.run, Buffer.erase_ok (b := c.buffer) ordered inside]; rfl)
  exact ⟨by simp only [erase, answer]; rfl, shown⟩

/-- An insertion: the elements are put before `pos`, or it is refused and shows nothing. -/
def Splices (c : Column) (pos : Nat) (cells? : Except Error (List (Cell c.type)))
    (o : Outcome Column Unit) : Prop :=
  match cells? with
  | .ok cells => o.1 = .ok () ∧ o.2.contents = c.contents.splice pos cells
  | .error err => o.1 = .error err ∧ o.2.contents = c.contents

section Insertions

variable {c : Column} {pos : Nat} (h : pos ≤ c.length)

include h

theorem alter_insert_spec (hint : Nat) (cells : List (Cell c.type)) :
    c.Splices pos (.ok cells) (c.alter (.insert hint pos cells)) := by
  obtain ⟨answer, shown⟩ := c.edit_of_run (e := .insert hint pos cells)
    (by rw [Buffer.Edit.run, Buffer.insert_of_le (b := c.buffer) h]; rfl)
  exact ⟨by simp only [alter, answer]; rfl, shown⟩

theorem insertScalar_spec (value : Scalar) :
    c.Splices pos ((Cell.ofScalar c.type value).map ([·])) (c.insertScalar pos value) := by
  rw [insertScalar]
  cases Cell.ofScalar c.type value with
  | ok x => exact alter_insert_spec h 1 [x]
  | error err => exact ⟨rfl, rfl⟩

theorem insertDefault_spec (count : Nat) :
    c.Splices pos
      (if count = 0 then .ok [] else (Cell.default c.type).map (List.replicate count ·))
      (c.insertDefault pos count) := by
  rw [insertDefault]
  split
  · exact ⟨rfl, c.contents.splice_nil.symm⟩
  · cases Cell.default c.type with
    | ok x => exact alter_insert_spec h count (List.replicate count x)
    | error err => exact ⟨rfl, rfl⟩

theorem insertFrom_spec (source : Column) (row : Nat) :
    c.Splices pos (((c.elementsFrom source).bind (·.get row)).map ([·]))
      (c.insertFrom pos source row) := by
  rw [insertFrom]
  cases (c.elementsFrom source).bind (·.get row) with
  | ok x => exact alter_insert_spec h 1 [x]
  | error err => exact ⟨rfl, rfl⟩

theorem insertWithin_spec {first last : Nat} (ordered : first ≤ last) :
    c.Splices pos
      (if last ≤ c.length then .ok (slice c.buffer.items first last)
        else .error (.indexOutOfRange last c.length))
      (c.insertWithin pos first last) := by
  rw [insertWithin]
  split
  · next inside =>
    obtain ⟨answer, shown⟩ := c.edit_of_run (e := .insertWithin pos first last)
      (by rw [Buffer.Edit.run, Buffer.insertWithin_ok (b := c.buffer) h ordered inside]; rfl)
    exact ⟨by simp only [alter, answer]; rfl, shown⟩
  · next beyond =>
    have ran : Buffer.Edit.run (Cell.default c.type) c.buffer (.insertWithin pos first last) =
        .error (.indexOutOfRange last c.length) := by
      rw [Buffer.Edit.run, Buffer.insertWithin_of_lt (b := c.buffer) h ordered (Nat.not_le.1 beyond)]
      rfl
    simp only [buffer] at ran
    simp only [Splices, alter, edit, Series.edit, ran]
    exact ⟨rfl, rfl⟩

end Insertions

theorem contents_alter_insert_length (c : Column) (hint : Nat) (cells : List (Cell c.type)) :
    (c.alter (.insert hint c.length cells)).result.map Column.contents = .ok (c.contents.append cells) := by
  obtain ⟨done, shown⟩ := alter_insert_spec (Nat.le_refl c.length) hint cells
  rw [Outcome.result, done]
  exact congrArg Except.ok (shown.trans (c.contents.splice_length cells))

end Column

def Frame.contents (f : Frame) : List Contents := f.columns.map Column.contents

end Tabular
