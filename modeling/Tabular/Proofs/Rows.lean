import Tabular.Expr.Select
import Tabular.Proofs.Contents

/-! Rows of frames whose columns have one length. An insertion of rows that is refused by some column
is undone in the columns before it. Rows that are there can be erased, and so can all runs of rows that
a condition does not keep. -/

namespace Tabular.Frame

/-- The columns have `n` elements each; a frame without columns has no rows. -/
structure HasRows (columns : List Column) (n : Nat) : Prop where
  length : ∀ c ∈ columns, c.length = n
  empty : columns = [] → n = 0

theorem commonLength_eq_ok_iff {columns : List Column} {n : Nat} :
    commonLength columns = .ok n ↔ HasRows columns n := by
  cases columns with
  | nil =>
    constructor
    · rintro ⟨⟩
      exact ⟨nofun, fun _ => rfl⟩
    · rintro ⟨-, empty⟩
      rw [empty rfl, commonLength]
  | cons first rest =>
    rw [commonLength]
    constructor
    · intro common
      split at common
      · cases common
      · next none =>
        cases common
        refine ⟨fun c mem => ?_, nofun⟩
        obtain ⟨i, found⟩ := List.mem_iff_getElem?.1 mem
        have same := List.find?_eq_none.1 none (c, i) (List.mem_zipIdx_iff_getElem?.2 found)
        simpa using same
    · rintro ⟨length, -⟩
      split
      · next c i found =>
        have differs := List.find?_some found
        have inside := List.mem_zipIdx_iff_getElem?.1 (List.mem_of_find?_eq_some found)
        simp [length c (List.mem_of_getElem? inside), length first List.mem_cons_self] at differs
      · exact congrArg Except.ok (length first List.mem_cons_self)

theorem size_eq_ok_iff {f : Frame} {n : Nat} : f.size = .ok n ↔ HasRows f.columns n :=
  commonLength_eq_ok_iff

theorem mem_of_column {f : Frame} {i : Nat} {c : Column} (found : f.column i = .ok c) : c ∈ f.columns := by
  rw [column] at found
  split at found
  · next d there =>
    cases found
    exact List.mem_of_getElem? there
  · cases found

theorem HasRows.map {columns : List Column} {n m : Nat} {change : Column → Column}
    (rows : HasRows columns n) (length : ∀ c, c.length = n → (change c).length = m)
    (empty : n = 0 → m = 0) : HasRows (columns.map change) m := by
  refine ⟨fun c mem => ?_, fun none => empty (rows.empty (List.map_eq_nil_iff.1 none))⟩
  obtain ⟨b, inside, rfl⟩ := List.mem_map.1 mem
  exact length b (rows.length b inside)

structure Inserts (pos count : Nat) (insert : Nat → Column → Outcome Column Unit) : Prop where
  elementary : ∀ i (c : Column), c.Elementary (insert i c)
  splices : ∀ i (c : Column), pos ≤ c.length → ∃ cells? : Except Error (List (Cell c.type)),
    c.Splices pos cells? (insert i c) ∧ ∀ cells, cells? = .ok cells → cells.length = count

section Insertions

variable {pos count : Nat} {insert : Nat → Column → Outcome Column Unit}

theorem Inserts.undone (inserts : Inserts pos count insert) {i : Nat} {c : Column} {u : Unit}
    (long : pos ≤ c.length) (done : (insert i c).1 = .ok u) :
    ((insert i c).2.erase pos (pos + count)).2.contents = c.contents := by
  obtain ⟨cells?, spec, counted⟩ := inserts.splices i c long
  cases cells? with
  | error _ => rw [spec.1] at done; cases done
  | ok cells =>
    have grown : (insert i c).2.length = c.length + cells.length :=
      calc (insert i c).2.contents.length = (c.contents.splice pos cells).length := by rw [spec.2]
        _ = c.length + cells.length := c.contents.length_splice pos cells
    obtain ⟨-, erased⟩ := Column.erase_spec (c := (insert i c).2) (Nat.le_add_right pos cells.length)
      (by omega)
    rw [← counted cells rfl, erased, spec.2]
    exact c.contents.erase_splice long

theorem insertEach_refused (inserts : Inserts pos count insert) {columns : List Column}
    (long : ∀ c ∈ columns, pos ≤ c.length) {i : Nat} {err : Error} {after : List Column}
    (refused : insertEach insert (fun c => (c.erase pos (pos + count)).2) i columns =
      (.error err, after)) :
    after.map Column.contents = columns.map Column.contents := by
  induction columns generalizing i after with
  | nil => cases refused
  | cons c cs ih =>
    have reaches := long c List.mem_cons_self
    rw [insertEach] at refused
    split at refused
    · next e b ran =>
      have shown := (inserts.elementary i c).contents_of_error (by rw [ran])
      cases refused
      rw [List.map_cons, List.map_cons, ← shown, ran]
    · next u b ran =>
      have undone := inserts.undone (i := i) reaches (by rw [ran])
      split at refused
      · next e bs rest =>
        cases refused
        have others := ih (fun c mem => long c (List.mem_cons_of_mem _ mem)) rest
        rw [List.map_cons, List.map_cons, others, ← undone, ran]
      · cases refused

theorem insertEach_derived {source : Column → Prop} (undo : Column → Column)
    (elementary : ∀ i (c : Column), c.Elementary (insert i c))
    (undoes : ∀ c : Column, c.Derived source → (undo c).Derived source) {columns : List Column}
    (derived : ∀ c ∈ columns, c.Derived source) (i : Nat) :
    ∀ c ∈ (insertEach insert undo i columns).2, c.Derived source := by
  induction columns generalizing i with
  | nil => exact nofun
  | cons c cs ih =>
    have head := (derived c List.mem_cons_self).change (elementary i c)
    have tail := fun c mem => derived c (List.mem_cons_of_mem _ mem)
    have rest := ih tail (i + 1)
    rw [insertEach]
    split
    · next e b ran =>
      rw [ran] at head
      exact List.forall_mem_cons.2 ⟨head, tail⟩
    · next u b ran =>
      rw [ran] at head
      split
      · next e bs after =>
        rw [after] at rest
        exact List.forall_mem_cons.2 ⟨undoes b head, rest⟩
      · next v bs after =>
        rw [after] at rest
        exact List.forall_mem_cons.2 ⟨head, rest⟩

end Insertions

section Erasures

variable {f : Frame} {rows first last : Nat}

theorem changeEach_of_forall {α : Type} {change : Column → Outcome Column α} {columns : List Column}
    (accepts : ∀ c ∈ columns, ∃ a, (change c).1 = .ok a) :
    changeEach change columns = (.ok (), columns.map fun c => (change c).2) := by
  induction columns with
  | nil => rfl
  | cons c cs ih =>
    obtain ⟨a, accepted⟩ := accepts c List.mem_cons_self
    have rest := ih fun c mem => accepts c (List.mem_cons_of_mem _ mem)
    have head : change c = (.ok a, (change c).2) := by rw [← accepted]
    rw [changeEach, head]
    simp only [rest, List.map_cons]

theorem eraseRows_ok (has : HasRows f.columns rows) (ordered : first ≤ last) (inside : last ≤ rows) :
    f.eraseRows first last =
      (.ok (last - first), ⟨f.columns.map fun c => (c.erase first last).2, none⟩) := by
  have each : changeEach (·.erase first last) f.columns = _ := changeEach_of_forall
    fun c mem => ⟨_, (c.erase_spec ordered (by rw [has.length c mem]; exact inside)).1⟩
  rw [eraseRows, atEnd, size_eq_ok_iff.2 has]
  simp only [if_neg (Nat.not_lt.2 ordered), if_neg (Nat.not_lt.2 inside), each]

theorem HasRows.erase {columns : List Column} (has : HasRows columns rows) (ordered : first ≤ last)
    (inside : last ≤ rows) :
    HasRows (columns.map fun c => (c.erase first last).2) (rows - (last - first)) := by
  refine has.map (fun c length => ?_) (by omega)
  have reaches : last ≤ c.contents.length := by rw [Column.length_contents, length]; exact inside
  rw [← Column.length_contents, (c.erase_spec ordered reaches).2, Contents.length_erase ordered reaches,
    Column.length_contents, length]

theorem derived_erase {source : Column → Prop} {columns : List Column}
    (derived : ∀ c ∈ columns, c.Derived source) :
    ∀ c ∈ columns.map (fun c => (c.erase first last).2), c.Derived source := by
  intro c mem
  obtain ⟨b, inside, rfl⟩ := List.mem_map.1 mem
  exact (derived b inside).change (b.erase_elementary first last)

theorem removeRuns_ok (mask : List Bool) {last : Nat} {f : Frame} {rows : Nat}
    (has : HasRows f.columns rows) (inside : last ≤ rows) :
    (∃ n, (f.removeRuns mask last).1 = .ok n) ∧
      ((f.removeRuns mask last).2 = f ∨ (f.removeRuns mask last).2.stamp? = none) ∧
      ∀ source, (∀ c ∈ f.columns, c.Derived source) →
        ∀ c ∈ (f.removeRuns mask last).2.columns, c.Derived source := by
  induction last using Nat.strongRecOn generalizing f rows with
  | _ last ih =>
    cases last with
    | zero =>
      rw [removeRuns]
      exact ⟨⟨0, rfl⟩, .inl rfl, fun _ derived => derived⟩
    | succ n =>
      rw [removeRuns]
      split
      · exact ih n (Nat.lt_succ_self n) has (by omega)
      · -- What is left to remove ends where this run starts, so what is erased here moves none of it.
        have below := runStart_le mask n
        have erased := eraseRows_ok has (Nat.le_succ_of_le below) inside
        obtain ⟨⟨count, accepted⟩, stamp, kept⟩ := ih (runStart mask n) (by omega)
          (f := ⟨f.columns.map fun c => (c.erase (runStart mask n) (n + 1)).2, none⟩)
          (has.erase (Nat.le_succ_of_le below) inside) (by omega)
        simp only [erased]
        refine ⟨⟨_, by rw [accepted]; rfl⟩, .inr ?_, fun source derived =>
          kept source (derived_erase derived)⟩
        rcases stamp with same | lost
        · rw [same]
        · exact lost

end Erasures

theorem length_mask {condition : Expr} {f : Frame} {mask : List Bool}
    (ran : condition.mask f = .ok mask) : f.size = .ok mask.length := by
  rw [Expr.mask, bind_eq_ok_iff] at ran
  obtain ⟨values, applied, same⟩ := ran
  cases same
  rw [Expr.apply, bind_eq_ok_iff] at applied
  obtain ⟨rows, sized, applied⟩ := applied
  rw [Expr.evaluateRange, sized, ok_bind] at applied
  simp only [Nat.not_lt_zero, Nat.lt_irrefl, or_self, if_false, Nat.sub_zero] at applied
  have counted := length_mapM applied
  rw [List.length_range'] at counted
  rw [sized, List.length_map, counted]

end Tabular.Frame
