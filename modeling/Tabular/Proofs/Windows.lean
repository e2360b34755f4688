import Tabular.Expr.Basic
import Tabular.Proofs.Gather

/-! Expressions over some rows of a frame that see only each other. They see what they would see in a
frame of these rows alone: the same elements at the same distances, the same ends, the same values beyond
the ends, and so they have the same values or fail in the same way. -/

namespace Tabular

namespace Window

/-- The window in a frame of its own rows. -/
def rebase (w : Window) : Window where
  first := 0
  current := w.current - w.first
  last := w.last - w.first
  first_le := Nat.zero_le _
  lt_last := Nat.sub_lt_sub_right w.first_le w.lt_last

theorem target?_rebase (w : Window) (offset : Int) :
    w.rebase.target? offset = (w.target? offset).map (· - w.first) := by
  have start := w.first_le
  have below := w.lt_last
  have seen : (w.rebase.first : Int) ≤ w.rebase.current + offset ∧
      (w.rebase.current : Int) + offset < w.rebase.last ↔
        (w.first : Int) ≤ w.current + offset ∧ (w.current : Int) + offset < w.last := by
    simp only [rebase]
    omega
  simp only [target?]
  by_cases there : (w.first : Int) ≤ w.current + offset ∧ (w.current : Int) + offset < w.last
  · rw [if_pos (seen.2 there), if_pos there, Option.map_some]
    congr 1
    simp only [rebase]
    omega
  · rw [if_neg (mt seen.1 there), if_neg there, Option.map_none]

theorem target?_bounds {w : Window} {offset : Int} {row : Nat} (there : w.target? offset = some row) :
    w.first ≤ row ∧ row < w.last := by
  rw [target?] at there
  split at there
  · cases there
    omega
  · cases there

theorem of_eq_ok (w : Window) : Window.of w.first w.current w.last = .ok w := by
  rw [Window.of, dif_pos ⟨w.first_le, w.lt_last⟩]

theorem of_zero {row n : Nat} (below : row < n) : Window.of 0 row n = .ok ⟨0, row, n, Nat.zero_le row, below⟩ :=
  dif_pos ⟨Nat.zero_le row, below⟩

theorem target?_zero (w : Window) : w.target? 0 = some w.current := by
  simp [target?, w.first_le, w.lt_last]

end Window

def Column.window (c : Column) (first last : Nat) : Column :=
  .ofList c.type c.name (Buffer.slice c.buffer.items first last)

theorem Column.beyond_window (c : Column) (first last : Nat) :
    (c.window first last).beyond = c.beyond :=
  rfl

theorem Column.scalarAt_window {c : Column} {first last row : Nat} (after : first ≤ row)
    (before : row < last) (inside : last ≤ c.length) :
    (c.window first last).scalarAt (row - first) = c.scalarAt row := by
  have there : row < c.buffer.items.length := Nat.lt_of_lt_of_le before inside
  have moved : (Buffer.slice c.buffer.items first last)[row - first]? = some c.buffer.items[row] := by
    have place : first + (row - first) = row := by omega
    have below : row - first < last - first := by omega
    simp [Buffer.slice, List.getElem?_drop, below, place, there]
  rw [scalarAt_of_getElem? (List.getElem?_eq_getElem there)]
  exact scalarAt_of_getElem? (c := c.window first last) moved

namespace Frame

variable {f : Frame} {n first last : Nat}

def window (f : Frame) (first last : Nat) : Frame := ⟨f.columns.map (·.window first last), none⟩

theorem takeRows_range' (has : HasRows f.columns n) (inside : last ≤ n) :
    f.takeRows (List.range' first (last - first)) = .ok (f.window first last) :=
  takeRows_of_forall has (fun c => Buffer.slice c.buffer.items first last) fun c mem => by
    have long : last ≤ c.length := by
      rw [has.length c mem]
      exact inside
    exact (map_getElem?_range' long).symm

theorem HasRows.window (has : HasRows f.columns n) (ordered : first ≤ last) (inside : last ≤ n) :
    HasRows (f.window first last).columns (last - first) := by
  refine has.map (fun c length => ?_) (by omega)
  rw [← length] at inside
  exact Buffer.length_slice inside

theorem column_window (f : Frame) (first last i : Nat) :
    (f.window first last).column i = (f.column i).map (·.window first last) := by
  simp only [column, window, width, List.getElem?_map, List.length_map]
  cases f.columns[i]? <;> rfl

end Frame

namespace Expr

open Tabular.Frame (HasRows)

variable {f : Frame} {n first last : Nat}

theorem readColumn_window (has : HasRows f.columns n) {w : Window} (inside : w.last ≤ n) (index : Nat)
    (offset : Int) :
    readColumn (f.window w.first w.last) w.rebase index offset = readColumn f w index offset := by
  rw [readColumn, readColumn, f.column_window, w.target?_rebase]
  cases found : f.column index with
  | error err => rfl
  | ok c =>
    have long := has.length c (Frame.mem_of_column found)
    cases there : w.target? offset with
    | none => exact congrArg Except.ok (c.beyond_window w.first w.last)
    | some row =>
      obtain ⟨after, before⟩ := Window.target?_bounds there
      exact Column.scalarAt_window after before (by omega)

mutual

theorem evaluate_window (has : HasRows f.columns n) {w : Window} (inside : w.last ≤ n) :
    ∀ e : Expr, evaluate (f.window w.first w.last) w.rebase e = evaluate f w e
  | constant value => by simp only [evaluate]
  | column index offset => by simp only [evaluate, readColumn_window has inside]
  | unary op operand => by simp only [evaluate, evaluate_window has inside operand]
  | binary op left right => by
    simp only [evaluate, evaluate_window has inside left, evaluate_window has inside right]
  | call name function arguments => by simp only [evaluate, evaluateAll_window has inside arguments]
  | rowNumber => by simp only [evaluate, Window.rebase, Nat.sub_zero]
  | frameLength => by simp only [evaluate, Window.rebase, Nat.sub_zero]

theorem evaluateAll_window (has : HasRows f.columns n) {w : Window} (inside : w.last ≤ n) :
    ∀ es : List Expr, evaluateAll (f.window w.first w.last) w.rebase es = evaluateAll f w es
  | [] => by simp only [evaluateAll]
  | e :: es => by
    simp only [evaluateAll, evaluate_window has inside e, evaluateAll_window has inside es]

end

theorem evaluate_at_window (has : HasRows f.columns n) (inside : last ≤ n) {row : Nat} (after : first ≤ row)
    (before : row < last) (e : Expr) :
    (Window.of 0 (row - first) (last - first) >>= fun w => evaluate (f.window first last) w e) =
      (Window.of first row last >>= fun w => evaluate f w e) := by
  let w : Window := ⟨first, row, last, after, before⟩
  have wide : Window.of first row last = .ok w := w.of_eq_ok
  have narrow : Window.of 0 (row - first) (last - first) = .ok w.rebase := w.rebase.of_eq_ok
  rw [wide, narrow]
  exact evaluate_window has (show w.last ≤ n from inside) e

theorem evaluateRange_of_le (sized : f.size = .ok n) (ordered : first ≤ last) (inside : last ≤ n)
    (e : Expr) :
    e.evaluateRange f first last = (List.range' first (last - first)).mapM fun current =>
      Window.of first current last >>= fun w => evaluate f w e := by
  have accepted : ¬(last < first ∨ n < last) := by omega
  rw [evaluateRange, sized, ok_bind, if_neg accepted]

theorem apply_eq (sized : f.size = .ok n) (e : Expr) :
    e.apply f = (List.range n).mapM fun row => Window.of 0 row n >>= fun w => evaluate f w e := by
  rw [apply, sized, ok_bind, evaluateRange_of_le sized (Nat.zero_le _) (Nat.le_refl _), Nat.sub_zero,
    List.range_eq_range']

/-- The values an expression has at some rows, when they see only each other, are those it has in the frame
of these rows, and where it fails on them it fails on that frame in the same way. -/
theorem evaluateRange_eq_apply_takeRows (sized : f.size = .ok n) (ordered : first ≤ last)
    (inside : last ≤ n) (e : Expr) :
    ∃ made, f.takeRows (List.range' first (last - first)) = .ok made ∧
      e.evaluateRange f first last = e.apply made := by
  have has := Frame.size_eq_ok_iff.1 sized
  have fewer := Frame.size_eq_ok_iff.2 (has.window ordered inside)
  refine ⟨f.window first last, Frame.takeRows_range' has inside, ?_⟩
  have same (i row : Nat) (there : (List.range' first (last - first))[i]? = some row) :
      (Window.of 0 i (last - first) >>= fun w => evaluate (f.window first last) w e) =
        (Window.of first row last >>= fun w => evaluate f w e) := by
    obtain ⟨within, place⟩ := List.getElem?_eq_some_iff.1 there
    rw [List.length_range'] at within
    rw [List.getElem_range', Nat.one_mul] at place
    have moved : i = row - first := by omega
    rw [moved]
    exact evaluate_at_window has inside (by omega) (by omega) e
  have values := mapM_range same
  rw [List.length_range', List.range_eq_range'] at values
  rw [apply, fewer, ok_bind, evaluateRange_of_le sized ordered inside,
    evaluateRange_of_le fewer (Nat.zero_le _) (Nat.le_refl _)]
  exact values.symm

private def tide : Frame :=
  ⟨[.ofList .text "port" ["a", "b", "c", "d"],
    .ofList (.missing .bool) "high" [some true, none, some false, some true]], none⟩

private def coalesce : Expr :=
  .call "coalesce" (fun values => .ok ((values.find? fun v => !v.isAbsent).getD .absent))
    [lead 1 1, lag 1 1, .rowNumber]

theorem evaluateRange_eq_apply_takeRows_tide :
    tide.size = .ok 4 ∧ 1 ≤ 3 ∧ 3 ≤ 4 ∧
    coalesce.evaluateRange tide 1 3 = .ok [.bool false, .int64 1] ∧
    ∃ made, tide.takeRows [1, 2] = .ok made ∧ coalesce.evaluateRange tide 1 3 = coalesce.apply made := by
  have sized : tide.size = .ok 4 := rfl
  have agree := evaluateRange_eq_apply_takeRows sized (show 1 ≤ 3 by decide) (show 3 ≤ 4 by decide) coalesce
  exact ⟨sized, by decide, by decide, rfl, agree⟩

end Expr

end Tabular
