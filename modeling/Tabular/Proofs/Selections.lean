import Tabular.Proofs.Derivation
import Tabular.Proofs.Retention
import Tabular.Proofs.Sorting

/-! Expressions that look at one row only. On rows gathered from a frame, in any order and any number of times,
such an expression has the values that it has there on the frame; and so rows can be selected by conditions of
this kind in any order, and again without effect. -/

namespace Tabular

section Masks

variable {α : Type} {mask mask' : List Bool} {xs : List α}

theorem kept_kept (mask mask' : List Bool) (xs : List α) :
    kept (kept mask mask') (kept mask xs) = kept (List.zipWith and mask mask') xs := by
  induction mask generalizing mask' xs with
  | nil => simp
  | cons b mask ih =>
    cases mask' with
    | nil => simp [kept]
    | cons b' mask' =>
      cases xs with
      | nil => simp [kept]
      | cons x xs => cases b <;> cases b' <;> simp [ih]

theorem Contents.keep_keep (x : Contents) (mask mask' : List Bool) :
    (x.keep mask).keep (kept mask mask') = x.keep (List.zipWith and mask mask') :=
  congrArg (Contents.mk x.name x.type) (kept_kept mask mask' x.cells)

namespace Frame

theorem lt_of_mem_keptRows {row : Nat} (mem : row ∈ keptRows mask) : row < mask.length := by
  rw [keptRows_eq, kept] at mem
  obtain ⟨⟨_, b⟩, inside, rfl⟩ := List.mem_map.1 mem
  exact List.mem_range.1 (List.of_mem_zip (List.mem_filter.1 inside).1).1

theorem valuesAt_keptRows (counted : xs.length = mask.length) : valuesAt xs (keptRows mask) = kept mask xs :=
  valuesAt_eq_iff (map_getElem?_keptRows counted).symm

end Frame

end Masks

namespace Expr

mutual

/-- The value of an expression at a row is a matter of that row: columns are read in the current row, and neither
its number nor the number of rows is asked for. -/
def RowLocal : Expr → Prop
  | constant _ => True
  | column _ offset => offset = 0
  | unary _ operand => operand.RowLocal
  | binary _ left right => left.RowLocal ∧ right.RowLocal
  | call _ _ arguments => RowLocalAll arguments
  | rowNumber => False
  | frameLength => False

def RowLocalAll : List Expr → Prop
  | [] => True
  | e :: es => e.RowLocal ∧ RowLocalAll es

end

open Tabular.Frame (HasRows keptRows rowsAt)

theorem readColumn_zero (f : Frame) (w : Window) (index : Nat) :
    readColumn f w index 0 = f.cellAt index w.current := by
  rw [readColumn, w.target?_zero]
  rfl

section Moved

variable {f g : Frame} {w v : Window}

mutual

theorem evaluate_of_cellAt (same : ∀ index, g.cellAt index v.current = f.cellAt index w.current) :
    ∀ e : Expr, e.RowLocal → evaluate g v e = evaluate f w e
  | constant value, _ => by simp only [evaluate]
  | column index offset, here => by
    obtain rfl : offset = 0 := here
    simp only [evaluate, readColumn_zero, same]
  | unary op operand, here => by simp only [evaluate, evaluate_of_cellAt same operand here]
  | binary op left right, here => by
    simp only [evaluate, evaluate_of_cellAt same left here.1, evaluate_of_cellAt same right here.2]
  | call name function arguments, here => by simp only [evaluate, evaluateAll_of_cellAt same arguments here]
  | rowNumber, here => here.elim
  | frameLength, here => here.elim

theorem evaluateAll_of_cellAt (same : ∀ index, g.cellAt index v.current = f.cellAt index w.current) :
    ∀ es : List Expr, RowLocalAll es → evaluateAll g v es = evaluateAll f w es
  | [], _ => by simp only [evaluateAll]
  | e :: es, here => by
    simp only [evaluateAll, evaluate_of_cellAt same e here.1, evaluateAll_of_cellAt same es here.2]

end

end Moved

variable {f : Frame} {n : Nat} {e p q : Expr} {values : List Scalar}

theorem apply_rowsAt (has : HasRows f.columns n) (here : e.RowLocal) (known : e.apply f = .ok values)
    {rows : List Nat} (inside : ∀ row ∈ rows, row < n) :
    e.apply (f.rowsAt rows) = .ok (valuesAt values rows) := by
  have each (i row : Nat) (there : rows[i]? = some row) :
      (Window.of 0 i rows.length >>= fun w => evaluate (f.rowsAt rows) w e) =
        (Window.of 0 row n >>= fun w => evaluate f w e) := by
    obtain ⟨below, mem⟩ := List.getElem?_eq_some_iff.1 there
    have below' : row < n := inside row (List.mem_of_getElem? there)
    rw [Window.of_zero below, Window.of_zero below']
    exact evaluate_of_cellAt (fun index => Frame.cellAt_rowsAt has inside there index) e here
  rw [apply_eq (Frame.size_eq_ok_iff.2 has)] at known
  rw [apply_eq (Frame.size_eq_ok_iff.2 (has.taken inside)), mapM_range each, mapM_valuesAt known inside]

theorem mask_rowsAt (has : HasRows f.columns n) (here : e.RowLocal) {m : List Bool} (masked : e.mask f = .ok m)
    {rows : List Nat} (inside : ∀ row ∈ rows, row < n) : e.mask (f.rowsAt rows) = .ok (valuesAt m rows) := by
  obtain ⟨values, known, same⟩ := bind_eq_ok_iff.1 masked
  cases same
  rw [mask, apply_rowsAt has here known inside, valuesAt_map]
  rfl

section Filters

variable {ps qs : List Bool}

theorem filter_spec (has : HasRows f.columns n) (masked : p.mask f = .ok ps) :
    f.filter p = .ok (f.rowsAt (keptRows ps)) ∧ (∀ row ∈ keptRows ps, row < n) ∧
      (f.rowsAt (keptRows ps)).contents = f.contents.map (·.keep ps) := by
  have counted := Except.ok.inj ((Frame.length_mask masked).symm.trans (Frame.size_eq_ok_iff.2 has))
  have inside : ∀ row ∈ keptRows ps, row < n := fun row mem => by
    rw [← counted]
    exact Frame.lt_of_mem_keptRows mem
  obtain ⟨made, taken, shown, -⟩ := Frame.takeRows_keptRows has counted
  rw [Frame.takeRows_eq has inside] at taken
  cases taken
  refine ⟨?_, inside, shown⟩
  rw [Frame.filter, masked]
  exact Frame.takeRows_eq has inside

theorem exists_filter_filter (has : HasRows f.columns n) (here : q.RowLocal) (masked : p.mask f = .ok ps)
    (masked' : q.mask f = .ok qs) :
    ∃ g h, f.filter p = .ok g ∧ g.filter q = .ok h ∧ g.contents = f.contents.map (·.keep ps) ∧
      h.contents = f.contents.map (·.keep (List.zipWith and ps qs)) := by
  have sized := Frame.size_eq_ok_iff.2 has
  have counted := Except.ok.inj ((Frame.length_mask masked).symm.trans sized)
  have counted' := Except.ok.inj ((Frame.length_mask masked').symm.trans sized)
  obtain ⟨first, inside, shown⟩ := filter_spec has masked
  have next := mask_rowsAt has here masked' inside
  rw [Frame.valuesAt_keptRows (counted'.trans counted.symm)] at next
  obtain ⟨second, -, shown'⟩ := filter_spec (has.taken inside) next
  refine ⟨_, _, first, second, shown, ?_⟩
  rw [shown', shown, List.map_map]
  exact List.map_congr_left fun x _ => x.keep_keep ps qs

end Filters

/-- Expressions that look at one row only commute with the selection of rows. On rows gathered from a frame, in
any order and with repetitions, such an expression has the values it has on the frame at their places. Two
conditions of this kind select the same rows in either order, and one of them selects no fewer the second
time. -/
theorem rowLocal_commutes (sized : f.size = .ok n) (here : p.RowLocal) {ps : List Scalar}
    (known : p.apply f = .ok ps) :
    (∀ rows : List Nat, (∀ row ∈ rows, row < n) → ∃ g picked, f.takeRows rows = .ok g ∧
      p.apply g = .ok picked ∧ picked.map some = rows.map (ps[·]?)) ∧
    (∀ q : Expr, q.RowLocal → (∃ qs, q.apply f = .ok qs) → ∃ g g' h h', f.filter p = .ok g ∧ g.filter q = .ok h ∧
      f.filter q = .ok g' ∧ g'.filter p = .ok h' ∧ h.contents = h'.contents) ∧
    ∃ g h, f.filter p = .ok g ∧ g.filter p = .ok h ∧ h.contents = g.contents := by
  have has := Frame.size_eq_ok_iff.1 sized
  have counted := (evaluate_of_apply sized known).1
  have masked : p.mask f = .ok (ps.map Scalar.truthy) := by rw [mask, known]; rfl
  refine ⟨fun rows inside => ?_, fun q here' accepted => ?_, ?_⟩
  · refine ⟨_, _, Frame.takeRows_eq has inside, apply_rowsAt has here known inside, ?_⟩
    exact map_some_valuesAt fun row mem => by rw [counted]; exact inside row mem
  · obtain ⟨qs, known'⟩ := accepted
    have masked' : q.mask f = .ok (qs.map Scalar.truthy) := by rw [mask, known']; rfl
    obtain ⟨g, h, first, second, -, shown⟩ := exists_filter_filter has here' masked masked'
    obtain ⟨g', h', first', second', -, shown'⟩ := exists_filter_filter has here masked' masked
    refine ⟨g, g', h, h', first, second, first', second', ?_⟩
    rw [shown, shown', List.zipWith_comm_of_comm fun a b => Bool.and_comm a b]
  · obtain ⟨g, h, first, second, shown, shown'⟩ := exists_filter_filter has here masked masked
    refine ⟨g, h, first, second, ?_⟩
    rw [shown', shown, List.zipWith_self]
    simp only [Bool.and_self, List.map_id']

private def stalls : Frame :=
  ⟨[.ofList .text "stall" ["a", "b", "c"], .ofList (.missing .bool) "open" [some true, none, some false]], none⟩

private def shut : Expr :=
  .unary .not (.call "coalesce" (fun values => .ok ((values.find? fun v => !v.isAbsent).getD .absent))
    [col 1, .constant (.bool true)])

private def late : Expr := .binary (.comparison .gt) (col 0) (.constant (.utf8 "a"))

theorem rowLocal_commutes_stalls :
    stalls.size = .ok 3 ∧ shut.RowLocal ∧ shut.apply stalls = .ok [.bool false, .bool false, .bool true] ∧
    (∃ g, stalls.takeRows [2, 0, 2] = .ok g ∧ shut.apply g = .ok [.bool true, .bool false, .bool true]) ∧
    ∃ g g' h h', stalls.filter shut = .ok g ∧ g.filter late = .ok h ∧ stalls.filter late = .ok g' ∧
      g'.filter shut = .ok h' ∧ h.contents = h'.contents := by
  have sized : stalls.size = .ok 3 := rfl
  have here : shut.RowLocal := ⟨rfl, trivial, trivial⟩
  have here' : late.RowLocal := ⟨rfl, trivial⟩
  have known : shut.apply stalls = .ok [.bool false, .bool false, .bool true] := rfl
  have known' : late.apply stalls = .ok [.bool false, .bool true, .bool true] := by decide
  obtain ⟨gathered, selected, -⟩ := rowLocal_commutes sized here known
  obtain ⟨g, picked, taken, values, places⟩ := gathered [2, 0, 2] (by decide)
  have picked_eq : picked = [.bool true, .bool false, .bool true] :=
    List.map_injective_iff.2 (Option.some_injective _) places
  exact ⟨sized, here, known, ⟨g, taken, picked_eq ▸ values⟩, selected late here' ⟨_, known'⟩⟩

end Expr

end Tabular
