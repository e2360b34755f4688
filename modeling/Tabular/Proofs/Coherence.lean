import Tabular.Proofs.Comparisons
import Tabular.Proofs.ScalarOrder
import Tabular.Proofs.Sorting

/-! The six comparisons and the order that sorts. The comparisons see only the order that two scalars have for the
operators, if they have any, so that they agree with each other; where neither scalar is not-a-number that order
agrees with the one that sorts. -/

namespace Tabular

open Number (Binary64)

namespace Scalar

variable {a b : Scalar}

theorem comparison_of_relate {o : Option Ordering} (related : a.relate b = some o) (op : Comparison) :
    (BinaryOp.comparison op).apply a b = .ok (.bool (op.holds o)) := by
  rw [BinaryOp.apply, Comparison.apply, related]

theorem totalCompare_of_unrelated (unrelated : a.relate b = none) : a.totalCompare b ≠ .eq := by
  cases a <;> cases b
  case bool.int64 | bool.float64 | bool.utf8 | int64.bool | int64.utf8 | float64.bool | float64.utf8 |
    utf8.bool | utf8.int64 | utf8.float64 => exact nofun
  all_goals cases unrelated

theorem exists_order_of_relate {o : Option Ordering} (related : a.relate b = some o) (number : a.isNaN = false)
    (number' : b.isNaN = false) : ∃ x, o = some x := by
  cases a <;> cases b <;> cases related
  case int64.float64.refl => exact ⟨_, Binary64.compare?_of_number (Binary64.isNaN_ofInt64 _) number'⟩
  case float64.int64.refl => exact ⟨_, Binary64.compare?_of_number number (Binary64.isNaN_ofInt64 _)⟩
  case float64.float64.refl => exact ⟨_, Binary64.compare?_of_number number number'⟩
  all_goals exact ⟨_, rfl⟩

theorem totalCompare_of_relate_lt (less : a.relate b = some (some .lt)) : a.totalCompare b = .lt := by
  have greater : b.relate a = some (some .gt) := by rw [relate_swap a b, less]; rfl
  exact totalCompare_eq_gt_iff.1 (totalCompare_of_relate_gt greater)

def Refused (a b : Scalar) : Prop :=
  ∀ op, (BinaryOp.comparison op).apply a b = .error (.incompatibleOperands (.comparison op) a.kind b.kind)

theorem refused_of_unrelated (unrelated : a.relate b = none) : a.Refused b := by
  intro op
  rw [BinaryOp.apply, Comparison.apply, unrelated]

/-- Two values are compared, both ways round, and the answers agree with each other. -/
structure Coherent (a b : Scalar) (answers turned : Comparison → Bool) : Prop where
  apply : ∀ op, (BinaryOp.comparison op).apply a b = .ok (.bool (answers op))
  apply_turned : ∀ op, (BinaryOp.comparison op).apply b a = .ok (.bool (turned op))
  gt_turned : answers .gt = turned .lt
  ge_turned : answers .ge = turned .le
  eq_turned : answers .eq = turned .eq
  ne_eq_not : answers .ne = !answers .eq
  le_eq_or : answers .le = (answers .lt || answers .eq)
  ge_eq_or : answers .ge = (answers .gt || answers .eq)

/-- Just one of three answers is yes, and it is the one by which the values are sorted. -/
structure InLine (a b : Scalar) (answers : Comparison → Bool) : Prop where
  one : [Comparison.lt, .eq, .gt].countP answers = 1
  less : answers .lt = true → a.totalCompare b = .lt
  greater : answers .gt = true → a.totalCompare b = .gt
  tied : a.totalCompare b = .eq → answers .eq = true

theorem coherent_of_relate {o : Option Ordering} (related : a.relate b = some o) :
    Coherent a b (Comparison.holds · o) (Comparison.holds · (o.map Ordering.swap)) := by
  have turned : b.relate a = some (o.map Ordering.swap) := by rw [relate_swap a b, related]; rfl
  constructor
  · exact comparison_of_relate related
  · exact comparison_of_relate turned
  all_goals rcases o with _ | _ | _ | _ <;> rfl

theorem inLine_of_relate {x : Ordering} (related : a.relate b = some (some x)) :
    InLine a b (Comparison.holds · (some x)) where
  one := by cases x <;> rfl
  less yes := totalCompare_of_relate_lt (related.trans (congrArg some (beq_iff_eq.1 yes)))
  greater yes := totalCompare_of_relate_gt (related.trans (congrArg some (beq_iff_eq.1 yes)))
  tied same := by
    cases x with
    | lt => cases same.symm.trans (totalCompare_of_relate_lt related)
    | eq => rfl
    | gt => cases same.symm.trans (totalCompare_of_relate_gt related)

end Scalar

namespace Frame

variable {f : Frame} {n i : Nat} {later : List Nat} {c : Column}

theorem exists_cellAt_ordered (has : HasRows f.columns n) (there : f.columns[i]? = some c)
    (ordered : ∀ x ∈ c.contents.cells, Cell.Ordered c.type x) {row : Nat} (below : row < n) :
    f.cellAt i row = .ok (f.cellOf row i) ∧ (f.cellOf row i).isNaN = false := by
  have inside : row < c.buffer.items.length := by
    rw [← has.length c (List.mem_of_getElem? there)] at below
    exact below
  obtain ⟨v, shown, number⟩ := ordered _ (List.getElem_mem inside)
  have read : f.cellAt i row = .ok v := by
    rw [cellAt, column, there, ok_bind, Column.scalarAt_of_getElem? (List.getElem?_eq_getElem inside),
      Cell.toScalar, shown]
  have same := cellAt_eq_of_exists ⟨v, read⟩
  refine ⟨same, ?_⟩
  rw [same] at read
  rw [Except.ok.inj read, number]

theorem totalCompare_of_compareAt {row row' : Nat} (before : f.compareAt (i :: later) row row' ≠ .gt) :
    (f.cellOf row i).totalCompare (f.cellOf row' i) ≠ .gt := by
  intro behind
  rw [compareAt, keyCells, keyCells, List.map_cons, List.map_cons, List.compareLex_cons_cons, behind] at before
  exact before rfl

theorem exists_sort_atMost (has : HasRows f.columns n) (there : f.columns[i]? = some c)
    (ordered : ∀ x ∈ c.contents.cells, Cell.Ordered c.type x)
    (readable : ∀ j ∈ later, ∃ d, f.columns[j]? = some d ∧
      ∀ x ∈ d.contents.cells, (Cell.toScalar? d.type x).isSome) :
    ∃ g, f.sort (i :: later) = (.ok (), g) ∧ ∀ row row', row < row' → row' < n →
      g.cellAt i row = .ok (g.cellOf row i) ∧ g.cellAt i row' = .ok (g.cellOf row' i) ∧
        (g.cellOf row i).AtMost (g.cellOf row' i) := by
  have shown : ∀ j ∈ i :: later, ∃ d, f.columns[j]? = some d ∧
      ∀ x ∈ d.contents.cells, (Cell.toScalar? d.type x).isSome :=
    List.forall_mem_cons.2 ⟨⟨c, there, fun x mem => by
      obtain ⟨v, shown, -⟩ := ordered x mem
      rw [shown]
      rfl⟩, readable⟩
  obtain ⟨order, same, arranged, sorted⟩ := exists_sortBy_eq has shown false
  have inside : ∀ row ∈ order, row < n := fun row mem => List.mem_range.1 (same.mem_iff.1 mem)
  have counted : order.length = n := by rw [same.length_eq, List.length_range]
  have inOrder := pairwise_range_rowsAt has inside counted arranged
  obtain ⟨k, admits⟩ := (f.rowsAt order).exists_admits_cellOf i
  let d : Column := .ofList c.type c.name (valuesAt c.buffer.items order)
  have moved : (f.rowsAt order).columns[i]? = some d := by rw [rowsAt, List.getElem?_map, there, Option.map_some]
  have ordered' : ∀ x ∈ d.contents.cells, Cell.Ordered d.type x := fun x mem =>
    ordered x (mem_of_mem_valuesAt mem)
  refine ⟨_, sorted, fun row row' less below => ?_⟩
  obtain ⟨read, number⟩ := exists_cellAt_ordered (has.rowsAt inside counted) moved ordered' (less.trans below)
  obtain ⟨read', number'⟩ := exists_cellAt_ordered (has.rowsAt inside counted) moved ordered' below
  have before := List.pairwise_iff_getElem.1 inOrder row row' (by simpa using less.trans below)
    (by simpa using below) less
  rw [List.getElem_range, List.getElem_range] at before
  have first : (f.rowsAt order).compareAt (i :: later) row row' ≠ .gt := by
    intro behind
    rw [Precedes, directed, if_neg (by decide), behind] at before
    simp at before
  exact ⟨read, read', Scalar.atMost_of_totalCompare (admits row) (admits row') number number'
    (totalCompare_of_compareAt first)⟩

/-- The comparisons of any two values are all refused or all answered, whichever way round. If they are refused then
the values are not tied where they are sorted. If they are answered then the answers agree with each other, also for
not-a-numbers, and without these they agree with the order that sorts. So no cell of a column without not-a-number
is greater than a later one when the frame has been sorted by this column, or by it and then by others. -/
theorem comparisons_cohere (sized : f.size = .ok n) (there : f.columns[i]? = some c)
    (ordered : ∀ x ∈ c.contents.cells, Cell.Ordered c.type x)
    (readable : ∀ j ∈ later, ∃ d, f.columns[j]? = some d ∧
      ∀ x ∈ d.contents.cells, (Cell.toScalar? d.type x).isSome) :
    (∀ a b : Scalar, a.Refused b ∧ b.Refused a ∧ a.totalCompare b ≠ .eq ∨
      ∃ answers turned, a.Coherent b answers turned ∧
        (a.isNaN = false → b.isNaN = false → a.InLine b answers)) ∧
    ∃ g, f.sort (i :: later) = (.ok (), g) ∧ ∀ row row', row < row' → row' < n →
      ∃ u v, g.cellAt i row = .ok u ∧ g.cellAt i row' = .ok v ∧
        (BinaryOp.comparison .gt).apply u v = .ok (.bool false) := by
  refine ⟨fun a b => ?_, ?_⟩
  · cases related : a.relate b with
    | none =>
      have turned : b.relate a = none := by rw [Scalar.relate_swap a b, related]; rfl
      exact .inl ⟨Scalar.refused_of_unrelated related, Scalar.refused_of_unrelated turned,
        Scalar.totalCompare_of_unrelated related⟩
    | some o =>
      refine .inr ⟨_, _, Scalar.coherent_of_relate related, fun number number' => ?_⟩
      obtain ⟨x, rfl⟩ := Scalar.exists_order_of_relate related number number'
      exact Scalar.inLine_of_relate related
  · obtain ⟨g, sorted, rows⟩ := exists_sort_atMost (size_eq_ok_iff.1 sized) there ordered readable
    refine ⟨g, sorted, fun row row' less below => ?_⟩
    obtain ⟨read, read', o, related, le⟩ := rows row row' less below
    refine ⟨_, _, read, read', ?_⟩
    rw [Scalar.comparison_of_relate related]
    cases o with
    | gt => cases le
    | _ => rfl

private def tanks : Frame :=
  ⟨[.ofList (.missing .float64) "level" [some .zero, none, some .negZero],
    .ofList .text "site" ["b", "a", "b"]], none⟩

theorem comparisons_cohere_tanks :
    tanks.size = .ok 3 ∧
    (∃ c, tanks.columns[0]? = some c ∧ ∀ x ∈ c.contents.cells, Cell.Ordered c.type x) ∧
    (∀ j ∈ [1], ∃ d, tanks.columns[j]? = some d ∧
      ∀ x ∈ d.contents.cells, (Cell.toScalar? d.type x).isSome) ∧
    ∃ g, tanks.sort [0, 1] = (.ok (), g) ∧
      ∃ u v, g.cellAt 0 1 = .ok u ∧ g.cellAt 0 2 = .ok v ∧
        (BinaryOp.comparison .gt).apply u v = .ok (.bool false) := by
  have sized : tanks.size = .ok 3 := rfl
  let level : Column := .ofList (.missing .float64) "level" [some .zero, none, some .negZero]
  have there : tanks.columns[0]? = some level := rfl
  have ordered : ∀ x ∈ level.contents.cells, Cell.Ordered (.missing .float64) x := by
    rintro x (_ | ⟨_, _ | ⟨_, _ | ⟨_, ⟨⟩⟩⟩⟩) <;> exact ⟨_, rfl, rfl⟩
  have readable : ∀ j ∈ [1], ∃ d, tanks.columns[j]? = some d ∧
      ∀ x ∈ d.contents.cells, (Cell.toScalar? d.type x).isSome := by
    simp only [List.forall_mem_cons]
    exact ⟨⟨_, rfl, by decide⟩, nofun⟩
  obtain ⟨-, g, sorted, rows⟩ := comparisons_cohere sized there ordered readable
  exact ⟨sized, ⟨level, there, ordered⟩, readable, g, sorted, rows 1 2 (by decide) (by decide)⟩

end Frame

end Tabular
