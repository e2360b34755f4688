import Tabular.Proofs.Sorting

/-! Frames sorted several times. To sort by some columns and then by others comes to sorting once by the others
and, where these do not differ, by the first ones: a stable sort takes rows that it cannot tell apart as it
finds them. -/

namespace Tabular

open Std (OrientedCmp)

theorem compareLex_append {α : Type} {cmp : α → α → Ordering} {as as' bs bs' : List α}
    (counted : as.length = as'.length) :
    (as ++ bs).compareLex cmp (as' ++ bs') = (as.compareLex cmp as').then (bs.compareLex cmp bs') := by
  induction as generalizing as' with
  | nil =>
    obtain rfl := List.length_eq_zero_iff.1 counted.symm
    rfl
  | cons a as ih =>
    obtain ⟨a', as', rfl⟩ := List.exists_cons_of_length_eq_add_one counted.symm
    rw [List.cons_append, List.cons_append, List.compareLex_cons_cons, List.compareLex_cons_cons,
      ih (Nat.succ.inj counted), Ordering.then_assoc]

section Positions

variable {cmp cmp' : Nat → Nat → Ordering} {order again : List Nat}

/-- Positions that are arranged by one comparison and then, as they stand, by another are arranged by the later
comparison and after it by the first. -/
theorem pairwise_valuesAt (arranged : order.Pairwise (Precedes cmp'))
    (arranged' : again.Pairwise fun p q => ∀ x, order[p]? = some x → ∀ y, order[q]? = some y →
      cmp x y = .lt ∨ cmp x y = .eq ∧ p < q) :
    (valuesAt order again).Pairwise (Precedes fun x y => (cmp x y).then (cmp' x y)) := by
  refine List.pairwise_filterMap.2 (arranged'.imp fun {p q} before x here y there => ?_)
  rcases before x here y there with less | ⟨same, earlier⟩
  · exact .inl (by simp only [less, Ordering.lt_then])
  · obtain ⟨inside, rfl⟩ := List.getElem?_eq_some_iff.1 here
    obtain ⟨inside', rfl⟩ := List.getElem?_eq_some_iff.1 there
    have first := List.pairwise_iff_getElem.1 arranged p q inside inside' earlier
    simpa only [Precedes, same, Ordering.eq_then] using first

theorem valuesAt_perm (same : again.Perm (List.range order.length)) : (valuesAt order again).Perm order := by
  have moved := same.filterMap (order[·]?)
  rwa [show (List.range order.length).filterMap (order[·]?) = order from valuesAt_range order] at moved

end Positions

namespace Frame

variable {f : Frame} {n : Nat} {keys later : List Nat}

theorem directed_compareAt_append (f : Frame) (keys later : List Nat) (descending : Bool) :
    directed descending (f.compareAt (later ++ keys)) = fun row row' =>
      (directed descending (f.compareAt later) row row').then (directed descending (f.compareAt keys) row row') := by
  funext row row'
  have lexicographic : f.compareAt (later ++ keys) row row' =
      (f.compareAt later row row').then (f.compareAt keys row row') := by
    rw [compareAt, keyCells, keyCells, List.map_append, List.map_append]
    exact compareLex_append (by rw [List.length_map, List.length_map])
  rw [directed, lexicographic]
  cases descending with
  | false => rfl
  | true => exact Ordering.swap_then _ _

theorem rowsAt_rowsAt {order : List Nat} (has : HasRows f.columns n) (inside : ∀ row ∈ order, row < n)
    (again : List Nat) : (f.rowsAt order).rowsAt again = f.rowsAt (valuesAt order again) := by
  simp only [rowsAt, List.map_map, Frame.mk.injEq, and_true]
  refine List.map_congr_left fun c mem => ?_
  rw [← has.length c mem] at inside
  exact congrArg (Column.ofList c.type c.name) (valuesAt_valuesAt inside again)

section Sorted

variable (has : HasRows f.columns n)
  (readable : ∀ i ∈ later ++ keys, ∃ c, f.columns[i]? = some c ∧
    ∀ x ∈ c.contents.cells, (Cell.toScalar? c.type x).isSome) (descending : Bool)

include has readable

theorem exists_sortBy_append : ∃ g h, f.sortBy descending (later ++ keys) = (.ok (), g) ∧
    f.sortBy descending keys = (.ok (), h) ∧ h.sortBy descending later = (.ok (), g) := by
  have first := fun i mem => readable i (List.mem_append_right later mem)
  have second := fun i mem => readable i (List.mem_append_left keys mem)
  obtain ⟨whole, same, arranged, sorted⟩ := exists_sortBy_eq has readable descending
  obtain ⟨order, same', arranged', sorted'⟩ := exists_sortBy_eq has first descending
  have inside : ∀ row ∈ order, row < n := fun row mem => List.mem_range.1 (same'.mem_iff.1 mem)
  have counted : order.length = n := by rw [same'.length_eq, List.length_range]
  obtain ⟨again, same'', arranged'', sorted''⟩ :=
    exists_sortBy_eq (has.rowsAt inside counted) (readable_rowsAt second) descending
  have both : (valuesAt order again).Pairwise (Precedes (directed descending (f.compareAt (later ++ keys)))) := by
    rw [directed_compareAt_append]
    refine pairwise_valuesAt arranged' (arranged''.imp fun {p q} before x here y there => ?_)
    rwa [Precedes, directed, compareAt_rowsAt has inside here there] at before
  have moved : (valuesAt order again).Perm order := valuesAt_perm (by rwa [counted])
  have trans := transCmp_directed (f.transCmp_compareAt (later ++ keys)) descending
  obtain rfl := eq_of_pairwise_precedes (moved.trans (same'.trans same.symm)) both arranged
  exact ⟨_, _, sorted, sorted', by rw [sorted'', rowsAt_rowsAt has inside]⟩

end Sorted

/-- To sort by some columns and then by others, both times in one direction, gives the very frame that sorting once
by all of them gives, the ones that were sorted by last before the others. -/
theorem sort_append (sized : f.size = .ok n)
    (readable : ∀ i ∈ later ++ keys, ∃ c, f.columns[i]? = some c ∧
      ∀ x ∈ c.contents.cells, (Cell.toScalar? c.type x).isSome) :
    (∃ g h, f.sort (later ++ keys) = (.ok (), g) ∧ f.sort keys = (.ok (), h) ∧ h.sort later = (.ok (), g)) ∧
    ∃ g h, f.reverseSort (later ++ keys) = (.ok (), g) ∧ f.reverseSort keys = (.ok (), h) ∧
      h.reverseSort later = (.ok (), g) :=
  ⟨exists_sortBy_append (size_eq_ok_iff.1 sized) readable false,
    exists_sortBy_append (size_eq_ok_iff.1 sized) readable true⟩

private def heats : Frame :=
  ⟨[.ofList .text "lane" ["b", "a", "b", "a"], .ofList (.missing .bool) "fast" [some true, none, none, none],
    .ofList (.foreign "Tag") "tag" [10, 11, 12, 13]], none⟩

theorem sort_append_heats :
    heats.size = .ok 4 ∧
    (∀ i ∈ [0] ++ [1], ∃ c, heats.columns[i]? = some c ∧
      ∀ x ∈ c.contents.cells, (Cell.toScalar? c.type x).isSome) ∧
    ∃ g h, heats.reverseSort ([0] ++ [1]) = (.ok (), g) ∧ heats.reverseSort [1] = (.ok (), h) ∧
      h.reverseSort [0] = (.ok (), g) ∧ g.contents[2]? = some ⟨"tag", .foreign "Tag", [10, 12, 11, 13]⟩ := by
  have sized : heats.size = .ok 4 := rfl
  have readable : ∀ i ∈ [0] ++ [1], ∃ c, heats.columns[i]? = some c ∧
      ∀ x ∈ c.contents.cells, (Cell.toScalar? c.type x).isSome := by
    simp only [List.singleton_append, List.forall_mem_cons]
    refine ⟨⟨_, rfl, ?_⟩, ⟨_, rfl, ?_⟩, nofun⟩ <;> decide
  obtain ⟨-, g, h, once, first, second⟩ := sort_append sized readable
  obtain ⟨order, same, arranged, sorted⟩ := exists_sortBy_eq (size_eq_ok_iff.1 sized) readable true
  have trans := transCmp_directed (heats.transCmp_compareAt ([0] ++ [1])) true
  obtain rfl : order = [0, 2, 1, 3] := eq_of_pairwise_precedes (same.trans (by decide)) arranged (by decide)
  cases sorted.symm.trans once
  exact ⟨sized, readable, _, h, once, first, second, rfl⟩

end Frame

end Tabular
