import Tabular.Frame.Rows
import Tabular.Proofs.Merging
import Tabular.Proofs.Partition

/-! The order of the rows of a frame by their cells in some columns. The cells of one column are of one kind, so
that they have places in a line, and rows are compared by the first column in which those differ. Positions that
compare as equal keep their order when they are sorted, and so they can stand in one order only. -/

namespace Tabular

open Std (OrientedCmp TransCmp)

section Positions

variable {cmp : Nat → Nat → Ordering}

/-- One position is to stand before another if it is less by this comparison, or no different and smaller. -/
def Precedes (cmp : Nat → Nat → Ordering) (i j : Nat) : Prop := cmp i j = .lt ∨ cmp i j = .eq ∧ i < j

instance (i j : Nat) : Decidable (Precedes cmp i j) := inferInstanceAs (Decidable (_ ∨ _))

theorem Precedes.asymm [OrientedCmp cmp] {i j : Nat} (before : Precedes cmp i j) : ¬Precedes cmp j i := by
  have turned : cmp j i = (cmp i j).swap := OrientedCmp.eq_swap
  rintro after
  rcases before with less | ⟨same, smaller⟩
  · rw [Precedes, turned, less] at after
    simp at after
  · rw [Precedes, turned, same] at after
    simp only [Ordering.swap_eq, reduceCtorEq, true_and, false_or] at after
    exact Nat.lt_asymm smaller after

theorem eq_of_pairwise_precedes [OrientedCmp cmp] {order other : List Nat} (same : other.Perm order)
    (arranged : other.Pairwise (Precedes cmp)) (arranged' : order.Pairwise (Precedes cmp)) : other = order :=
  same.eq_of_pairwise (fun _ _ _ _ before after => absurd after before.asymm) arranged arranged'

theorem pairwise_mergeSort_range [TransCmp cmp] (n : Nat) :
    ((List.range n).mergeSort fun i j => (cmp i j).isLE).Pairwise (Precedes cmp) := by
  let le (i j : Nat) : Bool := (cmp i j).isLE
  -- The sort goes by what it would go by if every position carried its own number to decide ties.
  let ahead (i j : Nat) : Bool := List.zipIdxLE le (i, i) (j, j)
  have trans (i j k : Nat) (first : le i j) (second : le j k) : le i k := TransCmp.isLE_trans first second
  have total (i j : Nat) : (le i j || le j i) = true := by
    have turned : cmp j i = (cmp i j).swap := OrientedCmp.eq_swap
    simp only [le, turned]
    cases cmp i j <;> rfl
  have decided : (List.range n).mergeSort le = (List.range n).mergeSort ahead := by
    have numbered (a : Nat × Nat) (mem : a ∈ (List.range n).zipIdx) : a = (a.1, a.1) := by
      have there := List.mem_zipIdx_iff_getElem?.1 mem
      obtain ⟨below, same⟩ := List.getElem?_eq_some_iff.1 there
      rw [List.getElem_range] at same
      exact Prod.ext rfl same
    rw [← List.mergeSort_zipIdx, List.map_mergeSort (s := ahead), List.zipIdx_map_fst]
    intro a here b there
    rw [numbered a here, numbered b there]
  have sorted : ((List.range n).mergeSort ahead).Pairwise fun i j => ahead i j :=
    List.pairwise_mergeSort (fun i j k => List.zipIdxLE_trans trans (i, i) (j, j) (k, k))
      (fun i j => List.zipIdxLE_total total (i, i) (j, j)) _
  have distinct : ((List.range n).mergeSort ahead).Nodup :=
    (List.mergeSort_perm _ ahead).nodup_iff.2 List.nodup_range
  rw [decided]
  refine (sorted.and distinct).imp fun {i j} ⟨before, apart⟩ => ?_
  have turned : cmp j i = (cmp i j).swap := OrientedCmp.eq_swap
  simp only [ahead, le, List.zipIdxLE, turned] at before
  rw [Precedes]
  cases here : cmp i j <;> simp_all
  omega

end Positions

namespace Scalar

variable {L : Type} [LinearOrder L] {sort : Scalar → Prop} {place : Scalar → L}

theorem Lined.totalCompare_eq (lined : Lined sort place) {a b : Scalar} (ha : sort a) (hb : sort b) :
    a.totalCompare b = compare (place a) (place b) := by
  have less := lined.before ha hb
  have greater := totalCompare_eq_gt_iff.trans (lined.before hb ha)
  rw [← compare_lt_iff_lt] at less
  rw [← compare_gt_iff_gt] at greater
  cases here : a.totalCompare b <;> cases there : compare (place a) (place b) <;> simp_all

theorem transCmp_of_admits {ρ : Type} {k : Kind} {cell : ρ → Scalar} (uniform : ∀ r, k.Admits (cell r)) :
    TransCmp fun r s => (cell r).totalCompare (cell s) := by
  obtain ⟨L, order, place, lined⟩ := exists_lined k
  have placed : (fun r s => (cell r).totalCompare (cell s)) = compareOn (place ∘ cell) :=
    funext fun r => funext fun s => lined.totalCompare_eq (uniform r) (uniform s)
  rw [placed]
  infer_instance

end Scalar

namespace Frame

theorem compareRows_eq_compareLex {as bs : List Scalar} (counted : as.length = bs.length) :
    compareRows as bs = as.compareLex Scalar.totalCompare bs := by
  induction as generalizing bs with
  | nil =>
    obtain rfl := List.length_eq_zero_iff.1 counted.symm
    rfl
  | cons a as ih =>
    obtain ⟨b, bs, rfl⟩ := List.exists_cons_of_length_eq_add_one counted.symm
    rw [compareRows, List.compareLex_cons_cons, ih (Nat.succ.inj counted)]

theorem transCmp_compareLex {ι ρ : Type} {cell : ι → ρ → Scalar} {keys : List ι}
    (each : ∀ i ∈ keys, TransCmp fun r s => (cell i r).totalCompare (cell i s)) :
    TransCmp fun r s => (keys.map (cell · r)).compareLex Scalar.totalCompare (keys.map (cell · s)) := by
  induction keys with
  | nil => exact inferInstanceAs (TransCmp (compareOn fun _ : ρ => ()))
  | cons i keys ih =>
    obtain ⟨head, tail⟩ := List.forall_mem_cons.1 each
    have rest := ih tail
    have both : (fun r s => ((i :: keys).map (cell · r)).compareLex Scalar.totalCompare
        ((i :: keys).map (cell · s))) = compareLex (fun r s => (cell i r).totalCompare (cell i s))
          fun r s => (keys.map (cell · r)).compareLex Scalar.totalCompare (keys.map (cell · s)) := by
      funext r s
      rw [List.map_cons, List.map_cons, List.compareLex_cons_cons]
      rfl
    rw [both]
    infer_instance

def cellOf (f : Frame) (row i : Nat) : Scalar := (f.cellAt i row).toOption.getD .absent

theorem cellAt_eq_of_exists {f : Frame} {i row : Nat} (read : ∃ v, f.cellAt i row = .ok v) :
    f.cellAt i row = .ok (f.cellOf row i) := by
  obtain ⟨v, found⟩ := read
  rw [cellOf, found]
  rfl

def keyCells (f : Frame) (keys : List Nat) (row : Nat) : List Scalar := keys.map (f.cellOf row)

/-- Two rows by their cells in the first of some columns in which those differ. -/
def compareAt (f : Frame) (keys : List Nat) (row row' : Nat) : Ordering :=
  (f.keyCells keys row).compareLex Scalar.totalCompare (f.keyCells keys row')

def directed (descending : Bool) (cmp : Nat → Nat → Ordering) (i j : Nat) : Ordering :=
  if descending then (cmp i j).swap else cmp i j

theorem transCmp_directed {cmp : Nat → Nat → Ordering} (trans : TransCmp cmp) (descending : Bool) :
    TransCmp (directed descending cmp) := by
  cases descending with
  | false => exact trans
  | true =>
    have opposite : directed true cmp = fun i j => cmp j i :=
      funext fun i => funext fun j => OrientedCmp.eq_swap.symm
    rw [opposite]
    exact TransCmp.opposite

end Frame

end Tabular
