import Tabular.Proofs.Extremes

/-! Groups with absent cells. Mean, deviation and least cell of such a group are absent wherever the absent cells
stand, and the greatest is the greatest of the others. A sum is absent too, but it adds from left to right and so
it is refused where the first two cells are truth values. -/

namespace Tabular

namespace Arithmetic

theorem apply_absent_left (op : Arithmetic) (v : Scalar) : op.apply .absent v = .ok .absent := rfl

theorem apply_absent_right (op : Arithmetic) (v : Scalar) : op.apply v .absent = .ok .absent := by
  cases v <;> rfl

end Arithmetic

namespace Fold

variable {k : Kind} {cells : List Scalar}

theorem admits_of_add {a b v : Scalar} (ha : k.Admits a) (hb : k.Admits b)
    (added : Arithmetic.add.apply a b = .ok v) : k.Admits v := by
  rcases ha with rfl | ha
  · cases added
    exact .inl rfl
  rcases hb with rfl | hb
  · rw [Arithmetic.apply_absent_right] at added
    cases added
    exact .inl rfl
  cases a <;> cases ha <;> cases b <;> cases hb <;> cases added
  all_goals first | exact .inl rfl | exact .inr rfl

theorem exists_add {a b : Scalar} (addable : k ≠ .bool) (ha : k.Admits a) (hb : k.Admits b) :
    ∃ v, Arithmetic.add.apply a b = .ok v := by
  rcases ha with rfl | ha
  · exact ⟨_, Arithmetic.add.apply_absent_left b⟩
  rcases hb with rfl | hb
  · exact ⟨_, Arithmetic.add.apply_absent_right a⟩
  cases a <;> cases ha <;> cases b <;> cases hb
  case bool.refl.bool.refl => exact absurd rfl addable
  all_goals exact ⟨_, rfl⟩

theorem admits_of_foldlM_add {a v : Scalar} (first : k.Admits a) (uniform : Uniform k cells)
    (summed : cells.foldlM (Arithmetic.add.apply · ·) a = .ok v) : k.Admits v := by
  induction cells generalizing a with
  | nil =>
    cases summed
    exact first
  | cons b cells ih =>
    obtain ⟨head, tail⟩ := List.forall_mem_cons.1 uniform
    rw [List.foldlM_cons] at summed
    obtain ⟨sum, added, rest⟩ := bind_eq_ok_iff.1 summed
    exact ih (admits_of_add first head added) tail rest

theorem foldlM_add_absent (cells : List Scalar) :
    cells.foldlM (Arithmetic.add.apply · ·) .absent = .ok .absent := by
  induction cells with
  | nil => rfl
  | cons v cells ih => rw [List.foldlM_cons, Arithmetic.apply_absent_left, ok_bind, ih]

theorem foldlM_add_of_mem {a : Scalar} (addable : k ≠ .bool) (first : k.Admits a) (uniform : Uniform k cells)
    (mem : .absent ∈ cells) : cells.foldlM (Arithmetic.add.apply · ·) a = .ok .absent := by
  induction cells generalizing a with
  | nil => cases mem
  | cons v cells ih =>
    obtain ⟨head, tail⟩ := List.forall_mem_cons.1 uniform
    rw [List.foldlM_cons]
    rcases List.mem_cons.1 mem with rfl | later
    · rw [Arithmetic.apply_absent_right, ok_bind, foldlM_add_absent]
    · obtain ⟨sum, added⟩ := exists_add addable first head
      rw [added, ok_bind, ih (admits_of_add first head added) tail later]

theorem total_of_mem (uniform : Uniform k cells) (mem : .absent ∈ cells) :
    total cells = if k = .bool ∧ .absent ∉ cells.take 2
      then .error (.incompatibleOperands (.arithmetic .add) .bool .bool) else .ok .absent := by
  cases cells with
  | nil => cases mem
  | cons a cells =>
    obtain ⟨first, uniform⟩ := List.forall_mem_cons.1 uniform
    by_cases none : a = .absent
    · rw [if_neg (by simp [none]), none]
      exact foldlM_add_absent cells
    have later := (List.mem_cons.1 mem).resolve_left (Ne.symm none)
    by_cases truths : k = .bool
    · obtain ⟨b, cells, rfl⟩ := List.exists_cons_of_ne_nil (List.ne_nil_of_mem later)
      obtain ⟨second, -⟩ := List.forall_mem_cons.1 uniform
      rcases second with rfl | second
      · rw [if_neg (by simp), total, List.foldlM_cons, Arithmetic.apply_absent_right]
        exact foldlM_add_absent cells
      · have first := first.resolve_left none
        subst truths
        cases a <;> cases first
        cases b <;> cases second
        exact (if_pos ⟨rfl, by simp⟩).symm
    · rw [if_neg (by simp [truths])]
      exact foldlM_add_of_mem truths first uniform later

def resultKind (k : Kind) : Fold → Kind
  | sum => k
  | min => k
  | max => k
  | mean => .float64
  | stddev => .float64

theorem admits_of_reduce {fold : Fold} {v : Scalar} (uniform : Uniform k cells) (reduced : fold.reduce cells = .ok v) :
    (fold.resultKind k).Admits v := by
  have moment (m : Option Number.Binary64) : Kind.float64.Admits ((m.map Scalar.float64).getD .absent) := by
    cases m with
    | none => exact .inl rfl
    | some x => exact .inr rfl
  rcases eq_or_ne cells [] with rfl | nonempty
  · cases fold <;> cases reduced <;> exact .inl rfl
  cases fold with
  | sum =>
    obtain ⟨a, cells, rfl⟩ := List.exists_cons_of_ne_nil nonempty
    obtain ⟨head, tail⟩ := List.forall_mem_cons.1 uniform
    exact admits_of_foldlM_add head tail reduced
  | min =>
    cases reduced
    exact uniform _ (extreme_lt_spec uniform nonempty).1
  | max =>
    cases reduced
    exact uniform _ (extreme_gt_spec uniform nonempty).1
  | mean =>
    obtain ⟨m, -, same⟩ := bind_eq_ok_iff.1 reduced
    cases same
    exact moment _
  | stddev =>
    obtain ⟨m, -, same⟩ := bind_eq_ok_iff.1 reduced
    cases same
    exact moment _

/-- What cells come to if one of them is absent. -/
structure Absents (k : Kind) (cells : List Scalar) : Prop where
  mean : Fold.mean.reduce cells = .ok .absent
  stddev : Fold.stddev.reduce cells = .ok .absent
  min : Fold.min.reduce cells = .ok .absent
  max : ∃ m ∈ cells, Fold.max.reduce cells = .ok m ∧ (m = .absent ↔ ∀ v ∈ cells, v = .absent) ∧
    ∀ v ∈ cells, m.totalCompare v ≠ .lt
  sum : Fold.sum.reduce cells = if k = .bool ∧ .absent ∉ cells.take 2
    then .error (.incompatibleOperands (.arithmetic .add) .bool .bool) else .ok .absent

theorem absents_of_mem (uniform : Uniform k cells) (mem : .absent ∈ cells) : Absents k cells := by
  have nonempty := List.ne_nil_of_mem mem
  have unknown : moments cells = .ok none := by
    have any : cells.any Scalar.isAbsent = true := List.any_eq_true.2 ⟨_, mem, rfl⟩
    rw [moments, any, Bool.or_true]
    rfl
  obtain ⟨least, first⟩ := extreme_lt_spec uniform nonempty
  obtain ⟨greatest, last⟩ := extreme_gt_spec uniform nonempty
  refine ⟨?_, ?_, ?_, ⟨_, greatest, rfl, ⟨fun none v inside => ?_, fun all => all _ greatest⟩, last⟩,
    total_of_mem uniform mem⟩
  · rw [reduce, unknown]
    rfl
  · rw [reduce, unknown]
    rfl
  · have none : extreme .lt cells = .absent := by
      by_contra present
      exact first _ mem (Scalar.totalCompare_absent present).2
    exact congrArg Except.ok none
  · by_contra present
    refine last v inside ?_
    rw [none]
    exact (Scalar.totalCompare_absent present).1

end Fold

namespace Frame

open GroupIndex

variable {f : Frame} {n : Nat} {keys : List Nat}

section Folds

variable {columns : List Column} {cells : List (List Scalar)} (keyed : f.Keyed n keys columns cells) {i : Nat}
  {c : Column} (found : f.column i = .ok c) {values : List Scalar} (shows : c.Shows values) {fold : Fold}

include keyed found shows

theorem Keyed.groupBy_folded {results : List Scalar} (reduced : foldedIn values (partition cells) fold = .ok results)
    (options : ScratchOptions) :
    ∃ taken d, f.groupBy keys [.fold fold i] options = .ok ⟨taken ++ [d], none⟩ ∧ taken.length = keys.length ∧
      d.Shows results := by
  have uniform : Uniform (fold.resultKind c.type.kind) results := by
    intro v mem
    obtain ⟨b, -, result⟩ := exists_of_mem_mapM reduced mem
    exact Fold.admits_of_reduce (uniform_valuesAt shows.uniform b.rows) result
  obtain ⟨taken, took⟩ := keyed.exists_taken
  have makes : ∀ a ∈ [.fold fold i], ∃ d : Column, d.length = (keysOf cells).eraseDups.length ∧
      Folded values (partition cells) i a d ∧ ∀ shared, a.toColumn shared f (partition cells) = .ok d := by
    simp only [List.forall_mem_cons]
    exact ⟨keyed.exists_folded found shows reduced uniform, nofun⟩
  obtain ⟨others, ran, -, each⟩ := keyed.groupBy_of_toColumn took makes options
  obtain ⟨d, _, ⟨_, _, ⟨⟩, result, shown⟩, none, rfl⟩ := List.forall₂_cons_left_iff.1 each
  obtain rfl := List.forall₂_nil_left_iff.1 none
  cases reduced.symm.trans result
  exact ⟨taken, d, ran, (length_mapM took).trans (length_mapM keyed.found), shown⟩

theorem Keyed.groupBy_refused {e : Error} (refused : foldedIn values (partition cells) fold = .error e)
    (options : ScratchOptions) : f.groupBy keys [.fold fold i] options = .error e := by
  obtain ⟨taken, took⟩ := keyed.exists_taken
  obtain ⟨shared, summed⟩ := exists_summarize_eq (g := ⟨keys, partition cells, n, f.stamp?⟩) keyed.found
    [.fold fold i] options
  rw [groupBy, keyed.build_eq, ok_bind, summed, firstRows_partition, took, ok_bind, List.mapM_cons,
    Aggregation.toColumn, keyed.values_eq found shows, refused]
  rfl

end Folds

/-- A grouping shows what a fold of a column comes to in the groups, or is refused where it is. Of a group with
absent cells, wherever they stand and whatever else is in it, mean, deviation and least cell are absent, the greatest
cell is absent just if all cells are, and the sum is absent too, but for the sums of truth values of which the first
two are there: these are refused. -/
theorem absent_cells (sized : f.size = .ok n) (wide : keys ≠ [])
    (readable : ∀ i ∈ keys, ∃ c, f.columns[i]? = some c ∧
      ∀ x ∈ c.contents.cells, (Cell.toScalar? c.type x).isSome)
    {i : Nat} {c : Column} (there : f.columns[i]? = some c) {values : List Scalar} (shows : c.Shows values) :
    ∃ index, build f keys = .ok index ∧
      (∀ fold options,
        (∀ results, foldedIn values index.buckets fold = .ok results → ∃ taken d,
          f.groupBy keys [.fold fold i] options = .ok ⟨taken ++ [d], none⟩ ∧ taken.length = keys.length ∧
            d.Shows results) ∧
        ∀ e, foldedIn values index.buckets fold = .error e → f.groupBy keys [.fold fold i] options = .error e) ∧
      ∀ b ∈ index.buckets, .absent ∈ valuesAt values b.rows →
        Fold.Absents c.type.kind (valuesAt values b.rows) := by
  have found : f.column i = .ok c := by rw [column, there]
  obtain ⟨columns, cells, keyed⟩ := exists_keyed (size_eq_ok_iff.1 sized) wide readable
  refine ⟨_, keyed.build_eq, fun fold options => ⟨fun results reduced => ?_, fun e refused => ?_⟩, fun b met mem => ?_⟩
  · exact keyed.groupBy_folded found shows reduced options
  · exact keyed.groupBy_refused found shows refused options
  · exact Fold.absents_of_mem (uniform_valuesAt shows.uniform b.rows) mem

private def lamps : Frame :=
  ⟨[.ofList .text "room" ["hall", "attic", "hall", "hall", "attic"],
    .ofList (.missing .bool) "lit" [some true, none, some true, none, some false]], none⟩

private def lit : List Scalar := [.bool true, .absent, .bool true, .absent, .bool false]

theorem absent_cells_lamps :
    lamps.size = .ok 5 ∧
    (∀ i ∈ [0], ∃ c, lamps.columns[i]? = some c ∧
      ∀ x ∈ c.contents.cells, (Cell.toScalar? c.type x).isSome) ∧
    (∃ c, lamps.columns[1]? = some c ∧ c.Shows lit) ∧
    ∃ index, build lamps [0] = .ok index ∧ index.buckets.map Bucket.rows = [[0, 2, 3], [1, 4]] ∧
      (∃ taken d, lamps.groupBy [0] [.fold .mean 1] {} = .ok ⟨taken ++ [d], none⟩ ∧ taken.length = [0].length ∧
        d.Shows [.absent, .absent]) ∧
      Fold.Absents .bool [.bool true, .bool true, .absent] ∧ Fold.Absents .bool [.absent, .bool false] := by
  have sized : lamps.size = .ok 5 := rfl
  have readable : ∀ i ∈ [0], ∃ c, lamps.columns[i]? = some c ∧
      ∀ x ∈ c.contents.cells, (Cell.toScalar? c.type x).isSome := by
    simp only [List.forall_mem_cons]
    exact ⟨⟨_, rfl, by decide⟩, nofun⟩
  let c : Column := .ofList (.missing .bool) "lit" [some true, none, some true, none, some false]
  have there : lamps.columns[1]? = some c := rfl
  have shows : c.Shows lit := rfl
  obtain ⟨index, built, runs, each⟩ := absent_cells sized (List.cons_ne_nil 0 []) readable there shows
  cases built
  refine ⟨sized, readable, ⟨c, there, shows⟩, _, rfl, rfl, (runs .mean {}).1 _ rfl, ?_, ?_⟩
  · exact each _ List.mem_cons_self (by decide)
  · exact each _ (List.mem_cons_of_mem _ List.mem_cons_self) (by decide)

/-- In the hall a lamp of which nothing is known comes too late for a sum. -/
theorem sum_of_lamps_refused :
    lamps.groupBy [0] [.fold .sum 1] {} = .error (.incompatibleOperands (.arithmetic .add) .bool .bool) ∧
    lamps.groupBy [0] [.fold .mean 1] {} = .ok ⟨[.ofList .text "room" ["hall", "attic"],
      .ofList (.missing .float64) "mean( lit )" [none, none]], none⟩ := ⟨rfl, rfl⟩

end Frame

end Tabular
