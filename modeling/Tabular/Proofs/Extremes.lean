import Tabular.Proofs.Comparisons
import Tabular.Proofs.Sorting
import Tabular.Proofs.Tallies

/-! Least and greatest elements. A series finds them by the order of its elements and a group by the order that
sorts scalars; both keep the first of several that are no different. Both ends bound all elements, each in its
own order, and to the operators the two pairs of ends are equal. -/

namespace Tabular

section Least

variable {α L : Type} [LinearOrder L] {sort : α → Prop} (place : α → L) (pick : α → α → α)

theorem foldl_least (picks : ∀ b c, sort b → sort c → pick b c = if place c < place b then c else b) {xs : List α}
    {b : α} (first : sort b) (sorted : ∀ x ∈ xs, sort x) :
    xs.foldl pick b ∈ b :: xs ∧ ∀ x ∈ b :: xs, place (xs.foldl pick b) ≤ place x := by
  induction xs generalizing b with
  | nil => simp
  | cons c xs ih =>
    obtain ⟨next, rest⟩ := List.forall_mem_cons.1 sorted
    obtain ⟨either, low, low'⟩ : (pick b c = b ∨ pick b c = c) ∧ place (pick b c) ≤ place b ∧
        place (pick b c) ≤ place c := by
      rw [picks b c first next]
      split
      · next below => exact ⟨.inr rfl, below.le, le_rfl⟩
      · next above => exact ⟨.inl rfl, le_rfl, not_lt.1 above⟩
    rw [List.foldl_cons]
    generalize pick b c = d at either low low'
    have sorted : sort d := by rcases either with rfl | rfl <;> assumption
    obtain ⟨mem, least⟩ := ih sorted rest
    obtain ⟨head, tail⟩ := List.forall_mem_cons.1 least
    refine ⟨?_, List.forall_mem_cons.2 ⟨head.trans low, List.forall_mem_cons.2 ⟨head.trans low', tail⟩⟩⟩
    rcases either with rfl | rfl
    · exact List.cons_subset_cons _ (List.subset_cons_self _ _) mem
    · exact List.mem_cons_of_mem _ mem

end Least

namespace Fold

variable {k : Kind} {cells : List Scalar}

theorem extreme_spec {L : Type} [LinearOrder L] {wanted : Ordering} (place : Scalar → L)
    (wins : ∀ {a b}, k.Admits a → k.Admits b → (a.totalCompare b = wanted ↔ place a < place b))
    (uniform : Uniform k cells) (nonempty : cells ≠ []) :
    extreme wanted cells ∈ cells ∧ ∀ v ∈ cells, v.totalCompare (extreme wanted cells) ≠ wanted := by
  obtain ⟨first, rest, rfl⟩ := List.exists_cons_of_ne_nil nonempty
  obtain ⟨here, tail⟩ := List.forall_mem_cons.1 uniform
  obtain ⟨mem, least⟩ := foldl_least place (Scalar.better wanted)
    (fun b c hb hc => if_congr (wins hc hb) rfl rfl) here tail
  refine ⟨mem, fun v inside won => ?_⟩
  exact not_lt.2 (least v inside) ((wins (uniform v inside) (uniform _ mem)).1 won)

theorem extreme_lt_spec (uniform : Uniform k cells) (nonempty : cells ≠ []) :
    extreme .lt cells ∈ cells ∧ ∀ v ∈ cells, (extreme .lt cells).totalCompare v ≠ .gt := by
  obtain ⟨L, order, place, lined⟩ := Scalar.exists_lined k
  obtain ⟨mem, least⟩ := extreme_spec place lined.before uniform nonempty
  exact ⟨mem, fun v inside => mt Scalar.totalCompare_eq_gt_iff.1 (least v inside)⟩

theorem extreme_gt_spec (uniform : Uniform k cells) (nonempty : cells ≠ []) :
    extreme .gt cells ∈ cells ∧ ∀ v ∈ cells, (extreme .gt cells).totalCompare v ≠ .lt := by
  obtain ⟨L, order, place, lined⟩ := Scalar.exists_lined k
  obtain ⟨mem, greatest⟩ := extreme_spec (OrderDual.toDual ∘ place)
    (fun ha hb => Scalar.totalCompare_eq_gt_iff.trans (lined.before hb ha)) uniform nonempty
  exact ⟨mem, fun v inside => mt Scalar.totalCompare_eq_gt_iff.2 (greatest v inside)⟩

end Fold

namespace Series

variable {t : CellType} {s : Series t}

theorem exists_minmax (nonempty : s.buffer.items ≠ []) (ordered : ∀ x ∈ s.buffer.items, Cell.Ordered t x) :
    ∃ low high, s.minmax = .ok (low, high) ∧ low ∈ s.buffer.items ∧ high ∈ s.buffer.items ∧
      ∀ x ∈ s.buffer.items, Cell.AtMost t low x ∧ Cell.AtMost t x high := by
  obtain ⟨L, order, place, compared⟩ := Cell.exists_place t
  obtain ⟨first, rest, here⟩ := List.exists_cons_of_ne_nil nonempty
  rw [here] at ordered ⊢
  obtain ⟨head, tail⟩ := List.forall_mem_cons.1 ordered
  let lower (low c : Cell t) : Cell t := if Cell.compare? t c low == some .lt then c else low
  let higher (high c : Cell t) : Cell t := if Cell.compare? t c high == some .gt then c else high
  have apart : s.minmax = .ok (rest.foldl lower first, rest.foldl higher first) := by
    rw [minmax, here]
    exact congrArg Except.ok (List.foldl_hom₂ rest Prod.mk lower higher _ first first fun _ _ _ => rfl)
  have picks (b c : Cell t) (hb : Cell.Ordered t b) (hc : Cell.Ordered t c) :
      lower b c = if place c < place b then c else b :=
    if_congr (by rw [compared hc hb, beq_iff_eq, Option.some.injEq, compare_lt_iff_lt]) rfl rfl
  have picks' (b c : Cell t) (hb : Cell.Ordered t b) (hc : Cell.Ordered t c) :
      higher b c = if place b < place c then c else b :=
    if_congr (by rw [compared hc hb, beq_iff_eq, Option.some.injEq, compare_gt_iff_gt]) rfl rfl
  obtain ⟨mem, least⟩ := foldl_least place lower picks head tail
  obtain ⟨mem', greatest⟩ := foldl_least (OrderDual.toDual ∘ place) higher picks' head tail
  refine ⟨_, _, apart, mem, mem', fun x inside => ⟨⟨_, compared (ordered _ mem) (ordered x inside), ?_⟩,
    ⟨_, compared (ordered x inside) (ordered _ mem'), ?_⟩⟩⟩
  · exact Ordering.isLE_iff_ne_gt.2 (compare_le_iff_le.2 (least x inside))
  · exact Ordering.isLE_iff_ne_gt.2 (compare_le_iff_le.2 (greatest x inside))

end Series

namespace Column

variable {c : Column} {values : List Scalar}

theorem Shows.exists_cell (shows : c.Shows values) {w : Scalar} (mem : w ∈ values) :
    ∃ x ∈ c.buffer.items, Cell.toScalar? c.type x = some w := by
  have shown := List.mem_map_of_mem (f := some) mem
  rw [← shows] at shown
  exact List.mem_map.1 shown

theorem Shows.mem_of_toScalar? (shows : c.Shows values) {x : Cell c.type} (mem : x ∈ c.buffer.items) {w : Scalar}
    (shown : Cell.toScalar? c.type x = some w) : w ∈ values := by
  have inside := List.mem_map_of_mem (f := Cell.toScalar? c.type) mem
  rw [shows, shown] at inside
  obtain ⟨_, mem', same⟩ := List.mem_map.1 inside
  cases same
  exact mem'

theorem exists_ends (shows : c.Shows values) (nonempty : values ≠ [])
    (ordered : ∀ x ∈ c.buffer.items, Cell.Ordered c.type x) :
    ∃ low high u v, c.series.minmax = .ok (low, high) ∧ low ∈ c.buffer.items ∧ high ∈ c.buffer.items ∧
      (∀ x ∈ c.buffer.items, Cell.AtMost c.type low x ∧ Cell.AtMost c.type x high) ∧
      Cell.toScalar? c.type low = some u ∧ Cell.toScalar? c.type high = some v ∧
      Comparison.eq.apply (Fold.extreme .lt values) u = .ok (.bool true) ∧
      Comparison.eq.apply (Fold.extreme .gt values) v = .ok (.bool true) := by
  have uniform := shows.uniform
  have some : c.buffer.items ≠ [] := fun none => nonempty (List.length_eq_zero_iff.1 (by
    rw [← shows.length]
    exact List.length_eq_zero_iff.2 none))
  have number {w : Scalar} (mem : w ∈ values) : w.isNaN = false := by
    obtain ⟨x, inside, shown⟩ := shows.exists_cell mem
    obtain ⟨_, shown', number⟩ := ordered x inside
    cases shown.symm.trans shown'
    exact number
  obtain ⟨least, first⟩ := Fold.extreme_lt_spec uniform nonempty
  obtain ⟨greatest, last⟩ := Fold.extreme_gt_spec uniform nonempty
  obtain ⟨low, high, ran, mem, mem', bounds⟩ := Series.exists_minmax some ordered
  obtain ⟨u, shown, -⟩ := ordered low mem
  obtain ⟨v, shown', -⟩ := ordered high mem'
  have inside := shows.mem_of_toScalar? mem shown
  have inside' := shows.mem_of_toScalar? mem' shown'
  refine ⟨low, high, u, v, ran, mem, mem', bounds, shown, shown', ?_, ?_⟩
  · obtain ⟨x, there, seen⟩ := shows.exists_cell least
    have below := Scalar.atMost_of_totalCompare (uniform _ least) (uniform u inside) (number least) (number inside)
      (first u inside)
    exact below.antisymm (Cell.atMost_of_toScalar? (bounds x there).1 shown seen)
  · obtain ⟨x, there, seen⟩ := shows.exists_cell greatest
    have above := Scalar.atMost_of_totalCompare (uniform v inside') (uniform _ greatest) (number inside')
      (number greatest) (mt Scalar.totalCompare_eq_gt_iff.1 (last v inside'))
    exact (Cell.atMost_of_toScalar? (bounds x there).2 seen shown').antisymm above

end Column

namespace Frame

open GroupIndex
open Number (Binary64)

variable {f : Frame} {n : Nat} {keys : List Nat} {columns : List Column} {cells : List (List Scalar)}

def foldedIn (values : List Scalar) (buckets : List Bucket) (fold : Fold) : Except Error (List Scalar) :=
  buckets.mapM fun b => fold.reduce (valuesAt values b.rows)

/-- A column of a summary that shows what a fold of column `i` comes to. -/
def Folded (values : List Scalar) (buckets : List Bucket) (i : Nat) (a : Aggregation Nat) (d : Column) : Prop :=
  ∃ fold results, a = .fold fold i ∧ foldedIn values buckets fold = .ok results ∧ d.Shows results

section Folds

variable (keyed : f.Keyed n keys columns cells) {i : Nat} {c : Column} (found : f.column i = .ok c)
  {values : List Scalar} (shows : c.Shows values)

include keyed found shows

theorem Keyed.values_eq (shared : Bool) (fold : Fold) :
    (Aggregation.fold fold i).values shared f (partition cells) = foldedIn values (partition cells) fold := by
  rw [Aggregation.values_fold found]
  refine mapM_congr fun b met => ?_
  have inside := (keyed.proper b met).2.2
  rw [← keyed.has.length c (mem_of_column found), shows.length] at inside
  rw [Column.mapM_scalarAt_eq_ok shows inside, ok_bind]

theorem Keyed.exists_folded {fold : Fold} {results : List Scalar} {k : Kind}
    (reduced : foldedIn values (partition cells) fold = .ok results) (uniform : Uniform k results) :
    ∃ d : Column, d.length = (keysOf cells).eraseDups.length ∧
      Folded values (partition cells) i (.fold fold i) d ∧
      ∀ shared, (Aggregation.fold fold i).toColumn shared f (partition cells) = .ok d := by
  obtain ⟨t, items, inferred⟩ := Column.exists_infer_of_uniform uniform
  obtain ⟨column, shows'⟩ := inferred (fold.name ++ "( " ++ c.name ++ " )")
  refine ⟨_, ?_, ⟨fold, results, rfl, reduced, shows'⟩, fun shared => ?_⟩
  · rw [shows'.length, length_mapM reduced, partition, List.length_map]
  · rw [Aggregation.toColumn, keyed.values_eq found shows, reduced, ok_bind, Aggregation.name, found]
    exact column

end Folds

section Together

variable (alike : ∀ row < n, f.keyAt keys row = f.keyAt keys 0)

include alike

theorem rowsWith_single : f.rowsWith n keys (f.keyAt keys 0) = List.range n :=
  List.filter_eq_self.2 fun row mem => decide_eq_true (alike row (List.mem_range.1 mem))

theorem keysMet_single (nonempty : n ≠ 0) : f.keysMet n keys = [f.keyAt keys 0] := by
  have same : (List.range n).map (f.keyAt keys) = List.replicate n (f.keyAt keys 0) := by
    refine List.eq_replicate_iff.2 ⟨by simp, fun k mem => ?_⟩
    obtain ⟨row, inside, rfl⟩ := List.mem_map.1 mem
    exact alike row (List.mem_range.1 inside)
  obtain ⟨m, rfl⟩ := Nat.exists_eq_succ_of_ne_zero nonempty
  rw [keysMet, same, List.replicate_succ, List.eraseDups_cons, List.filter_eq_nil_iff.2 (by simp), List.eraseDups_nil]

theorem Keyed.foldedIn_single (keyed : f.Keyed n keys columns cells) (nonempty : n ≠ 0) {values : List Scalar}
    (counted : values.length = n) {fold : Fold} {v : Scalar} (reduced : fold.reduce values = .ok v) :
    foldedIn values (partition cells) fold = .ok [v] := by
  obtain ⟨b, single, all⟩ : ∃ b, partition cells = [b] ∧ b.rows = List.range n := by
    have rows := keyed.map_partition id
    rw [keysMet_single alike nonempty, List.map_singleton, rowsWith_single alike] at rows
    exact List.map_eq_singleton_iff.1 rows
  rw [foldedIn, single, List.mapM_cons, all, ← counted, valuesAt_range, reduced]
  rfl

end Together

/-- The two ways to least and greatest elements agree. Of a column without not-a-number whose rows are all in one
group, the aggregations give cells that bound all cells in the order that sorts them, and the series gives elements
that bound all elements in the order of their type; both ends of the one are equal, to the operators, to those of
the other. -/
theorem extremes_agree (sized : f.size = .ok n) (nonempty : n ≠ 0) (wide : keys ≠ [])
    (readable : ∀ i ∈ keys, ∃ c, f.columns[i]? = some c ∧
      ∀ x ∈ c.contents.cells, (Cell.toScalar? c.type x).isSome)
    (alike : ∀ row < n, f.keyAt keys row = f.keyAt keys 0) {i : Nat} {c : Column}
    (there : f.columns[i]? = some c) (ordered : ∀ x ∈ c.contents.cells, Cell.Ordered c.type x)
    (options : ScratchOptions) :
    ∃ taken least greatest lo hi values low high u v,
      f.groupBy keys [.fold .min i, .fold .max i] options = .ok ⟨taken ++ [least, greatest], none⟩ ∧
      taken.length = keys.length ∧ least.Shows [lo] ∧ greatest.Shows [hi] ∧
      c.Shows values ∧ lo ∈ values ∧ hi ∈ values ∧
      (∀ w ∈ values, lo.totalCompare w ≠ .gt ∧ hi.totalCompare w ≠ .lt) ∧
      c.series.minmax = .ok (low, high) ∧ low ∈ c.contents.cells ∧ high ∈ c.contents.cells ∧
      (∀ x ∈ c.contents.cells, Cell.AtMost c.type low x ∧ Cell.AtMost c.type x high) ∧
      Cell.toScalar? c.type low = some u ∧ Cell.toScalar? c.type high = some v ∧
      Comparison.eq.apply lo u = .ok (.bool true) ∧ Comparison.eq.apply hi v = .ok (.bool true) := by
  have has := size_eq_ok_iff.1 sized
  have found : f.column i = .ok c := by rw [column, there]
  obtain ⟨columns, cells, keyed⟩ := exists_keyed has wide readable
  obtain ⟨values, shows⟩ := Aggregation.exists_shows fun x mem => by
    obtain ⟨v, shown, -⟩ := ordered x mem
    rw [shown]
    rfl
  have counted : values.length = n := by rw [← shows.length, has.length c (mem_of_column found)]
  have some : values ≠ [] := by
    rintro rfl
    exact nonempty counted.symm
  obtain ⟨least, first⟩ := Fold.extreme_lt_spec shows.uniform some
  obtain ⟨greatest, last⟩ := Fold.extreme_gt_spec shows.uniform some
  obtain ⟨low, high, u, v, ends⟩ := c.exists_ends shows some ordered
  obtain ⟨taken, took⟩ := keyed.exists_taken
  have whole (fold : Fold) (v : Scalar) (reduced : fold.reduce values = .ok v) :=
    keyed.foldedIn_single alike nonempty counted reduced
  have makes : ∀ a ∈ [.fold .min i, .fold .max i], ∃ d : Column, d.length = (keysOf cells).eraseDups.length ∧
      Folded values (partition cells) i a d ∧ ∀ shared, a.toColumn shared f (partition cells) = .ok d := by
    have uniform (v : Scalar) : Uniform v.kind [v] := by simp [Uniform]
    simp only [List.forall_mem_cons]
    exact ⟨keyed.exists_folded found shows (whole .min _ rfl) (uniform _),
      keyed.exists_folded found shows (whole .max _ rfl) (uniform _), List.forall_mem_nil _⟩
  obtain ⟨others, ran, -, each⟩ := keyed.groupBy_of_toColumn took makes options
  obtain ⟨lowest, _, ⟨_, _, ⟨⟩, result, shown⟩, rest, rfl⟩ := List.forall₂_cons_left_iff.1 each
  obtain ⟨highest, _, ⟨_, _, ⟨⟩, result', shown'⟩, none, rfl⟩ := List.forall₂_cons_left_iff.1 rest
  rw [whole .min _ rfl] at result
  rw [whole .max _ rfl] at result'
  cases result
  cases result'
  obtain rfl := List.forall₂_nil_left_iff.1 none
  exact ⟨taken, lowest, highest, _, _, values, low, high, u, v, ran,
    (length_mapM took).trans (length_mapM keyed.found), shown, shown', shows, least, greatest,
    fun w mem => ⟨first w mem, last w mem⟩, ends⟩

private def gauge : Frame :=
  ⟨[.ofList .text "site" ["pier", "pier"], .ofList .float64 "level" [.zero, .negZero]], none⟩

theorem extremes_agree_gauge :
    gauge.size = .ok 2 ∧ (2 : Nat) ≠ 0 ∧
    (∀ i ∈ [0], ∃ c, gauge.columns[i]? = some c ∧
      ∀ x ∈ c.contents.cells, (Cell.toScalar? c.type x).isSome) ∧
    (∀ row < 2, gauge.keyAt [0] row = gauge.keyAt [0] 0) ∧
    (∃ c, gauge.columns[1]? = some c ∧ ∀ x ∈ c.contents.cells, Cell.Ordered c.type x) ∧
    ∃ g least greatest low high, gauge.groupBy [0] [.fold .min 1, .fold .max 1] {} = .ok g ∧
      g.columns = [.ofList .text "site" ["pier"], least, greatest] ∧
      least.Shows [.float64 .negZero] ∧ greatest.Shows [.float64 .zero] ∧
      (Series.ofList (t := .float64) "level" [Binary64.zero, .negZero]).minmax = .ok (low, high) ∧
      Comparison.eq.apply (.float64 .negZero) (.float64 low) = .ok (.bool true) ∧
      Comparison.eq.apply (.float64 .zero) (.float64 high) = .ok (.bool true) := by
  have sized : gauge.size = .ok 2 := rfl
  have readable : ∀ i ∈ [0], ∃ c, gauge.columns[i]? = some c ∧
      ∀ x ∈ c.contents.cells, (Cell.toScalar? c.type x).isSome := by
    simp only [List.forall_mem_cons]
    exact ⟨⟨_, rfl, by decide⟩, nofun⟩
  have alike : ∀ row < 2, gauge.keyAt [0] row = gauge.keyAt [0] 0 := by decide
  let level : Column := .ofList .float64 "level" [.zero, .negZero]
  have there : gauge.columns[1]? = some level := rfl
  have ordered : ∀ x ∈ level.contents.cells, Cell.Ordered .float64 x := by
    rintro x (_ | ⟨_, _ | ⟨_, ⟨⟩⟩⟩) <;> exact ⟨_, rfl, rfl⟩
  obtain ⟨taken, least, greatest, lo, hi, values, low, high, u, v, ran, single, shown, shown', -, -, -, -, ends, -, -,
    -, seen, seen', same, same'⟩ :=
    extremes_agree sized (by decide) (List.cons_ne_nil 0 []) readable alike there ordered {}
  obtain ⟨key, rfl⟩ := List.length_eq_one_iff.1 single
  cases ran
  cases shown
  cases shown'
  cases seen
  cases seen'
  exact ⟨sized, by decide, readable, alike, ⟨level, there, ordered⟩, _, _, _, low, high, rfl, rfl, rfl, rfl, ends, same,
    same'⟩

end Frame

end Tabular
