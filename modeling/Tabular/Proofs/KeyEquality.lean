import Tabular.Proofs.Comparisons
import Tabular.Proofs.JoinBack

/-! Keys of groups and joins, and the equality of expressions. Two values of one kind have the same key if they are
equal to the operators, which take the zeros of either sign for equal; besides, all not-a-numbers have one key, though
none is equal to anything. So a join without these pairs the rows that a filter by equality would keep. -/

namespace Tabular

namespace Number.Binary64

/-- The word that stands for a double in a key. -/
def canonical (x : Binary64) : Binary64 := if x.isNaN then nan else if x.isZero then zero else x

theorem rank_eq_zero_iff {x : Binary64} : x.rank = 0 ↔ x.isZero = true := by
  rw [rank, isZero, decide_eq_true_eq]
  split <;> omega

theorem eq_of_rank {x y : Binary64} (same : x.rank = y.rank) (some : x.rank ≠ 0) : x = y := by
  have place := x.totalRank_cases
  have place' := y.totalRank_cases
  exact Scalar.totalRank_injective (by omega)

theorem canonical_of_nan {x : Binary64} (nothing : x.isNaN = true) : x.canonical = nan := by
  rw [canonical, if_pos nothing]

theorem canonical_of_number {x : Binary64} (number : x.isNaN = false) :
    x.canonical = if x.isZero then zero else x := by
  rw [canonical, number, if_neg (by decide)]

theorem isNaN_canonical (x : Binary64) : x.canonical.isNaN = x.isNaN := by
  cases nothing : x.isNaN with
  | true => rw [canonical_of_nan nothing]; decide
  | false =>
    rw [canonical_of_number nothing]
    split
    · decide
    · exact nothing

theorem canonical_eq_iff_of_number {x y : Binary64} (number : x.isNaN = false) (number' : y.isNaN = false) :
    x.canonical = y.canonical ↔ x.rank = y.rank := by
  have place {z : Binary64} (number : z.isNaN = false) : z.canonical.rank = z.rank := by
    rw [canonical_of_number number]
    split
    · next none => rw [rank_eq_zero_iff.2 none]; decide
    · rfl
  constructor
  · intro same
    rw [← place number, same, place number']
  · intro same
    by_cases none : x.rank = 0
    · have none' := same.symm.trans none
      rw [canonical_of_number number, canonical_of_number number', if_pos (rank_eq_zero_iff.1 none),
        if_pos (rank_eq_zero_iff.1 none')]
    · rw [eq_of_rank same none]

theorem canonical_eq_iff {x y : Binary64} :
    x.canonical = y.canonical ↔ x.compare? y = some .eq ∨ x.isNaN = true ∧ y.isNaN = true := by
  by_cases alike : x.isNaN = y.isNaN
  · cases nothing : y.isNaN with
    | true =>
      rw [nothing] at alike
      simp [canonical_of_nan alike, canonical_of_nan nothing, alike]
    | false =>
      rw [nothing] at alike
      simp [canonical_eq_iff_of_number alike nothing, compare?_of_number alike nothing]
  · have apart : x.canonical ≠ y.canonical := fun same =>
      alike (by rw [← isNaN_canonical x, same, isNaN_canonical])
    cases nothing : x.isNaN <;> cases nothing' : y.isNaN <;> simp_all [compare?]

end Number.Binary64

namespace Scalar

variable {a b : Scalar}

theorem eq_apply_iff : (BinaryOp.comparison .eq).apply a b = .ok (.bool true) ↔ a.relate b = some (some .eq) := by
  rw [BinaryOp.apply, Comparison.apply]
  cases a.relate b with
  | none => simp
  | some o => simp [Comparison.holds]

theorem key_float64 (x : Number.Binary64) : (float64 x).key = .floatBits x.canonical.bits := by
  rw [key, Number.Binary64.canonical]
  split
  · rfl
  · split <;> rfl

theorem key_eq_iff :
    a.key = b.key ↔ (a.kind = b.kind ∧ (BinaryOp.comparison .eq).apply a b = .ok (.bool true)) ∨
      a.isNaN = true ∧ b.isNaN = true := by
  rw [eq_apply_iff]
  cases a <;> cases b
  case float64.float64 x y =>
    have words : x.canonical.bits = y.canonical.bits ↔ x.canonical = y.canonical :=
      ⟨fun same => congrArg Number.Binary64.mk same, congrArg _⟩
    simp [key_float64, words, Number.Binary64.canonical_eq_iff, kind, relate, isNaN]
  case int64.int64 n m => simp [key, kind, relate, isNaN, Int64.toInt_inj]
  all_goals simp [key, kind, relate, isNaN]

theorem key_eq_iff_of_admits {k : Kind} (ha : k.Admits a) (hb : k.Admits b) (number : a.isNaN = false) :
    a.key = b.key ↔ (BinaryOp.comparison .eq).apply a b = .ok (.bool true) := by
  have kinds (same : a.relate b = some (some .eq)) : a.kind = b.kind := by
    rcases ha with rfl | rfl
    · cases b <;> first | rfl | cases same
    · rcases hb with rfl | hb
      · cases a <;> first | rfl | cases same
      · exact hb.symm
  rw [key_eq_iff, number]
  simp only [Bool.false_eq_true, false_and, or_false, and_iff_right_iff_imp]
  exact fun equal => kinds (eq_apply_iff.1 equal)

end Scalar

namespace Frame

variable {f g : Frame} {n m : Nat} {l r : Column} {leftKey rightKey : Nat} {lefts rights : List Scalar} {k : Kind}

theorem exists_join_inner (hf : HasRows f.columns n) (hg : HasRows g.columns m) (hl : f.column leftKey = .ok l)
    (hr : g.column rightKey = .ok r) (shows : l.Shows lefts) (shows' : r.Shows rights) (options : ScratchOptions) :
    ∃ made, f.join leftKey g rightKey .inner options = .ok made ∧
      f.Joined g (Join.matching .inner (lefts.map Scalar.key) (rights.map Scalar.key)) made := by
  have wide : f.columns ≠ [] := List.ne_nil_of_mem (mem_of_column hl)
  have wide' : g.columns ≠ [] := List.ne_nil_of_mem (mem_of_column hr)
  have counted : (lefts.map Scalar.key).length = n := by
    rw [List.length_map, ← shows.length, length_of_column hf hl]
  have counted' : (rights.map Scalar.key).length = m := by
    rw [List.length_map, ← shows'.length, length_of_column hg hr]
  obtain ⟨made, gathered⟩ : ∃ made, f.gatherPairs g (Join.matching .inner (lefts.map Scalar.key)
      (rights.map Scalar.key)) = .ok made :=
    (exists_gatherPairs_iff hf hg wide wide').2 ⟨exists_takeRows_matching hf counted,
      (exists_takeRowsOrDefault_matching_iff hg counted').2 nofun⟩
  refine ⟨made, ?_, joined_of_eq_ok hf hg wide wide' gathered⟩
  rw [join_eq hf hg hl hr, keys_of_shows shows, ok_bind, keys_of_shows shows', ok_bind, gathered]

/-- Keys are equal for equal values of one kind and for not-a-numbers, and for no others. So a join on two
columns of one kind without not-a-numbers pairs, each once, the rows whose cells are equal to the operators, and no
others; absent cells are equal. -/
theorem join_pairs_equal_cells (hf : f.size = .ok n) (hg : g.size = .ok m) (hl : f.column leftKey = .ok l)
    (hr : g.column rightKey = .ok r) (shows : l.Shows lefts) (shows' : r.Shows rights)
    (alike : ∀ v ∈ lefts ++ rights, k.Admits v ∧ v.isNaN = false) (options : ScratchOptions) :
    (∀ a b : Scalar, a.key = b.key ↔
      (a.kind = b.kind ∧ (BinaryOp.comparison .eq).apply a b = .ok (.bool true)) ∨
        a.isNaN = true ∧ b.isNaN = true) ∧
    ∃ made pairs, f.join leftKey g rightKey .inner options = .ok made ∧ f.Joined g pairs made ∧ pairs.Nodup ∧
      ∀ p, p ∈ pairs ↔ ∃ j u v, p.right? = some j ∧ lefts[p.left]? = some u ∧ rights[j]? = some v ∧
        (BinaryOp.comparison .eq).apply u v = .ok (.bool true) := by
  obtain ⟨made, ran, joined⟩ := exists_join_inner (size_eq_ok_iff.1 hf) (size_eq_ok_iff.1 hg) hl hr shows shows' options
  have pairs := Join.exact_matching .inner (lefts.map Scalar.key) (rights.map Scalar.key)
  have equal {i j : Nat} {u v : Scalar} (here : lefts[i]? = some u) (there : rights[j]? = some v) :
      u.key = v.key ↔ (BinaryOp.comparison .eq).apply u v = .ok (.bool true) := by
    obtain ⟨admits, number⟩ := alike u (List.mem_append_left _ (List.mem_of_getElem? here))
    exact Scalar.key_eq_iff_of_admits admits (alike v (List.mem_append_right _ (List.mem_of_getElem? there))).1 number
  refine ⟨fun a b => Scalar.key_eq_iff, made, _, ran, joined, pairs.distinct, ?_⟩
  rintro ⟨i, right?⟩
  cases right? with
  | none => simp [pairs.unmatched i]
  | some j =>
    rw [pairs.matched i j]
    simp only [List.getElem?_map, Option.map_eq_some_iff, Option.some.injEq]
    constructor
    · rintro ⟨_, ⟨u, here, rfl⟩, v, there, same⟩
      exact ⟨j, u, v, rfl, here, there, (equal here there).1 same.symm⟩
    · rintro ⟨_, u, v, rfl, here, there, same⟩
      exact ⟨_, ⟨u, here, rfl⟩, v, there, ((equal here there).2 same).symm⟩

private def springs : Frame :=
  ⟨[.ofList (.missing .float64) "height" [some .negZero, none, some .zero]], none⟩

private def wells : Frame := ⟨[.ofList (.missing .float64) "height" [none, some .zero]], none⟩

theorem join_pairs_equal_cells_springs :
    springs.size = .ok 3 ∧ wells.size = .ok 2 ∧
    (∃ l, springs.column 0 = .ok l ∧ l.Shows [.float64 .negZero, .absent, .float64 .zero]) ∧
    (∃ r, wells.column 0 = .ok r ∧ r.Shows [.absent, .float64 .zero]) ∧
    (∀ v ∈ [.float64 .negZero, .absent, .float64 .zero] ++ [.absent, .float64 .zero],
      Kind.float64.Admits v ∧ v.isNaN = false) ∧
    ∃ made pairs, springs.join 0 wells 0 .inner {} = .ok made ∧ springs.Joined wells pairs made ∧ pairs.Nodup ∧
      ⟨0, some 1⟩ ∈ pairs ∧ ⟨1, some 0⟩ ∈ pairs ∧ ⟨0, some 0⟩ ∉ pairs := by
  have hf : springs.size = .ok 3 := rfl
  have hg : wells.size = .ok 2 := rfl
  let l : Column := .ofList (.missing .float64) "height" [some .negZero, none, some .zero]
  let r : Column := .ofList (.missing .float64) "height" [none, some .zero]
  have hl : springs.column 0 = .ok l := rfl
  have hr : wells.column 0 = .ok r := rfl
  have shows : l.Shows [.float64 .negZero, .absent, .float64 .zero] := rfl
  have shows' : r.Shows [.absent, .float64 .zero] := rfl
  have alike : ∀ v ∈ [.float64 .negZero, .absent, .float64 .zero] ++ [.absent, .float64 .zero],
      Kind.float64.Admits v ∧ v.isNaN = false := by
    simp only [List.cons_append, List.nil_append, List.forall_mem_cons]
    exact ⟨⟨.inr rfl, rfl⟩, ⟨.inl rfl, rfl⟩, ⟨.inr rfl, rfl⟩, ⟨.inl rfl, rfl⟩, ⟨.inr rfl, rfl⟩, nofun⟩
  obtain ⟨-, made, pairs, ran, joined, once, paired⟩ := join_pairs_equal_cells hf hg hl hr shows shows' alike {}
  refine ⟨hf, hg, ⟨l, hl, shows⟩, ⟨r, hr, shows'⟩, alike, made, pairs, ran, joined, once, ?_, ?_, fun mem => ?_⟩
  · exact (paired ⟨0, some 1⟩).2 ⟨1, _, _, rfl, rfl, rfl, rfl⟩
  · exact (paired ⟨1, some 0⟩).2 ⟨0, _, _, rfl, rfl, rfl, rfl⟩
  · obtain ⟨_, _, _, ⟨⟩, ⟨⟩, ⟨⟩, equal⟩ := (paired ⟨0, some 0⟩).1 mem
    cases equal

end Frame

end Tabular
