import Tabular.Proofs.Merging

/-! The three orders of cells: that of elements of one type, that which the operators see, and that which sorts
scalars of all kinds. Where no cell is not-a-number they do not contradict each other. The second may take for
equal what the others tell apart, as zeros of different sign or absences of different depth, but it never turns
two cells around. -/

namespace Tabular

open Number (Binary64)

namespace Number.Binary64

theorem compare?_of_number {x y : Binary64} (number : x.isNaN = false) (number' : y.isNaN = false) :
    x.compare? y = some (compare x.rank y.rank) := by
  rw [compare?, number, number']
  rfl

theorem compare?_swap (x y : Binary64) : y.compare? x = (x.compare? y).map Ordering.swap := by
  have turned : compare y.rank x.rank = (compare x.rank y.rank).swap := Std.OrientedCmp.eq_swap
  rw [compare?, compare?, Bool.or_comm, turned]
  split <;> rfl

theorem totalRank_cases (x : Binary64) :
    x.rank ≤ 0 ∧ x.totalRank = x.rank - 1 ∨ 0 ≤ x.rank ∧ x.totalRank = x.rank := by
  rw [rank, totalRank]
  cases x.negative with
  | false =>
    right
    simp
  | true =>
    left
    simp

theorem totalCompare_of_compare?_gt {x y : Binary64} (greater : x.compare? y = some .gt) :
    x.totalCompare y = .gt := by
  rw [compare?] at greater
  split at greater
  · cases greater
  · have above : y.rank < x.rank := compare_gt_iff_gt.1 (Option.some.inj greater)
    have beyond : y.totalRank < x.totalRank := by
      have place := x.totalRank_cases
      have place' := y.totalRank_cases
      omega
    exact compare_gt_iff_gt.2 beyond

end Number.Binary64

namespace Scalar

def isNaN : Scalar → Bool
  | float64 x => x.isNaN
  | _ => false

/-- One value is no greater than another for the operators. -/
def AtMost (a b : Scalar) : Prop := ∃ o : Ordering, a.relate b = some (some o) ∧ o.isLE

theorem relate_swap (a b : Scalar) : b.relate a = (a.relate b).map (Option.map Ordering.swap) := by
  cases a <;> cases b
  case bool.bool | int64.int64 | utf8.utf8 => exact congrArg (some ∘ some) Std.OrientedCmp.eq_swap
  case int64.float64 | float64.int64 | float64.float64 => exact congrArg some (Binary64.compare?_swap _ _)
  all_goals rfl

theorem totalCompare_of_relate_gt {a b : Scalar} (greater : a.relate b = some (some .gt)) :
    a.totalCompare b = .gt := by
  cases a <;> cases b
  case bool.bool | int64.int64 | utf8.utf8 => exact Option.some.inj (Option.some.inj greater)
  case int64.float64 | float64.int64 | float64.float64 =>
    exact Binary64.totalCompare_of_compare?_gt (Option.some.inj greater)
  case bool.absent | int64.absent | float64.absent | utf8.absent => rfl
  all_goals cases greater

theorem exists_relate {k : Kind} {a b : Scalar} (ha : k.Admits a) (hb : k.Admits b) (number : a.isNaN = false)
    (number' : b.isNaN = false) : ∃ o, a.relate b = some (some o) := by
  rcases ha with rfl | ha
  · cases b <;> exact ⟨_, rfl⟩
  rcases hb with rfl | hb
  · cases a <;> exact ⟨_, rfl⟩
  cases a <;> cases ha <;> cases b <;> cases hb
  case float64.refl.float64.refl x y =>
    exact ⟨_, congrArg some (Binary64.compare?_of_number number number')⟩
  all_goals exact ⟨_, rfl⟩

theorem atMost_of_totalCompare {k : Kind} {a b : Scalar} (ha : k.Admits a) (hb : k.Admits b)
    (number : a.isNaN = false) (number' : b.isNaN = false) (first : a.totalCompare b ≠ .gt) : a.AtMost b := by
  obtain ⟨o, related⟩ := exists_relate ha hb number number'
  refine ⟨o, related, ?_⟩
  cases o with
  | gt => exact absurd (totalCompare_of_relate_gt related) first
  | _ => rfl

theorem AtMost.antisymm {a b : Scalar} (le : a.AtMost b) (ge : b.AtMost a) :
    Comparison.eq.apply a b = .ok (.bool true) := by
  obtain ⟨o, related, below⟩ := le
  obtain ⟨o', related', below'⟩ := ge
  rw [relate_swap, related] at related'
  cases related'
  cases o with
  | eq => rw [Comparison.apply, related]; rfl
  | lt => cases below'
  | gt => cases below

end Scalar

theorem IntWidth.toInt_ofInt {w : IntWidth} (n : w.Value) : (Int64.ofInt n.val).toInt = n.val := by
  obtain ⟨n, low, high⟩ := n
  refine Int64.toInt_ofInt_of_le ?_ ?_
  · cases w <;> exact le_trans (by decide) low
  · cases w <;> exact lt_of_le_of_lt high (by decide)

namespace Cell

def AtMost (t : CellType) (x y : Cell t) : Prop := ∃ o : Ordering, compare? t x y = some o ∧ o.isLE

theorem relate_of_toScalar? {t : CellType} (plain : t.allowsMissing = false) {x y : Cell t} {u v : Scalar}
    (shown : toScalar? t x = some u) (shown' : toScalar? t y = some v) : u.relate v = some (compare? t x y) := by
  cases t with
  | int w =>
    cases shown
    cases shown'
    simp only [Scalar.relate, compare?, IntWidth.toInt_ofInt]
  | foreign name => cases shown
  | missing t => cases plain
  | _ =>
    cases shown
    cases shown'
    rfl

theorem atMost_of_toScalar? {t : CellType} {x y : Cell t} {u v : Scalar} (below : AtMost t x y)
    (shown : toScalar? t x = some u) (shown' : toScalar? t y = some v) : u.AtMost v := by
  induction t with
  | missing t ih =>
    cases x with
    | none =>
      cases shown
      cases v <;> exact ⟨_, rfl, rfl⟩
    | some x =>
      cases y with
      | none =>
        obtain ⟨o, compared, le⟩ := below
        cases compared
        cases le
      | some y => exact ih below shown shown'
  | _ =>
    obtain ⟨o, compared, le⟩ := below
    exact ⟨o, by rw [relate_of_toScalar? rfl shown shown', compared], le⟩

/-- An element that can be shown, and not as not-a-number. -/
def Ordered (t : CellType) (x : Cell t) : Prop := ∃ v, toScalar? t x = some v ∧ v.isNaN = false

theorem exists_place (t : CellType) :
    ∃ (L : Type) (_ : LinearOrder L) (place : Cell t → L), ∀ {x y : Cell t}, Ordered t x → Ordered t y →
      compare? t x y = some (compare (place x) (place y)) := by
  induction t with
  | int w => exact ⟨Int, inferInstance, Subtype.val, fun _ _ => rfl⟩
  | float32 =>
    refine ⟨Int, inferInstance, fun x => x.widen.rank, ?_⟩
    rintro x y ⟨_, ⟨⟩, number⟩ ⟨_, ⟨⟩, number'⟩
    exact Binary64.compare?_of_number number number'
  | float64 =>
    refine ⟨Int, inferInstance, Binary64.rank, ?_⟩
    rintro x y ⟨_, ⟨⟩, number⟩ ⟨_, ⟨⟩, number'⟩
    exact Binary64.compare?_of_number number number'
  | bool => exact ⟨Bool, inferInstance, id, fun _ _ => rfl⟩
  | text => exact ⟨String, inferInstance, id, fun _ _ => rfl⟩
  | foreign name => exact ⟨Unit, inferInstance, fun _ => (), fun ⟨_, shown, _⟩ _ => nomatch shown⟩
  | missing t ih =>
    obtain ⟨L, order, place, compared⟩ := ih
    refine ⟨WithBot L, inferInstance, fun x => x.elim ⊥ fun x => place x, fun {x y} ordered ordered' => ?_⟩
    cases x with
    | none =>
      cases y with
      | none => exact congrArg some (compare_eq_iff_eq.2 rfl).symm
      | some y => exact congrArg some (compare_lt_iff_lt.2 (WithBot.bot_lt_coe _)).symm
    | some x =>
      cases y with
      | none => exact congrArg some (compare_gt_iff_gt.2 (WithBot.bot_lt_coe _)).symm
      | some y =>
        have kept : cmp (place x : WithBot L) (place y) = cmp (place x) (place y) :=
          WithBot.coe_strictMono.cmp_map_eq _ _
        rw [cmp_eq_compare, cmp_eq_compare] at kept
        exact (compared ordered ordered').trans (congrArg some kept.symm)

end Cell

end Tabular
