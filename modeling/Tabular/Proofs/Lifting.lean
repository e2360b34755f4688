import Tabular.Cell.Lifted
import Tabular.Proofs.Absence
import Tabular.Proofs.Coherence

/-! Elements that may be missing and the scalars that show them. Operators are defined on both, on the elements by
their type and on the scalars by what they are, and they agree: an operation may be done before or after the
operands are shown. Integers of a width are shown as words of 64 bits, so that they have to be exact in their width. -/

namespace Tabular

open Number (Binary32 Binary64)

def Arithmetic.exact : Arithmetic → Int → Int → Int
  | add, a, b => a + b
  | sub, a, b => a - b
  | mul, a, b => a * b
  | div, a, b => a.tdiv b
  | rem, a, b => a.tmod b

namespace IntWidth

variable {w : IntWidth} {op : Arithmetic}

/-- The operation is exact in this width: its result fits, and it is no quotient or remainder by zero or of the
lowest integer by the one below zero. -/
structure Exact (w : IntWidth) (op : Arithmetic) (a b : w.Value) : Prop where
  low : w.lowest ≤ op.exact a.val b.val
  high : op.exact a.val b.val ≤ w.highest
  divides : op = .div ∨ op = .rem → b.val ≠ 0 ∧ ¬(a.val = w.lowest ∧ b.val = -1)

theorem wrap_of_fits {n : Int} (low : w.lowest ≤ n) (high : n ≤ w.highest) : w.wrap n = ⟨n, low, high⟩ :=
  w.wrap_val ⟨n, low, high⟩

theorem ofInt?_of_fits {n : Int} (low : w.lowest ≤ n) (high : n ≤ w.highest) :
    w.ofInt? n = some ⟨n, low, high⟩ :=
  dif_pos ⟨low, high⟩

theorem bounds (w : IntWidth) :
    0 < w.highest ∧ (w.lowest = -(w.highest + 1) ∨ w.signed = false ∧ w.lowest = 0) := by
  cases w <;> decide

theorem tdiv_fits (a b : w.Value) (nonzero : b.val ≠ 0) (apart : ¬(a.val = w.lowest ∧ b.val = -1)) :
    w.lowest ≤ a.val.tdiv b.val ∧ a.val.tdiv b.val ≤ w.highest := by
  obtain ⟨a, low, high⟩ := a
  obtain ⟨b, low', high'⟩ := b
  dsimp only at nonzero apart ⊢
  have smaller := Int.natAbs_tdiv_le_natAbs a b
  obtain ⟨positive, signed | ⟨-, unsigned⟩⟩ := w.bounds
  · -- A divisor of magnitude one keeps the dividend or turns it, and any other halves it at least.
    by_cases unit : b.natAbs = 1
    · rcases Int.natAbs_eq b with same | same <;> rw [unit] at same <;> subst same
      · rw [Int.natCast_one, Int.tdiv_one]
        exact ⟨low, high⟩
      · rw [Int.natCast_one, Int.tdiv_neg, Int.tdiv_one]
        rw [Int.natCast_one] at apart
        omega
    · have half : (a.tdiv b).natAbs ≤ a.natAbs / 2 := by
        rw [Int.natAbs_tdiv]
        exact Nat.div_le_div_left (by omega) two_pos
      omega
  · have nonneg : 0 ≤ a.tdiv b := Int.tdiv_nonneg (by omega) (by omega)
    omega

theorem arithmetic?_of_exact {a b : w.Value} (exact : w.Exact op a b) :
    w.arithmetic? op a b = some ⟨op.exact a.val b.val, exact.low, exact.high⟩ := by
  have fits := w.wrap_of_fits exact.low exact.high
  cases op with
  | div =>
    obtain ⟨nonzero, -⟩ := exact.divides (.inl rfl)
    rw [arithmetic?, if_neg nonzero]
    exact ofInt?_of_fits exact.low exact.high
  | rem =>
    obtain ⟨nonzero, apart⟩ := exact.divides (.inr rfl)
    obtain ⟨low, high⟩ := tdiv_fits a b nonzero apart
    rw [arithmetic?, ofInt?_of_fits low high, if_neg (by simp [nonzero])]
    exact congrArg some fits
  | _ => exact congrArg some fits

theorem within (n : w.Value) : Int64.minValue.toInt ≤ n.val ∧ n.val ≤ Int64.maxValue.toInt := by
  obtain ⟨n, low, high⟩ := n
  constructor
  · cases w <;> exact le_trans (by decide) low
  · cases w <;> exact le_trans high (by decide)

theorem onInts_ofInt (a b : w.Value) (nonzero : op = .div ∨ op = .rem → b.val ≠ 0) :
    op.onInts (.ofInt a.val) (.ofInt b.val) = .ok (.ofInt (op.exact a.val b.val)) := by
  have word (some : b.val ≠ 0) : Int64.ofInt b.val ≠ 0 := fun zero =>
    some (by rw [← toInt_ofInt b, zero]; rfl)
  cases op with
  | add => rw [Arithmetic.exact, Int64.ofInt_add]; rfl
  | sub => rw [Arithmetic.exact, Int64.ofInt_sub]; rfl
  | mul => rw [Arithmetic.exact, Int64.ofInt_mul]; rfl
  | div =>
    rw [Arithmetic.onInts, if_neg (word (nonzero (.inl rfl))), Arithmetic.exact,
      Int64.ofInt_tdiv (within a).1 (within a).2 (within b).1 (within b).2]
  | rem =>
    rw [Arithmetic.onInts, if_neg (word (nonzero (.inr rfl))), Arithmetic.exact,
      Int64.ofInt_tmod (within a).1 (within a).2 (within b).1 (within b).2]

theorem wrap_neg {n : w.Value} (signed : w.signed = true) (other : n.val ≠ w.lowest) :
    (w.wrap (-n.val)).val = -n.val := by
  obtain ⟨n, low, high⟩ := n
  dsimp only at other ⊢
  obtain ⟨-, lowest | ⟨unsigned, -⟩⟩ := w.bounds
  · rw [w.wrap_of_fits (by omega) (by omega)]
  · rw [signed] at unsigned
    cases unsigned

end IntWidth

namespace Number

namespace Binary32

theorem ofParts_fields (negative : Bool) {m : Nat} (fits : m < Format.single.signWeight) :
    (ofParts negative m).negative = negative ∧ (ofParts negative m).magnitude = m := by
  have weight : Format.single.signWeight = 2 ^ 31 := rfl
  rw [weight] at fits
  rw [Binary32.negative, magnitude, ofParts, weight, UInt32.toNat_ofNat']
  cases negative
  · simp only [Bool.false_eq_true, if_false, decide_eq_false_iff_not]
    omega
  · simp only [if_true, decide_eq_true_eq]
    omega

theorem convert_lt (word : Nat) : Format.convert .single .double word < Format.double.signWeight := by
  rw [Format.convert]
  split
  · exact (Format.encode_le_infinity ..).trans_lt (by decide)
  split
  · decide
  · have payload : word % (1 <<< (Format.single.fractionBits - 1)) < 2 ^ 22 := Nat.mod_lt _ (by decide)
    have weight : Format.double.signWeight = 2 ^ 63 := rfl
    have quiet : Format.double.quiet = 2047 * 2 ^ 52 + 2 ^ 51 := rfl
    have shift : Format.double.fractionBits - Format.single.fractionBits = 29 := rfl
    dsimp only
    rw [if_pos (by decide), Nat.shiftLeft_eq, weight, quiet, shift]
    omega

theorem widen_neg (x : Binary32) : x.neg.widen = x.widen.neg := by
  have opposite : x.neg.negative = !x.negative ∧ x.neg.magnitude = x.magnitude :=
    ofParts_fields _ (Nat.mod_lt x.bits.toNat (by decide))
  obtain ⟨sign, magnitude⟩ := Binary64.ofParts_fields x.negative (convert_lt x.magnitude)
  rw [widen, opposite.1, opposite.2, Binary64.neg, widen, sign, magnitude]

end Binary32

end Number

/-- Types whose elements are there and have scalar forms. -/
def CellType.plain : CellType → Bool
  | foreign _ => false
  | missing _ => false
  | _ => true

theorem Cell.exists_present {t : CellType} (plain : t.plain = true) (x : Cell t) :
    ∃ v, toScalar? t x = some v ∧ v ≠ .absent := by
  cases t with
  | foreign name => cases plain
  | missing t => cases plain
  | _ => exact ⟨_, rfl, nofun⟩

namespace Missing

variable {t : CellType}

abbrev Shows (t : CellType) (a : Missing t) (v : Scalar) : Prop := Cell.toScalar? (.missing t) a = some v

/-- What an operation on two elements gives is shown as what the operator makes of the scalars that show them. -/
def Agrees (t : CellType) (op : BinaryOp) (a b : Missing t) (result? : Option (Missing t)) : Prop :=
  ∃ u v c w, Shows t a u ∧ Shows t b v ∧ result? = some c ∧ Shows t c w ∧ op.apply u v = .ok w

def AgreesAlone (t : CellType) (op : UnaryOp) (a c : Missing t) : Prop :=
  ∃ u w, Shows t a u ∧ Shows t c w ∧ op.apply u = .ok w

theorem exists_shows (plain : t.plain = true) (a : Missing t) : ∃ v, Shows t a v := by
  cases a with
  | none => exact ⟨_, rfl⟩
  | some x =>
    obtain ⟨v, shown, -⟩ := Cell.exists_present plain x
    exact ⟨v, shown⟩

theorem agrees_of_none {op : BinaryOp} (strict : op.isComparison = false) (plain : t.plain = true) {a b : Missing t}
    (missing : a = none ∨ b = none) : Agrees t op a b (some none) := by
  obtain ⟨u, shown⟩ := exists_shows plain a
  obtain ⟨v, shown'⟩ := exists_shows plain b
  refine ⟨u, v, none, .absent, shown, shown', rfl, rfl, ?_⟩
  rcases missing with rfl | rfl
  · cases shown
    cases op <;> first | rfl | cases strict
  · cases shown'
    cases op <;> cases u <;> first | rfl | cases strict

theorem agrees_arithmetic_float64 (op : Arithmetic) (a b : Missing .float64) :
    Agrees .float64 (.arithmetic op) a b (arithmetic? .float64 op a b) := by
  cases a with
  | none => exact agrees_of_none rfl rfl (.inl rfl)
  | some x =>
    cases b with
    | none => exact agrees_of_none rfl rfl (.inr rfl)
    | some y => cases op <;> exact ⟨_, _, _, _, rfl, rfl, rfl, rfl, rfl⟩

theorem agrees_arithmetic_int {w : IntWidth} {op : Arithmetic} {a b : Missing (.int w)}
    (exact : ∀ x ∈ a, ∀ y ∈ b, w.Exact op x y) :
    Agrees (.int w) (.arithmetic op) a b (arithmetic? (.int w) op a b) := by
  cases a with
  | none => exact agrees_of_none rfl rfl (.inl rfl)
  | some x =>
    cases b with
    | none => exact agrees_of_none rfl rfl (.inr rfl)
    | some y =>
      have here : w.Exact op x y := exact x rfl y rfl
      have result : arithmetic? (.int w) op (some x) (some y) =
          some (some ⟨op.exact x.val y.val, here.low, here.high⟩) := by
        show (w.arithmetic? op x y).map some = _
        rw [IntWidth.arithmetic?_of_exact here]
        rfl
      refine ⟨_, _, _, _, rfl, rfl, result, rfl, ?_⟩
      rw [BinaryOp.apply, Arithmetic.apply, IntWidth.onInts_ofInt x y fun divides => (here.divides divides).1]
      rfl

theorem agreesAlone_negate_int {w : IntWidth} (signed : w.signed = true) {a : Missing (.int w)}
    (other : ∀ x ∈ a, x.val ≠ w.lowest) : AgreesAlone (.int w) .neg a (negate (.int w) a) := by
  cases a with
  | none => exact ⟨_, _, rfl, rfl, rfl⟩
  | some x =>
    refine ⟨_, _, rfl, rfl, ?_⟩
    show _ = Except.ok (Scalar.int64 (.ofInt (w.wrap (-x.val)).val))
    rw [IntWidth.wrap_neg signed (other x rfl), Int64.ofInt_neg]
    rfl

theorem agreesAlone_negate_float32 (a : Missing .float32) :
    AgreesAlone .float32 .neg a (negate .float32 a) := by
  cases a with
  | none => exact ⟨_, _, rfl, rfl, rfl⟩
  | some x =>
    refine ⟨_, _, rfl, rfl, ?_⟩
    show _ = Except.ok (Scalar.float64 x.neg.widen)
    rw [Binary32.widen_neg]
    rfl

theorem agreesAlone_negate_float64 (a : Missing .float64) :
    AgreesAlone .float64 .neg a (negate .float64 a) := by
  cases a <;> exact ⟨_, _, rfl, rfl, rfl⟩

theorem agrees_connective (op : Connective) (a b : Missing .bool) :
    Agrees .bool (.connective op) a b (some (connective op a b)) := by
  cases a with
  | none => cases op <;> exact agrees_of_none rfl rfl (.inl rfl)
  | some x =>
    cases b with
    | none => cases op <;> exact agrees_of_none rfl rfl (.inr rfl)
    | some y => cases op <;> exact ⟨_, _, _, _, rfl, rfl, rfl, rfl, rfl⟩

theorem agreesAlone_complement (a : Missing .bool) : AgreesAlone .bool .not a (complement a) := by
  cases a <;> exact ⟨_, _, rfl, rfl, rfl⟩

theorem relate_of_shows (plain : t.plain = true) {a b : Missing t} {u v : Scalar} (shown : Shows t a u)
    (shown' : Shows t b v) : u.relate v = some (Cell.compare? (.missing t) a b) := by
  have present {x : Cell t} {v : Scalar} (shown : Cell.toScalar? t x = some v) : v ≠ .absent := by
    obtain ⟨_, same, present⟩ := Cell.exists_present plain x
    cases shown.symm.trans same
    exact present
  cases a with
  | none =>
    cases shown
    cases b with
    | none =>
      cases shown'
      rfl
    | some y => cases v <;> first | rfl | exact absurd rfl (present shown')
  | some x =>
    cases b with
    | none =>
      cases shown'
      cases u <;> first | rfl | exact absurd rfl (present shown)
    | some y =>
      have single : t.allowsMissing = false := by
        cases t <;> first | rfl | cases plain
      exact Cell.relate_of_toScalar? single shown shown'

/-- What was defined twice agrees. On doubles every arithmetic operation of elements that may be missing is that of
the scalars that show them, and on integers it is so wherever it is exact in their width or an operand is missing; so
are opposites, except that of the lowest integer, and the connectives of truth values. Elements of a type with an order
are less, equal, greater or without order as the comparisons of the scalars say. -/
theorem lifting_agrees :
    (∀ op (a b : Missing .float64), Agrees .float64 (.arithmetic op) a b (arithmetic? .float64 op a b)) ∧
    (∀ w op (a b : Missing (.int w)), (∀ x ∈ a, ∀ y ∈ b, w.Exact op x y) →
      Agrees (.int w) (.arithmetic op) a b (arithmetic? (.int w) op a b)) ∧
    (∀ w (a : Missing (.int w)), w.signed = true → (∀ x ∈ a, x.val ≠ w.lowest) →
      AgreesAlone (.int w) .neg a (negate (.int w) a)) ∧
    (∀ a : Missing .float32, AgreesAlone .float32 .neg a (negate .float32 a)) ∧
    (∀ a : Missing .float64, AgreesAlone .float64 .neg a (negate .float64 a)) ∧
    (∀ op (a b : Missing .bool), Agrees .bool (.connective op) a b (some (connective op a b))) ∧
    (∀ a : Missing .bool, AgreesAlone .bool .not a (complement a)) ∧
    ∀ t : CellType, t.plain = true → ∀ a b : Missing t, ∃ u v, Shows t a u ∧ Shows t b v ∧
      (BinaryOp.comparison .lt).apply u v = .ok (.bool (Cell.compare? (.missing t) a b == some .lt)) ∧
      (BinaryOp.comparison .eq).apply u v = .ok (.bool (Cell.compare? (.missing t) a b == some .eq)) ∧
      (BinaryOp.comparison .gt).apply u v = .ok (.bool (Cell.compare? (.missing t) a b == some .gt)) := by
  refine ⟨agrees_arithmetic_float64, fun _ _ _ _ => agrees_arithmetic_int,
    fun _ _ signed other => agreesAlone_negate_int signed other, agreesAlone_negate_float32,
    agreesAlone_negate_float64, agrees_connective, agreesAlone_complement, fun t plain a b => ?_⟩
  obtain ⟨u, shown⟩ := exists_shows plain a
  obtain ⟨v, shown'⟩ := exists_shows plain b
  have compared := Scalar.comparison_of_relate (relate_of_shows plain shown shown')
  exact ⟨u, v, shown, shown', compared .lt, compared .eq, compared .gt⟩

theorem lifting_agrees_lowest :
    IntWidth.Exact .i8 .div ⟨-128, by decide⟩ ⟨2, by decide⟩ ∧
    Agrees (.int .i8) (.arithmetic .div) (some ⟨-128, by decide⟩) (some ⟨2, by decide⟩)
      (some (some ⟨-64, by decide⟩)) ∧
    AgreesAlone (.int .i8) .neg (some ⟨-127, by decide⟩) (some ⟨127, by decide⟩) ∧
    ∃ u v, Shows .float64 none u ∧ Shows .float64 (some .nan) v ∧
      (BinaryOp.comparison .lt).apply u v = .ok (.bool true) := by
  have exact : IntWidth.Exact .i8 .div ⟨-128, by decide⟩ ⟨2, by decide⟩ :=
    ⟨by decide, by decide, fun _ => by decide⟩
  obtain ⟨-, ints, opposites, -, -, -, -, orders⟩ := lifting_agrees
  obtain ⟨u, v, shown, shown', less, -⟩ := orders .float64 rfl none (some .nan)
  refine ⟨exact, ints .i8 .div _ _ ?_, opposites .i8 _ rfl ?_, u, v, shown, shown', less⟩
  · rintro _ ⟨⟩ _ ⟨⟩
    exact exact
  · rintro _ ⟨⟩
    decide

end Missing

end Tabular
