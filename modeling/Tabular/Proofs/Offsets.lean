import Mathlib.Algebra.Order.Ring.Int
import Tabular.Proofs.Windows

/-! Columns read at an offset. The row that is read is found in words, where a sum can wrap and the greatest
offsets fall short of the greatest distances; it is nevertheless the row at that distance among all integers, and
where there is none the column yields the value of its type. So every row that is read is there. -/

namespace Tabular

section Words

/-- The sum of a word and a signed word, unless it is no word. The words wrap just when the sum is to go back. -/
def addSigned? (a : UInt64) (b : Int64) : Option UInt64 :=
  if a + b.toUInt64 < a ↔ b < 0 then some (a + b.toUInt64) else none

theorem toNat_toUInt64 (b : Int64) :
    (b.toUInt64.toNat : Int) = if b.toInt < 0 then b.toInt + 2 ^ 64 else b.toInt := by
  have read : b.toInt = (b.toUInt64.toNat : Int).bmod (2 ^ 64) := by
    rw [← Int64.toInt_toBitVec, BitVec.toInt_eq_toNat_bmod]
    rfl
  have below := b.toUInt64.toNat_lt
  rw [read, Int.bmod_def]
  omega

theorem addSigned?_eq_some_iff {a sum : UInt64} {b : Int64} :
    addSigned? a b = some sum ↔ (sum.toNat : Int) = a.toNat + b.toInt := by
  have word := toNat_toUInt64 b
  have inside := a.toNat_lt
  have inside' := sum.toNat_lt
  have high := b.toInt_lt
  have low := b.le_toInt
  have total := UInt64.toNat_add a b.toUInt64
  rw [addSigned?, Option.ite_none_right_eq_some, UInt64.lt_iff_toNat_lt, Int64.lt_iff_toInt_lt,
    Int64.toInt_zero, Option.some.injEq, ← UInt64.toNat_inj]
  split at word
  · omega
  · omega

def lagOffset (k : UInt64) : Int64 :=
  if k ≤ Int64.maxValue.toUInt64 then -k.toInt64 else Int64.minValue

def leadOffset (k : UInt64) : Int64 :=
  if k ≤ Int64.maxValue.toUInt64 then k.toInt64 else Int64.maxValue

theorem le_maxValue_iff {k : UInt64} :
    k ≤ Int64.maxValue.toUInt64 ↔ (k.toNat : Int) ≤ Int64.maxValue.toInt := by
  rw [UInt64.le_iff_toNat_le, ← Int.ofNat_le]
  rfl

theorem toInt_toInt64 {k : UInt64} (fits : k ≤ Int64.maxValue.toUInt64) : k.toInt64.toInt = k.toNat := by
  have below : k.toNat < 2 ^ 63 := Nat.lt_succ_of_le (UInt64.le_iff_toNat_le.1 fits)
  have word := toNat_toUInt64 k.toInt64
  have low := k.toInt64.le_toInt
  rw [UInt64.toUInt64_toInt64] at word
  split at word
  · omega
  · omega

end Words

namespace Window

theorem target?_eq_some_iff {w : Window} {offset : Int} {row : Nat} :
    w.target? offset = some row ↔ (row : Int) = w.current + offset ∧ w.first ≤ row ∧ row < w.last := by
  simp only [target?, Option.ite_none_right_eq_some, Option.some.injEq]
  omega

theorem target?_eq_none_iff {w : Window} {offset : Int} :
    w.target? offset = none ↔ w.current + offset < w.first ∨ w.last ≤ w.current + offset := by
  simp only [target?, ite_eq_right_iff, reduceCtorEq, imp_false]
  omega

def wordTarget? (first current last : UInt64) (offset : Int64) : Option UInt64 :=
  (addSigned? current offset).filter fun target => first ≤ target ∧ target < last

theorem toNat_wordTarget? (w : Window) (fits : w.last < 2 ^ 64) (offset : Int64) :
    (wordTarget? (.ofNat w.first) (.ofNat w.current) (.ofNat w.last) offset).map UInt64.toNat =
      w.target? offset.toInt := by
  have start := w.first_le
  have below := w.lt_last
  have word {i : Nat} (inside : i < 2 ^ 64) : (UInt64.ofNat i).toNat = i := UInt64.toNat_ofNat_of_lt' inside
  have first := word (Nat.lt_of_le_of_lt start (Nat.lt_trans below fits))
  have current := word (Nat.lt_trans below fits)
  ext row
  simp only [wordTarget?, Option.map_eq_some_iff, Option.filter_eq_some_iff, addSigned?_eq_some_iff,
    decide_eq_true_eq, UInt64.le_iff_toNat_le, UInt64.lt_iff_toNat_lt, first, current, word fits,
    target?_eq_some_iff]
  constructor
  · rintro ⟨target, ⟨sum, seen⟩, rfl⟩
    exact ⟨sum, seen⟩
  · rintro ⟨sum, seen⟩
    have place := word (Nat.lt_trans seen.2 fits)
    exact ⟨.ofNat row, by rw [place]; exact ⟨sum, seen⟩, place⟩

end Window

/-- What an element type yields where there is no row: what stands for nothing in it. -/
def CellType.boundary : CellType → Scalar
  | int _ => .int64 0
  | float32 => .float64 .zero
  | float64 => .float64 .zero
  | bool => .bool false
  | text => .utf8 ""
  | foreign _ => .absent
  | missing _ => .absent

namespace Column

theorem beyond_eq (c : Column) : c.beyond = c.type.boundary := by
  obtain ⟨t, s⟩ := c
  cases t <;> rfl

/-- What a column yields at a place, of which only some are rows. -/
def yieldAt (c : Column) (place : Int) : Except Error Scalar :=
  if 0 ≤ place ∧ place < c.length then c.scalarAt place.toNat else .ok c.type.boundary

theorem yieldAt_of_outside (c : Column) {place : Int} (outside : place < 0 ∨ c.length ≤ place) :
    c.yieldAt place = .ok c.type.boundary := by
  rw [yieldAt, if_neg (by omega)]

end Column

def Error.Misplaced : Error → Prop
  | indexOutOfRange _ _ => True
  | malformedWindow _ _ _ => True
  | _ => False

/-- A computation that names only rows that are there. -/
def Placed {α : Type} (x : Except Error α) : Prop := ∀ err, x = .error err → ¬err.Misplaced

namespace Placed

variable {α β : Type}

@[simp] theorem ok (a : α) : Placed (.ok a) := fun _ refused => nomatch refused

@[simp] theorem error_iff {e : Error} : Placed (.error e : Except Error α) ↔ ¬e.Misplaced :=
  ⟨fun placed => placed e rfl, fun fair _ refused => Except.error.inj refused ▸ fair⟩

theorem map {x : Except Error α} (placed : Placed x) (f : α → β) : Placed (x.map f) :=
  fun err refused => placed err (map_eq_error_iff.1 refused)

theorem bind {x : Except Error α} {f : α → Except Error β} (first : Placed x) (next : ∀ a, Placed (f a)) :
    Placed (x >>= f) := by
  cases x with
  | error e => exact error_iff.2 (error_iff.1 first)
  | ok a => exact next a

theorem mapM {f : α → Except Error β} {as : List α} (each : ∀ a ∈ as, Placed (f a)) : Placed (as.mapM f) := by
  induction as with
  | nil => exact ok []
  | cons a as ih =>
    obtain ⟨first, rest⟩ := List.forall_mem_cons.1 each
    rw [List.mapM_cons]
    exact first.bind fun _ => (ih rest).bind fun _ => ok _

end Placed

section Operators

/-! No operator knows where its operands come from. -/

theorem UnaryOp.placed_apply (op : UnaryOp) (v : Scalar) : Placed (op.apply v) := by
  cases op <;> cases v <;> simp [apply, Error.Misplaced]

theorem Arithmetic.placed_onInts (op : Arithmetic) (a b : Int64) : Placed (op.onInts a b) := by
  cases op with
  | add => exact .ok _
  | sub => exact .ok _
  | mul => exact .ok _
  | div => by_cases zero : b = 0 <;> simp [onInts, zero, Error.Misplaced]
  | rem => by_cases zero : b = 0 <;> simp [onInts, zero, Error.Misplaced]

theorem Arithmetic.placed_apply (op : Arithmetic) (l r : Scalar) : Placed (op.apply l r) := by
  unfold apply
  split
  case h_3 a b => exact (op.placed_onInts a b).map _
  case h_7 => split <;> simp [Error.Misplaced]
  all_goals simp [Error.Misplaced]

theorem Comparison.placed_apply (op : Comparison) (l r : Scalar) : Placed (op.apply l r) := by
  unfold apply
  split <;> simp [Error.Misplaced]

theorem Connective.placed_apply (op : Connective) (l r : Scalar) : Placed (op.apply l r) := by
  unfold apply
  split <;> simp [Error.Misplaced]

theorem BinaryOp.placed_apply (op : BinaryOp) (l r : Scalar) : Placed (op.apply l r) := by
  cases op with
  | arithmetic op => exact op.placed_apply l r
  | comparison op => exact op.placed_apply l r
  | connective op => exact op.placed_apply l r

end Operators

theorem Column.placed_scalarAt {c : Column} {row : Nat} (inside : row < c.length) : Placed (c.scalarAt row) := by
  rw [scalarAt_of_getElem? (List.getElem?_eq_getElem inside), Cell.toScalar]
  split
  · exact .ok _
  · rintro err ⟨⟩
    exact id

namespace Expr

open Tabular.Frame (HasRows)

theorem lag_eq (index : Nat) (k : UInt64) : lag index k.toNat = column index (lagOffset k).toInt := by
  rw [lag, lagOffset]
  by_cases fits : k ≤ Int64.maxValue.toUInt64
  · have below := le_maxValue_iff.1 fits
    have same : (-k.toInt64).toInt = -k.toNat := by
      rw [Int64.toInt_neg, toInt_toInt64 fits, Int.bmod_def]
      rw [Int64.toInt_maxValue] at below
      omega
    rw [if_pos fits, if_pos below, same]
  · rw [if_neg fits, if_neg (mt le_maxValue_iff.2 fits)]

theorem lead_eq (index : Nat) (k : UInt64) : lead index k.toNat = column index (leadOffset k).toInt := by
  rw [lead, leadOffset]
  by_cases fits : k ≤ Int64.maxValue.toUInt64
  · rw [if_pos fits, Int.min_eq_left (le_maxValue_iff.1 fits), toInt_toInt64 fits]
  · rw [if_neg fits, Int.min_eq_right (Int.not_lt.1 fun near => fits (le_maxValue_iff.2 (Int.le_of_lt near)))]

section Reading

variable {f : Frame} {n index : Nat} {c : Column}

theorem readColumn_eq (found : f.column index = .ok c) {w : Window} (start : w.first = 0) (stop : w.last = c.length)
    (offset : Int) : readColumn f w index offset = c.yieldAt (w.current + offset) := by
  rw [readColumn, found, ok_bind, Column.yieldAt]
  cases there : w.target? offset with
  | some row =>
    obtain ⟨place, -, below⟩ := Window.target?_eq_some_iff.1 there
    rw [if_pos (by omega), ← place, Int.toNat_natCast]
  | none =>
    have outside := Window.target?_eq_none_iff.1 there
    rw [if_neg (by omega), c.beyond_eq]
    rfl

theorem apply_column (sized : f.size = .ok n) (found : f.column index = .ok c) (offset : Int) :
    (column index offset).apply f = (List.range n).mapM fun row : Nat => c.yieldAt (row + offset) := by
  have long : c.length = n := (Frame.size_eq_ok_iff.1 sized).length c (Frame.mem_of_column found)
  rw [apply_eq sized]
  refine mapM_congr fun row mem => ?_
  rw [Window.of_zero (List.mem_range.1 mem), ok_bind, evaluate]
  exact readColumn_eq found rfl long.symm offset

/-- No frame is as long as a lag that is cut short: the offset leaves the frame as the distance does. -/
theorem apply_lag (sized : f.size = .ok n) (small : n < 2 ^ 63) (found : f.column index = .ok c) (k : Nat) :
    (lag index k).apply f = (List.range n).mapM fun row : Nat => c.yieldAt (row + -k) := by
  rw [lag, apply_column sized found]
  refine mapM_congr fun row mem => ?_
  have below := List.mem_range.1 mem
  split
  · rfl
  · next far =>
    rw [Int64.toInt_maxValue] at far
    rw [Int64.toInt_minValue, c.yieldAt_of_outside (.inl (by omega)), c.yieldAt_of_outside (.inl (by omega))]

theorem apply_lead (sized : f.size = .ok n) (small : n < 2 ^ 63) (found : f.column index = .ok c) (k : Nat) :
    (lead index k).apply f = (List.range n).mapM fun row : Nat => c.yieldAt (row + k) := by
  have long : c.length = n := (Frame.size_eq_ok_iff.1 sized).length c (Frame.mem_of_column found)
  rw [lead, apply_column sized found]
  refine mapM_congr fun row mem => ?_
  rcases Int.le_total k Int64.maxValue.toInt with near | far
  · rw [Int.min_eq_left near]
  · rw [Int.min_eq_right far]
    rw [Int64.toInt_maxValue] at far ⊢
    have below := List.mem_range.1 mem
    rw [c.yieldAt_of_outside (.inr (by omega)), c.yieldAt_of_outside (.inr (by omega))]

end Reading

/-- Where each cell so many rows on has a scalar, the values are these scalars, and where there is no row so many
rows on they are what the type of the column yields. -/
def Shifts (e : Expr) (f : Frame) (c : Column) (n : Nat) (shift : Int) : Prop :=
  (∀ row < n, ∀ place < n, (place : Int) = row + shift → ∃ v, c.scalarAt place = .ok v) →
    ∃ values, e.apply f = .ok values ∧ values.length = n ∧ ∀ row < n, ∃ v, values[row]? = some v ∧
      if 0 ≤ row + shift ∧ row + shift < n then c.scalarAt (row + shift).toNat = .ok v else v = c.type.boundary

theorem shifts_of_apply {e : Expr} {f : Frame} {c : Column} {n : Nat} {shift : Int} (long : c.length = n)
    (applied : e.apply f = (List.range n).mapM fun row : Nat => c.yieldAt (row + shift)) : e.Shifts f c n shift := by
  intro readable
  have each : ∀ row ∈ List.range n, ∃ v, c.yieldAt ((row : Int) + shift) = .ok v := by
    intro row mem
    by_cases inside : 0 ≤ (row : Int) + shift ∧ (row : Int) + shift < n
    · have place : ((row + shift : Int).toNat : Int) = row + shift := Int.toNat_of_nonneg inside.1
      rw [Column.yieldAt, long, if_pos inside]
      exact readable row (List.mem_range.1 mem) _ (by omega) place
    · exact ⟨_, c.yieldAt_of_outside (by omega)⟩
  obtain ⟨values, made⟩ := exists_mapM_iff.2 each
  have counted : values.length = n := (length_mapM made).trans List.length_range
  refine ⟨values, applied.trans made, counted, fun row below => ?_⟩
  have there := List.getElem?_eq_getElem (show row < values.length by rwa [counted])
  refine ⟨_, there, ?_⟩
  obtain ⟨_, place, yielded⟩ := exists_of_getElem?_mapM made there
  obtain ⟨_, rfl⟩ := List.getElem?_eq_some_iff.1 place
  rw [List.getElem_range, Column.yieldAt, long] at yielded
  split at yielded
  · next inside => rwa [if_pos inside]
  · next outside =>
    rw [if_neg outside]
    exact (Except.ok.inj yielded).symm

def CallFree : Expr → Prop
  | constant _ => True
  | column _ _ => True
  | unary _ operand => operand.CallFree
  | binary _ left right => left.CallFree ∧ right.CallFree
  | call _ _ _ => False
  | rowNumber => True
  | frameLength => True

section Placement

variable {f : Frame} {n : Nat} {w : Window}

theorem placed_readColumn (has : HasRows f.columns n) (inside : w.last ≤ n) (index : Nat) (offset : Int) :
    Placed (readColumn f w index offset) := by
  rw [readColumn]
  cases found : f.column index with
  | error e =>
    rw [Frame.column] at found
    split at found
    · cases found
    · cases found
      exact Placed.error_iff.2 id
  | ok c =>
    have long := has.length c (Frame.mem_of_column found)
    rw [ok_bind]
    cases there : w.target? offset with
    | none => exact .ok _
    | some row => exact Column.placed_scalarAt (by have := Window.target?_bounds there; omega)

theorem placed_evaluate (has : HasRows f.columns n) (inside : w.last ≤ n) :
    ∀ e : Expr, e.CallFree → Placed (evaluate f w e)
  | constant _, _ => by simp only [evaluate, Placed.ok]
  | column index offset, _ => by
    simp only [evaluate]
    exact placed_readColumn has inside index offset
  | unary op operand, free => by
    simp only [evaluate]
    exact (placed_evaluate has inside operand free).bind op.placed_apply
  | binary op left right, free => by
    simp only [evaluate]
    exact (placed_evaluate has inside left free.1).bind fun l =>
      (placed_evaluate has inside right free.2).bind (op.placed_apply l)
  | rowNumber, _ => by simp only [evaluate, Placed.ok]
  | frameLength, _ => by simp only [evaluate, Placed.ok]

theorem placed_apply (sized : f.size = .ok n) {e : Expr} (free : e.CallFree) : Placed (e.apply f) := by
  rw [apply_eq sized]
  refine Placed.mapM fun row mem => ?_
  rw [Window.of_zero (List.mem_range.1 mem)]
  exact placed_evaluate (Frame.size_eq_ok_iff.1 sized) (Nat.le_refl n) e free

end Placement

/-- Shifted columns are read where exact arithmetic says. The row at an offset is found in words as among all
integers. A column at an offset of 64 bits yields, for each row, the cell that many rows on, and beyond the ends
what its type yields there; and so do lags and leads of every length, also of those that offsets cannot express.
An expression without calls never names a row, or a window, that is not there. -/
theorem shifts_exact {f : Frame} {n : Nat} (sized : f.size = .ok n) (small : n < 2 ^ 63) :
    (∀ w : Window, w.last ≤ n → ∀ offset : Int64,
      (Window.wordTarget? (.ofNat w.first) (.ofNat w.current) (.ofNat w.last) offset).map UInt64.toNat =
        w.target? offset.toInt) ∧
    (∀ index c, f.column index = .ok c →
      (∀ offset : Int64, (column index offset.toInt).Shifts f c n offset.toInt) ∧
      ∀ k : UInt64,
        (lag index k.toNat = column index (lagOffset k).toInt ∧ (lag index k.toNat).Shifts f c n (-k.toNat)) ∧
        lead index k.toNat = column index (leadOffset k).toInt ∧ (lead index k.toNat).Shifts f c n k.toNat) ∧
    ∀ e : Expr, e.CallFree → ∀ err, e.apply f = .error err →
      (∀ i length, err ≠ .indexOutOfRange i length) ∧
        ∀ first current last, err ≠ .malformedWindow first current last := by
  refine ⟨fun w inside offset => w.toNat_wordTarget? (by omega) offset, fun index c found => ?_,
    fun e free err refused => ?_⟩
  · have long : c.length = n := (Frame.size_eq_ok_iff.1 sized).length c (Frame.mem_of_column found)
    refine ⟨fun offset => shifts_of_apply long (apply_column sized found _), fun k => ⟨⟨lag_eq index k, ?_⟩,
      lead_eq index k, ?_⟩⟩
    · exact shifts_of_apply long (apply_lag sized small found _)
    · exact shifts_of_apply long (apply_lead sized small found _)
  · have fair := placed_apply sized free err refused
    constructor
    · rintro i length rfl
      exact fair trivial
    · rintro first current last rfl
      exact fair trivial

private def gates : Frame :=
  ⟨[.ofList (.missing .bool) "open" [some true, none, some false],
    .ofList (.foreign "Badge") "badge" [7, 8, 9]], none⟩

theorem shifts_exact_gates :
    gates.size = .ok 3 ∧ 3 < 2 ^ 63 ∧
    (∃ values, (lead 0 1).apply gates = .ok values ∧ values.length = 3 ∧
      values[1]? = some (.bool false) ∧ values[2]? = some .absent) ∧
    (∃ values, (lag 1 18446744073709551615).apply gates = .ok values ∧ values.length = 3 ∧
      ∀ row < 3, values[row]? = some .absent) ∧
    (col 1).apply gates = .error (.noScalarForm (.foreign "Badge")) := by
  have sized : gates.size = .ok 3 := rfl
  obtain ⟨-, shifts, -⟩ := shifts_exact sized (by decide)
  obtain ⟨values, applied, counted, each⟩ := ((shifts 0 _ rfl).2 1).2.2 fun _ _ place below _ =>
    match place, below with
    | 0, _ => ⟨_, rfl⟩
    | 1, _ => ⟨_, rfl⟩
    | 2, _ => ⟨_, rfl⟩
  obtain ⟨values', applied', counted', each'⟩ := ((shifts 1 _ rfl).2 18446744073709551615).1.2
    fun row below place _ moved => by
      have far : (UInt64.toNat 18446744073709551615 : Int) = 18446744073709551615 := rfl
      omega
  refine ⟨sized, by decide, ⟨values, applied, counted, ?_, ?_⟩, ⟨values', applied', counted', fun row below => ?_⟩,
    rfl⟩
  · obtain ⟨v, there, shown⟩ := each 1 (by decide)
    rw [if_pos (by decide)] at shown
    cases shown
    exact there
  · obtain ⟨v, there, shown⟩ := each 2 (by decide)
    rw [if_neg (by decide)] at shown
    rwa [shown] at there
  · obtain ⟨v, there, shown⟩ := each' row below
    have far : (UInt64.toNat 18446744073709551615 : Int) = 18446744073709551615 := rfl
    rw [if_neg (by omega)] at shown
    rwa [shown] at there

end Expr

end Tabular
