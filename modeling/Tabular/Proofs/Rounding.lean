import Mathlib.Algebra.Order.Field.Power
import Mathlib.Algebra.Order.Ring.Rat
import Mathlib.Tactic.Linarith
import Mathlib.Tactic.Ring
import Tabular.Number.Binary64

/-! The numbers that words stand for, and how near they come to the numbers they are made of. A word is found
by rounding to a whole number of last places; the multiples of a last place are all numbers of a format from the
leading bit of the rounded number on, and any number below that bit is farther off than the bit itself. -/

namespace Tabular.Number

theorem roundDiv_le (n d : Nat) : roundDiv n d ≤ n / d + 1 := by
  simp only [roundDiv]
  split <;> omega

theorem div_le_roundDiv (n d : Nat) : n / d ≤ roundDiv n d := by
  simp only [roundDiv]
  split <;> omega

theorem roundDiv_remainder (n : Nat) {d : Nat} (positive : 0 < d) :
    2 * |(n : Int) - roundDiv n d * d| ≤ d ∧
      (2 * |(n : Int) - roundDiv n d * d| = d → roundDiv n d % 2 = 0) := by
  have whole : (n : Int) = (n / d : Nat) * d + (n % d : Nat) := by exact_mod_cast (Nat.div_add_mod' n d).symm
  have below : n % d < d := Nat.mod_lt n positive
  simp only [roundDiv]
  split
  · have left : (n : Int) - (n / d + 1 : Nat) * d = -((d : Int) - (n % d : Nat)) := by
      rw [Nat.cast_succ, Int.add_mul]
      omega
    rw [left, abs_neg, abs_of_nonneg (by omega)]
    omega
  · have left : (n : Int) - (n / d : Nat) * d = (n % d : Nat) := by omega
    rw [left, abs_of_nonneg (by omega)]
    omega

/-- A number of units that no other one comes nearer to `x` than; of two that are equally near it is the even
one. -/
structure NearestMultiple (x unit : ℚ) (s : Nat) : Prop where
  near : ∀ k : Nat, |x - s * unit| ≤ |x - k * unit|
  even : ∀ k : Nat, |x - k * unit| = |x - s * unit| → k = s ∨ s % 2 = 0

/-- Two multiples of a unit are a unit apart, so that one within half a unit is the nearest. -/
theorem NearestMultiple.of_half {x unit : ℚ} {s : Nat} (half : 2 * |x - s * unit| ≤ unit)
    (tie : 2 * |x - s * unit| = unit → s % 2 = 0) : NearestMultiple x unit s := by
  have apart : ∀ k : Nat, k ≠ s → unit ≤ |x - s * unit| + |x - k * unit| := by
    intro k other
    have positive : 0 ≤ unit := le_trans (by positivity) half
    have step : (1 : ℚ) ≤ |(k : ℚ) - s| := by
      exact_mod_cast Int.one_le_abs (sub_ne_zero.2 (Int.ofNat_inj.not.2 other))
    calc unit ≤ |(k : ℚ) - s| * unit := le_mul_of_one_le_left positive step
      _ = |(x - s * unit) - (x - k * unit)| := by
        rw [← abs_of_nonneg positive, ← abs_mul, abs_of_nonneg positive]
        ring_nf
      _ ≤ |x - s * unit| + |x - k * unit| := abs_sub _ _
  constructor
  · intro k
    by_cases same : k = s
    · rw [same]
    · linarith [apart k same]
  · intro k equal
    by_cases same : k = s
    · exact .inl same
    · exact .inr (tie (by linarith [apart k same]))

theorem two_zpow_pos (e : Int) : (0 : ℚ) < 2 ^ e := zpow_pos two_pos e

theorem mul_two_zpow (m : Nat) {p e : Int} (below : p ≤ e) :
    (m : ℚ) * 2 ^ e = (m * 2 ^ (e - p).toNat : Nat) * 2 ^ p := by
  have split : e = (e - p).toNat + p := by omega
  rw [Nat.cast_mul, Nat.cast_pow, Nat.cast_ofNat, mul_assoc, ← zpow_natCast, ← zpow_add₀ two_ne_zero, ← split]

namespace Format

variable (f : Format)

/-- The number that a finite magnitude word stands for. -/
def value (word : Nat) : ℚ := (f.decode word).significand * 2 ^ (f.decode word).exponent

def place (m : Nat) (e : Int) : Int := max f.minExponent (m.log2 + e - f.fractionBits)

/-- The number of last places nearest to `m * 2 ^ e`. -/
def places (m : Nat) (e : Int) : Nat :=
  if f.place m e ≤ e then m <<< (e - f.place m e).toNat else roundDiv m (1 <<< (f.place m e - e).toNat)

theorem encode_eq {m : Nat} (some : m ≠ 0) (e : Int) :
    f.encode m e =
      min f.infinity (((f.place m e - f.minExponent).toNat <<< f.fractionBits) + f.places m e) := by
  rw [encode, if_neg some]
  rfl

theorem nearest_places (m : Nat) (e : Int) :
    NearestMultiple (m * 2 ^ e) (2 ^ f.place m e) (f.places m e) := by
  have positive := two_zpow_pos (f.place m e)
  rw [places]
  split
  · next low =>
    have exact : (m : ℚ) * 2 ^ e - (m <<< (e - f.place m e).toNat : Nat) * 2 ^ f.place m e = 0 := by
      rw [Nat.shiftLeft_eq, ← mul_two_zpow m low, sub_self]
    refine .of_half ?_ ?_
    · rw [exact, abs_zero, mul_zero]
      exact positive.le
    · rw [exact, abs_zero, mul_zero]
      intro none
      exact absurd none positive.ne
  · next high =>
    rw [Nat.one_shiftLeft]
    generalize length : (f.place m e - e).toNat = l
    have unit : (2 : ℚ) ^ f.place m e = (2 ^ l : Nat) * 2 ^ e := by
      rw [← Nat.one_mul (2 ^ l), ← length, ← mul_two_zpow 1 (not_le.1 high).le, Nat.cast_one, one_mul]
    obtain ⟨half, tie⟩ := roundDiv_remainder m (Nat.two_pow_pos l)
    have error : 2 * |(m : ℚ) * 2 ^ e - roundDiv m (2 ^ l) * 2 ^ f.place m e| =
        ((2 * |(m : Int) - roundDiv m (2 ^ l) * (2 ^ l : Nat)| : Int) : ℚ) * 2 ^ e := by
      rw [unit, ← mul_assoc, ← sub_mul, abs_mul, abs_of_pos (two_zpow_pos e), ← mul_assoc]
      push_cast
      rfl
    refine .of_half ?_ ?_
    · rw [error, unit]
      exact mul_le_mul_of_nonneg_right (by exact_mod_cast half) (two_zpow_pos e).le
    · rw [error, unit]
      intro same
      exact tie (by exact_mod_cast mul_right_cancel₀ (two_zpow_pos e).ne' same)

theorem places_le (m : Nat) (e : Int) : f.places m e ≤ 2 ^ (f.fractionBits + 1) := by
  have bits : m < 2 ^ (m.log2 + 1) := Nat.lt_log2_self
  have above : (m.log2 : Int) + e - f.fractionBits ≤ f.place m e := le_max_right _ _
  rw [places]
  split
  · next low =>
    rw [Nat.shiftLeft_eq]
    calc m * 2 ^ (e - f.place m e).toNat ≤ 2 ^ (m.log2 + 1) * 2 ^ (e - f.place m e).toNat :=
          Nat.mul_le_mul_right _ bits.le
      _ = 2 ^ (m.log2 + 1 + (e - f.place m e).toNat) := (Nat.pow_add ..).symm
      _ ≤ 2 ^ (f.fractionBits + 1) := Nat.pow_le_pow_right two_pos (by omega)
  · next high =>
    rw [Nat.one_shiftLeft]
    have below : m < 2 ^ (f.place m e - e).toNat * 2 ^ (f.fractionBits + 1) :=
      calc m < 2 ^ (m.log2 + 1) := bits
        _ ≤ 2 ^ ((f.place m e - e).toNat + (f.fractionBits + 1)) := Nat.pow_le_pow_right two_pos (by omega)
        _ = _ := Nat.pow_add ..
    exact le_trans (roundDiv_le m _) (Nat.div_lt_of_lt_mul below)

theorem le_places {m : Nat} (some : m ≠ 0) {e : Int} (normal : f.place m e ≠ f.minExponent) :
    2 ^ f.fractionBits ≤ f.places m e := by
  have bits : 2 ^ m.log2 ≤ m := Nat.log2_self_le some
  have leading : f.place m e = m.log2 + e - f.fractionBits := (max_choice _ _).resolve_left normal
  rw [places]
  split
  · next low =>
    rw [Nat.shiftLeft_eq]
    calc 2 ^ f.fractionBits = 2 ^ (m.log2 + (e - f.place m e).toNat) := by congr 1; omega
      _ = 2 ^ m.log2 * 2 ^ (e - f.place m e).toNat := Nat.pow_add ..
      _ ≤ m * 2 ^ (e - f.place m e).toNat := Nat.mul_le_mul_right _ bits
  · next high =>
    rw [Nat.one_shiftLeft]
    refine le_trans ?_ (div_le_roundDiv m _)
    rw [Nat.le_div_iff_mul_le (Nat.two_pow_pos _)]
    calc 2 ^ f.fractionBits * 2 ^ (f.place m e - e).toNat = 2 ^ m.log2 := by
          rw [← Nat.pow_add]; congr 1; omega
      _ ≤ m := bits

theorem decode_fields (field : Nat) {fraction : Nat} (short : fraction < 2 ^ f.fractionBits) :
    f.decode ((field <<< f.fractionBits) + fraction) =
      if field = 0 then ⟨fraction, f.minExponent⟩
      else ⟨2 ^ f.fractionBits + fraction, f.minExponent + field - 1⟩ := by
  have high : ((field <<< f.fractionBits) + fraction) >>> f.fractionBits = field := by
    rw [Nat.shiftLeft_eq, Nat.shiftRight_eq_div_pow, Nat.add_comm, Nat.add_mul_div_right _ _ (Nat.two_pow_pos _),
      Nat.div_eq_of_lt short, Nat.zero_add]
  have low : ((field <<< f.fractionBits) + fraction) % 2 ^ f.fractionBits = fraction := by
    rw [Nat.shiftLeft_eq, Nat.add_comm, Nat.add_mul_mod_self_right, Nat.mod_eq_of_lt short]
  simp only [decode, Nat.one_shiftLeft, high, low]

theorem value_places {place : Int} {s : Nat} (least : f.minExponent ≤ place) (most : s ≤ 2 ^ (f.fractionBits + 1))
    (normal : place ≠ f.minExponent → 2 ^ f.fractionBits ≤ s) :
    f.value (((place - f.minExponent).toNat <<< f.fractionBits) + s) = s * 2 ^ place := by
  have double : 2 ^ (f.fractionBits + 1) = 2 ^ f.fractionBits + 2 ^ f.fractionBits := by
    rw [Nat.pow_succ, Nat.mul_two]
  obtain ⟨j, rfl⟩ : ∃ j : Nat, place = f.minExponent + j := ⟨(place - f.minExponent).toNat, by omega⟩
  have field : (f.minExponent + (j : Int) - f.minExponent).toNat = j := by omega
  have shift : ∀ i : Nat, (j + i) <<< f.fractionBits = (j <<< f.fractionBits) + i * 2 ^ f.fractionBits := by
    intro i
    rw [Nat.shiftLeft_eq, Nat.shiftLeft_eq, Nat.add_mul]
  rw [field]
  rcases Nat.lt_or_ge s (2 ^ f.fractionBits) with short | long
  · obtain rfl : j = 0 := by
      by_contra some
      exact absurd (normal (by omega)) (by omega)
    rw [value, f.decode_fields 0 short, if_pos rfl]
    simp
  · rcases Nat.lt_or_ge s (2 ^ (f.fractionBits + 1)) with inside | carried
    · obtain ⟨fraction, rfl⟩ := Nat.exists_eq_add_of_le long
      have word : (j <<< f.fractionBits) + (2 ^ f.fractionBits + fraction) =
          ((j + 1) <<< f.fractionBits) + fraction := by rw [shift]; omega
      rw [value, word, f.decode_fields (j + 1) (by omega), if_neg (Nat.succ_ne_zero j)]
      congr 2
      push_cast
      omega
    · obtain rfl : s = 2 ^ (f.fractionBits + 1) := by omega
      have word : (j <<< f.fractionBits) + 2 ^ (f.fractionBits + 1) = ((j + 2) <<< f.fractionBits) + 0 := by
        rw [shift]; omega
      rw [value, word, f.decode_fields (j + 2) (Nat.two_pow_pos _), if_neg (Nat.succ_ne_zero _)]
      have next : f.minExponent + ((j + 2 : Nat) : Int) - 1 = 1 + (f.minExponent + j) := by push_cast; omega
      rw [next, zpow_add₀ two_ne_zero]
      push_cast
      ring

theorem decode_bounds (word : Nat) :
    (f.decode word).significand < 2 ^ (f.fractionBits + 1) ∧ f.minExponent ≤ (f.decode word).exponent := by
  have short : word % 2 ^ f.fractionBits < 2 ^ f.fractionBits := Nat.mod_lt _ (Nat.two_pow_pos _)
  simp only [decode, Nat.one_shiftLeft, Nat.pow_succ]
  split
  · refine ⟨?_, le_rfl⟩
    dsimp only
    omega
  · next normal =>
    generalize word >>> f.fractionBits = field at normal
    constructor <;> dsimp only <;> omega

theorem value_zero : f.value 0 = 0 := by
  have bare : f.decode 0 = ⟨0, f.minExponent⟩ := by simp [decode]
  rw [value, bare, Nat.cast_zero, zero_mul]

theorem value_nonneg (word : Nat) : 0 ≤ f.value word :=
  mul_nonneg (Nat.cast_nonneg _) (two_zpow_pos _).le

theorem value_cases {m : Nat} (some : m ≠ 0) (e : Int) (word : Nat) :
    (∃ k : Nat, f.value word = k * 2 ^ f.place m e) ∨
      ∃ k : Nat, f.value word < k * 2 ^ f.place m e ∧ (k : ℚ) * 2 ^ f.place m e ≤ m * 2 ^ e := by
  obtain ⟨short, least⟩ := f.decode_bounds word
  rcases le_or_gt (f.place m e) (f.decode word).exponent with coarse | fine
  · exact .inl ⟨_, mul_two_zpow _ coarse⟩
  · have leading : f.place m e = m.log2 + e - f.fractionBits :=
      (max_choice _ _).resolve_left (least.trans_lt fine).ne'
    refine .inr ⟨2 ^ f.fractionBits, ?_, ?_⟩
    · calc f.value word < (2 ^ (f.fractionBits + 1) : Nat) * 2 ^ (f.decode word).exponent :=
            mul_lt_mul_of_pos_right (by exact_mod_cast short) (two_zpow_pos _)
        _ = (2 ^ f.fractionBits : Nat) * 2 ^ ((f.decode word).exponent + 1) := by
            rw [zpow_add₀ two_ne_zero]; push_cast; ring
        _ ≤ (2 ^ f.fractionBits : Nat) * 2 ^ f.place m e :=
            mul_le_mul_of_nonneg_left (zpow_le_zpow_right₀ one_le_two (by omega)) (Nat.cast_nonneg _)
    · calc ((2 ^ f.fractionBits : Nat) : ℚ) * 2 ^ f.place m e = (2 ^ m.log2 : Nat) * 2 ^ e := by
            rw [leading]
            push_cast
            rw [← zpow_natCast, ← zpow_natCast, ← zpow_add₀ two_ne_zero, ← zpow_add₀ two_ne_zero]
            congr 1
            omega
        _ ≤ m * 2 ^ e :=
            mul_le_mul_of_nonneg_right (by exact_mod_cast Nat.log2_self_le some) (two_zpow_pos e).le

theorem value_encode {m : Nat} (some : m ≠ 0) {e : Int} (finite : f.encode m e < f.infinity) :
    f.value (f.encode m e) = f.places m e * 2 ^ f.place m e := by
  have least : f.minExponent ≤ f.place m e := le_max_left _ _
  rw [f.encode_eq some] at finite ⊢
  rw [min_eq_right (by omega), f.value_places least (f.places_le m e) (f.le_places some)]

theorem encode_mod_two (fraction : 0 < f.fractionBits) {m : Nat} (some : m ≠ 0) {e : Int}
    (finite : f.encode m e < f.infinity) : f.encode m e % 2 = f.places m e % 2 := by
  rw [f.encode_eq some] at finite ⊢
  obtain ⟨l, bits⟩ := Nat.exists_eq_succ_of_ne_zero fraction.ne'
  rw [min_eq_right (by omega), Nat.shiftLeft_eq, bits, Nat.pow_succ, ← Nat.mul_assoc]
  omega

structure Nearest (x : ℚ) (w : Nat) : Prop where
  near : ∀ word, |x - f.value w| ≤ |x - f.value word|
  even : ∀ word, |x - f.value word| = |x - f.value w| → f.value word = f.value w ∨ w % 2 = 0

theorem nearest_encode (fraction : 0 < f.fractionBits) {m : Nat} {e : Int}
    (finite : f.encode m e < f.infinity) : f.Nearest (m * 2 ^ e) (f.encode m e) := by
  by_cases zero : m = 0
  · subst zero
    rw [Nat.cast_zero, zero_mul, encode_zero]
    constructor
    · intro word
      rw [value_zero, sub_self, abs_zero]
      exact abs_nonneg _
    · intro word tie
      rw [value_zero, sub_self, abs_zero, abs_eq_zero, zero_sub, neg_eq_zero] at tie
      exact .inl (tie.trans f.value_zero.symm)
  · obtain ⟨near, even⟩ := f.nearest_places m e
    have made := f.value_encode zero finite
    have farther : ∀ word (k : Nat), f.value word < k * 2 ^ f.place m e →
        (k : ℚ) * 2 ^ f.place m e ≤ m * 2 ^ e →
        |(m : ℚ) * 2 ^ e - f.value (f.encode m e)| < |m * 2 ^ e - f.value word| := by
      intro word k below leading
      rw [made]
      refine (near k).trans_lt ?_
      rw [abs_of_nonneg (by linarith), abs_of_nonneg (by linarith)]
      linarith
    constructor
    · intro word
      rcases f.value_cases zero e word with ⟨k, same⟩ | ⟨k, below, leading⟩
      · rw [made, same]
        exact near k
      · exact (farther word k below leading).le
    · intro word tie
      rcases f.value_cases zero e word with ⟨k, same⟩ | ⟨k, below, leading⟩
      · rw [f.encode_mod_two fraction zero finite, made, same]
        rw [made, same] at tie
        exact (even k tie).imp_left fun equal => by rw [equal]
      · exact absurd tie (farther word k below leading).ne'

theorem encode_lt_infinity {n : Nat} (fits : n < UInt64.size) : double.encode n 0 < double.infinity := by
  have size : UInt64.size = 2 ^ 64 := rfl
  have least : double.minExponent = -1074 := rfl
  have fraction : double.fractionBits = 52 := rfl
  have infinite : double.infinity = 2047 * 2 ^ 52 := rfl
  by_cases zero : n = 0
  · rw [zero, encode_zero, infinite]
    decide
  · -- The last place of such an integer stands for `2 ^ 11` at most.
    have log : n.log2 ≤ 63 := Nat.le_of_lt_succ ((Nat.log2_lt zero).2 fits)
    have most : double.places n 0 ≤ 2 ^ 53 := double.places_le n 0
    have low : double.place n 0 ≤ 11 := by rw [place, least, fraction]; omega
    rw [double.encode_eq zero, least, fraction, infinite, Nat.shiftLeft_eq]
    omega

end Format

namespace Binary64

theorem ofParts_fields (negative : Bool) {m : Nat} (fits : m < Format.double.signWeight) :
    (ofParts negative m).negative = negative ∧ (ofParts negative m).magnitude = m := by
  have weight : Format.double.signWeight = 2 ^ 63 := rfl
  rw [weight] at fits
  rw [Binary64.negative, magnitude, ofParts, weight, UInt64.toNat_ofNat']
  cases negative
  · simp only [Bool.false_eq_true, if_false, decide_eq_false_iff_not]
    omega
  · simp only [if_true, decide_eq_true_eq]
    omega

theorem magnitude_ofParts {negative : Bool} {m : Nat} (fits : m < Format.double.signWeight) :
    (ofParts negative m).magnitude = m := (ofParts_fields negative fits).2

theorem isFinite_ofParts {negative : Bool} {m : Nat} (below : m < Format.double.infinity) :
    (ofParts negative m).isFinite = true := by
  have small : m < Format.double.signWeight := Nat.lt_trans below (by decide)
  rw [isFinite, magnitude_ofParts small]
  exact decide_eq_true below

theorem isFinite_ofInt {n : Int} (fits : n.natAbs < UInt64.size) : (ofInt n).isFinite = true :=
  isFinite_ofParts (Format.encode_lt_infinity fits)

theorem isFinite_neg {x : Binary64} (finite : x.isFinite = true) : x.neg.isFinite = true :=
  isFinite_ofParts (of_decide_eq_true finite)

def value (x : Binary64) : ℚ :=
  if x.negative then -Format.double.value x.magnitude else Format.double.value x.magnitude

/-- No finite double is nearer to `q`, and of two that are equally near this is the one whose word is even. -/
structure Nearest (q : ℚ) (x : Binary64) : Prop where
  finite : x.isFinite = true
  near : ∀ y : Binary64, y.isFinite = true → |q - x.value| ≤ |q - y.value|
  even : ∀ y : Binary64, y.isFinite = true → |q - y.value| = |q - x.value| →
    y.value = x.value ∨ x.magnitude % 2 = 0

theorem abs_value (x : Binary64) : |x.value| = Format.double.value x.magnitude := by
  rw [value]
  split
  · rw [abs_neg, abs_of_nonneg (Format.double.value_nonneg _)]
  · rw [abs_of_nonneg (Format.double.value_nonneg _)]

theorem nearest_ofInt {n : Int} (fits : n.natAbs < UInt64.size) : (ofInt n).Nearest n := by
  have below := Format.encode_lt_infinity fits
  obtain ⟨sign, magnitude⟩ := ofParts_fields (n < 0) (below.trans (by decide))
  have nearest := Format.double.nearest_encode (by decide) below
  rw [zpow_zero, mul_one, Nat.cast_natAbs, Int.cast_abs] at nearest
  -- The double has the sign of the integer, so that only the magnitudes differ.
  have distance : |(n : ℚ) - (ofInt n).value| =
      |(|(n : ℚ)| - Format.double.value (Format.double.encode n.natAbs 0))| := by
    rw [value, ofInt, sign, magnitude]
    by_cases negative : n < 0
    · rw [if_pos (decide_eq_true negative), abs_of_neg (by exact_mod_cast negative : (n : ℚ) < 0), ← abs_neg]
      ring_nf
    · rw [if_neg (by simpa using negative), abs_of_nonneg (by exact_mod_cast not_lt.1 negative : (0 : ℚ) ≤ n)]
  have closer : ∀ y : Binary64, |(|(n : ℚ)| - Format.double.value y.magnitude)| ≤ |(n : ℚ) - y.value| := by
    intro y
    rw [← y.abs_value]
    exact abs_abs_sub_abs_le _ _
  refine ⟨isFinite_ofInt fits, fun y _ => ?_, fun y _ tie => ?_⟩
  · rw [distance]
    exact (nearest.near _).trans (closer y)
  · have equal := le_antisymm ((closer y).trans_eq (tie.trans distance)) (nearest.near y.magnitude)
    rcases nearest.even y.magnitude equal with same | even
    · refine .inl ?_
      rw [← magnitude, ← abs_value, ← abs_value, ← ofInt] at same
      rcases abs_eq_abs.1 same with same | opposite
      · exact same
      · -- Numbers of different sign that are equally near to an integer are both zero.
        rcases abs_eq_abs.1 tie with same | mirrored
        · linarith
        · obtain rfl : n = 0 := by exact_mod_cast (by linarith : (n : ℚ) = 0)
          have none : (ofInt 0).value = 0 := by
            rw [← abs_eq_zero, abs_value]
            exact Format.double.value_zero
          rw [opposite, none, neg_zero]
    · exact .inr (by rw [ofInt, magnitude, even])

theorem natAbs_lt_size (n : Int64) : n.toInt.natAbs < UInt64.size := by
  have low : -9223372036854775808 ≤ n.toInt := n.le_toInt
  have high : n.toInt ≤ 9223372036854775807 := n.toInt_le
  have size : UInt64.size = 18446744073709551616 := rfl
  omega

theorem nearest_ofInt64 (n : Int64) : (ofInt n.toInt).Nearest n.toInt := nearest_ofInt (natAbs_lt_size n)

theorem isNaN_ofInt64 (n : Int64) : (ofInt n.toInt).isNaN = false :=
  decide_eq_false (Nat.lt_asymm (of_decide_eq_true (isFinite_ofInt (natAbs_lt_size n))))

end Binary64

end Tabular.Number
