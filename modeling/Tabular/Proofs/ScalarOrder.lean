import Mathlib.Data.Prod.Lex
import Tabular.Proofs.Merging
import Tabular.Proofs.Rounding

/-! The order that sorts scalars of all kinds. Integers are compared exactly among themselves and by their nearest
doubles with doubles. Rounding never turns two integers around, so that the order holds together as long as no
double stands between two integers that have become this same double: such a double is tied with both of them. -/

namespace Tabular

namespace Number

namespace Format

variable (f : Format)

theorem exists_places (word : Nat) : ∃ (place : Int) (s : Nat), f.minExponent ≤ place ∧
    s < 2 ^ (f.fractionBits + 1) ∧ (place ≠ f.minExponent → 2 ^ f.fractionBits ≤ s) ∧
    ((place - f.minExponent).toNat <<< f.fractionBits) + s = word := by
  have whole := Nat.div_add_mod' word (2 ^ f.fractionBits)
  have short := Nat.mod_lt word (Nat.two_pow_pos f.fractionBits)
  have double : 2 ^ (f.fractionBits + 1) = 2 ^ f.fractionBits + 2 ^ f.fractionBits := by
    rw [Nat.pow_succ, Nat.mul_two]
  cases field : word / 2 ^ f.fractionBits with
  | zero =>
    rw [field, Nat.zero_mul, Nat.zero_add] at whole
    refine ⟨f.minExponent, word, le_rfl, by omega, fun other => absurd rfl other, ?_⟩
    rw [sub_self, Int.toNat_zero, Nat.zero_shiftLeft, Nat.zero_add]
  | succ j =>
    refine ⟨f.minExponent + j, 2 ^ f.fractionBits + word % 2 ^ f.fractionBits, by omega, by omega,
      fun _ => Nat.le_add_right _ _, ?_⟩
    rw [add_sub_cancel_left, Int.toNat_natCast, Nat.shiftLeft_eq, ← Nat.add_assoc, ← Nat.succ_mul,
      Nat.succ_eq_add_one, ← field, whole]

theorem value_strictMono : StrictMono f.value := by
  refine strictMono_nat_of_lt_succ fun word => ?_
  obtain ⟨place, s, least, short, normal, rfl⟩ := f.exists_places word
  rw [Nat.add_assoc, f.value_places least short.le normal,
    f.value_places least short fun other => (normal other).trans s.le_succ]
  exact mul_lt_mul_of_pos_right (by exact_mod_cast s.lt_succ_self) (two_zpow_pos place)

/-- Rounding keeps the order: of two words in the wrong order each would have to be nearer to its own number than
the other, which is so only if both numbers are the one in the middle. -/
theorem encode_mono (fraction : 0 < f.fractionBits) {m m' : Nat} {e : Int} (le : m ≤ m')
    (finite : f.encode m e < f.infinity) (finite' : f.encode m' e < f.infinity) :
    f.encode m e ≤ f.encode m' e := by
  by_contra turned
  have less := f.value_strictMono (not_le.1 turned)
  have near := (f.nearest_encode fraction finite).near (f.encode m' e)
  have near' := (f.nearest_encode fraction finite').near (f.encode m e)
  have above : f.value (f.encode m e) + f.value (f.encode m' e) ≤ 2 * (m * 2 ^ e) := by
    cases abs_cases ((m : ℚ) * 2 ^ e - f.value (f.encode m e)) <;>
      cases abs_cases ((m : ℚ) * 2 ^ e - f.value (f.encode m' e)) <;> linarith
  have below : 2 * (m' * 2 ^ e) ≤ f.value (f.encode m e) + f.value (f.encode m' e) := by
    cases abs_cases ((m' : ℚ) * 2 ^ e - f.value (f.encode m e)) <;>
      cases abs_cases ((m' : ℚ) * 2 ^ e - f.value (f.encode m' e)) <;> linarith
  have ge : (m' : ℚ) ≤ m := le_of_mul_le_mul_right (by linarith) (two_zpow_pos e)
  obtain rfl : m = m' := le_antisymm le (by exact_mod_cast ge)
  exact turned le_rfl

theorem value_encode_of_place_le {m : Nat} {e : Int} (exact : f.place m e ≤ e)
    (finite : f.encode m e < f.infinity) : f.value (f.encode m e) = m * 2 ^ e := by
  by_cases zero : m = 0
  · rw [zero, encode_zero, value_zero, Nat.cast_zero, zero_mul]
  · rw [f.value_encode zero finite, places, if_pos exact, Nat.shiftLeft_eq, mul_two_zpow m exact]

end Format

namespace Binary64

theorem totalRank_ofInt {n : Int} (fits : n.natAbs < UInt64.size) :
    (ofInt n).totalRank =
      if n < 0 then -(Format.double.encode n.natAbs 0 : Int) - 1 else Format.double.encode n.natAbs 0 := by
  obtain ⟨sign, magnitude⟩ := ofParts_fields (n < 0) ((Format.encode_lt_infinity fits).trans (by decide))
  rw [totalRank, ofInt, sign, magnitude]
  simp only [decide_eq_true_eq]

theorem totalRank_ofInt_mono {n m : Int64} (le : n.toInt ≤ m.toInt) :
    (ofInt n.toInt).totalRank ≤ (ofInt m.toInt).totalRank := by
  have finite := Format.encode_lt_infinity (natAbs_lt_size n)
  have finite' := Format.encode_lt_infinity (natAbs_lt_size m)
  have positive : 0 < Format.double.fractionBits := by decide
  rw [totalRank_ofInt (natAbs_lt_size n), totalRank_ofInt (natAbs_lt_size m)]
  split <;> split
  · have kept := Format.double.encode_mono positive (by omega : m.toInt.natAbs ≤ n.toInt.natAbs) finite' finite
    omega
  · omega
  · omega
  · have kept := Format.double.encode_mono positive (by omega : n.toInt.natAbs ≤ m.toInt.natAbs) finite finite'
    omega

theorem value_ofInt {n : Int} (small : n.natAbs < 2 ^ 53) : (ofInt n).value = n := by
  have finite : Format.double.encode n.natAbs 0 < Format.double.infinity :=
    Format.encode_lt_infinity (small.trans (by decide))
  have exact : Format.double.place n.natAbs 0 ≤ 0 := by
    refine max_le (by decide) ?_
    have fraction : Format.double.fractionBits = 52 := rfl
    by_cases zero : n.natAbs = 0
    · rw [zero]
      decide
    · have log := (Nat.log2_lt zero).2 small
      omega
  have magnitude := Format.double.value_encode_of_place_le exact finite
  obtain ⟨sign, word⟩ := ofParts_fields (n < 0) (finite.trans (by decide))
  rw [value, ofInt, sign, word, magnitude, zpow_zero, mul_one, Nat.cast_natAbs]
  by_cases negative : n < 0
  · rw [if_pos (decide_eq_true negative), abs_of_neg negative, Int.cast_neg, neg_neg]
  · rw [if_neg (by simpa using negative), abs_of_nonneg (not_lt.1 negative)]

end Binary64

end Number

namespace Scalar

open Number (Binary64)

/-- The place of a scalar if every integer were its nearest double: that of its kind, and within its kind that of
what it holds. -/
def station : Scalar → Nat ×ₗ Bool ×ₗ Int ×ₗ String
  | absent => toLex (0, toLex (false, toLex (0, "")))
  | bool b => toLex (1, toLex (b, toLex (0, "")))
  | int64 n => toLex (2, toLex (false, toLex ((Binary64.ofInt n.toInt).totalRank, "")))
  | float64 x => toLex (2, toLex (false, toLex (x.totalRank, "")))
  | utf8 s => toLex (3, toLex (false, toLex (0, s)))

theorem totalCompare_eq_compare {a b : Scalar} (mixed : ¬(a.kind = .int64 ∧ b.kind = .int64)) :
    a.totalCompare b = compare a.station b.station := by
  cases a <;> cases b
  case int64.int64 => exact absurd ⟨rfl, rfl⟩ mixed
  case bool.bool | int64.float64 | float64.int64 | float64.float64 | utf8.utf8 =>
    simp [totalCompare, station, Binary64.totalCompare, Prod.Lex.compare_def, compareLex, compareOn]
  all_goals rfl

theorem station_le_of_totalCompare {a b : Scalar} (first : a.totalCompare b ≠ .gt) : a.station ≤ b.station := by
  by_cases ints : a.kind = .int64 ∧ b.kind = .int64
  · cases a <;> cases ints.1
    cases b <;> cases ints.2
    next n m =>
      have le := Binary64.totalRank_ofInt_mono (compare_le_iff_le.1 first)
      simpa [station, Prod.Lex.toLex_le_toLex] using le.lt_or_eq
  · rw [totalCompare_eq_compare ints] at first
    exact compare_le_iff_le.1 first

theorem eq_float64_of_station {b : Scalar} (double : b.kind ≠ .int64) {n : Int64}
    (same : b.station = (int64 n).station) : b = float64 (.ofInt n.toInt) := by
  cases b with
  | int64 m => exact absurd rfl double
  | float64 x =>
    have ranks : x.totalRank = (Binary64.ofInt n.toInt).totalRank := by simpa [station] using same
    rw [totalRank_injective ranks]
  | _ => simp [station] at same

/-- A double between two integers in the wrong order, each of which has become this double. -/
def Blurs (b a c : Scalar) : Prop :=
  ∃ n m : Int64, m.toInt < n.toInt ∧ a = int64 n ∧ c = int64 m ∧
    b = float64 (.ofInt n.toInt) ∧ b = float64 (.ofInt m.toInt)

theorem Blurs.totalCompare {a b c : Scalar} (blurs : b.Blurs a c) :
    a.totalCompare b = .eq ∧ b.totalCompare c = .eq ∧ a.totalCompare c = .gt := by
  obtain ⟨n, m, less, rfl, rfl, near, near'⟩ := blurs
  refine ⟨?_, ?_, compare_gt_iff_gt.2 less⟩
  · rw [near]
    exact compare_eq_iff_eq.2 rfl
  · rw [near']
    exact compare_eq_iff_eq.2 rfl

theorem Blurs.exists_great {a b c : Scalar} (blurs : b.Blurs a c) :
    ∃ n : Int64, (a = int64 n ∨ c = int64 n) ∧ 2 ^ 53 ≤ n.toInt.natAbs := by
  obtain ⟨n, m, less, rfl, rfl, near, near'⟩ := blurs
  by_contra small
  push Not at small
  have words : Binary64.ofInt n.toInt = Binary64.ofInt m.toInt := float64.inj (near.symm.trans near')
  have numbers : (n.toInt : ℚ) = m.toInt := by
    rw [← Binary64.value_ofInt (small n (.inl rfl)), words, Binary64.value_ofInt (small m (.inr rfl))]
  exact less.ne (by exact_mod_cast numbers.symm)

theorem totalCompare_trans {a b c : Scalar} (first : a.totalCompare b ≠ .gt) (second : b.totalCompare c ≠ .gt)
    (clear : ¬b.Blurs a c) : a.totalCompare c ≠ .gt := by
  have le := station_le_of_totalCompare first
  have le' := station_le_of_totalCompare second
  by_cases ints : a.kind = .int64 ∧ c.kind = .int64
  · cases a <;> cases ints.1
    cases c <;> cases ints.2
    next n m =>
      intro behind
      have less : m.toInt < n.toInt := compare_gt_iff_gt.1 behind
      have ge : (int64 m).station ≤ (int64 n).station :=
        station_le_of_totalCompare (compare_le_iff_le.2 less.le)
      cases kind : b.kind with
      | int64 =>
        -- Integers alone are in one order, by which nothing could be turned around.
        cases b <;> cases kind
        exact absurd ((compare_le_iff_le.1 first).trans (compare_le_iff_le.1 second)) (not_le.2 less)
      | _ =>
        -- Rounding keeps the order, so that all three are at one station.
        have double : b.kind ≠ .int64 := by rw [kind]; decide
        exact clear ⟨n, m, less, rfl, rfl, eq_float64_of_station double (le_antisymm (le'.trans ge) le),
          eq_float64_of_station double (le_antisymm le' (ge.trans le))⟩
  · rw [totalCompare_eq_compare ints]
    exact compare_le_iff_le.2 (le.trans le')

/-- The order is total: any two scalars are equal or in opposite orders the two ways round. It is an order, also
for ties, except that a double between two integers that have both become this double keeps them together although
they are in the wrong order, which takes an integer of more than 53 bits. -/
theorem totalCompare_order (a b c : Scalar) :
    a.totalCompare a = .eq ∧ b.totalCompare a = (a.totalCompare b).swap ∧
    (a.totalCompare b ≠ .gt → b.totalCompare c ≠ .gt → (a.totalCompare c ≠ .gt ↔ ¬b.Blurs a c)) ∧
    (a.totalCompare b = .eq → b.totalCompare c = .eq →
      (a.totalCompare c = .eq ↔ ¬b.Blurs a c ∧ ¬b.Blurs c a)) ∧
    (b.Blurs a c → ∃ n : Int64, (a = int64 n ∨ c = int64 n) ∧ 2 ^ 53 ≤ n.toInt.natAbs) := by
  have own : a.totalCompare a = .eq := by
    have turned := totalCompare_swap a a
    cases same : a.totalCompare a <;> simp_all
  refine ⟨own, totalCompare_swap a b, fun first second => ⟨fun kept blurs => ?_, totalCompare_trans first second⟩,
    fun tie tie' => ⟨fun kept => ⟨fun blurs => ?_, fun blurs => ?_⟩, fun ⟨clear, clear'⟩ => ?_⟩,
    Blurs.exists_great⟩
  · exact kept blurs.totalCompare.2.2
  · rw [blurs.totalCompare.2.2] at kept
    cases kept
  · rw [totalCompare_swap c a, blurs.totalCompare.2.2] at kept
    cases kept
  · have back : b.totalCompare a = .eq := by rw [totalCompare_swap a b, tie]; rfl
    have back' : c.totalCompare b = .eq := by rw [totalCompare_swap b c, tie']; rfl
    have first : a.totalCompare c ≠ .gt := totalCompare_trans (by simp [tie]) (by simp [tie']) clear
    have last : c.totalCompare a ≠ .gt := totalCompare_trans (by simp [back']) (by simp [back]) clear'
    rw [totalCompare_swap a c] at last
    cases compared : a.totalCompare c <;> simp_all

theorem totalCompare_order_next :
    (float64 ⟨0x4340000000000000⟩).totalCompare (int64 9007199254740993) = .eq ∧
    (int64 9007199254740993).totalCompare (int64 9007199254740994) ≠ .gt ∧
    (float64 ⟨0x4340000000000000⟩).totalCompare (int64 9007199254740994) ≠ .gt := by
  have tie : (float64 ⟨0x4340000000000000⟩).totalCompare (int64 9007199254740993) = .eq := by decide
  have less : (int64 9007199254740993).totalCompare (int64 9007199254740994) ≠ .gt := by decide
  obtain ⟨-, -, trans, -, -⟩ := totalCompare_order (float64 ⟨0x4340000000000000⟩) (int64 9007199254740993)
    (int64 9007199254740994)
  refine ⟨tie, less, (trans (by simp [tie]) less).2 ?_⟩
  rintro ⟨_, _, -, none, -⟩
  cases none

/-- The double `2 ^ 53` is tied with the integer `2 ^ 53` and with the next one, which is greater. -/
theorem ties_not_transitive :
    (int64 9007199254740993).totalCompare (float64 ⟨0x4340000000000000⟩) = .eq ∧
    (float64 ⟨0x4340000000000000⟩).totalCompare (int64 9007199254740992) = .eq ∧
    (int64 9007199254740993).totalCompare (int64 9007199254740992) = .gt := by
  decide

end Scalar

end Tabular
