import Mathlib.Data.Int.ModEq
import Tabular.Proofs.Lifting

/-! Integers as scalars are words of 64 bits. Whatever is done with two of them comes to an answer, and sums,
differences, products, quotients, remainders and opposites are those of integers but for multiples of `2 ^ 64`. Only a
quotient or a remainder by zero is refused. All others fit together, also where the quotient goes round. -/

namespace Tabular

namespace Arithmetic

variable {op : Arithmetic} {a b : Int64}

def Divides (op : Arithmetic) : Prop := op = .div ∨ op = .rem

instance : Decidable op.Divides := inferInstanceAs (Decidable (_ ∨ _))

/-- What the machine does with two words. It goes round at both ends, and it stops at a divisor of zero. -/
def onWords? : Arithmetic → Int64 → Int64 → Option Int64
  | add, a, b => some (a + b)
  | sub, a, b => some (a - b)
  | mul, a, b => some (a * b)
  | div, a, b => if b = 0 then none else some (a / b)
  | rem, a, b => if b = 0 then none else some (a % b)

/-- An operation on two integers step by step. The divisor is looked at before the machine is set to work. -/
def perform (op : Arithmetic) (a b : Int64) : Option (Except Error Int64) :=
  if op.Divides ∧ b = 0 then some (.error .divisionByZero) else (op.onWords? a b).map .ok

/-- The machine never stops. -/
theorem perform_eq (op : Arithmetic) (a b : Int64) : op.perform a b = some (op.onInts a b) := by
  by_cases zero : b = 0
  · cases op <;> simp [perform, onWords?, onInts, Divides, zero]
  · cases op <;> simp [perform, onWords?, onInts, zero]

theorem onInts_of_zero (divides : op.Divides) : op.onInts a 0 = .error .divisionByZero := by
  rcases divides with rfl | rfl <;> rfl

theorem exists_onInts (nonzero : op.Divides → b ≠ 0) :
    ∃ r, op.onInts a b = .ok r ∧ r.toInt ≡ op.exact a.toInt b.toInt [ZMOD 2 ^ 64] := by
  cases op with
  | add => exact ⟨a + b, rfl, by rw [Int64.toInt_add]; exact Int.bmod_emod⟩
  | sub => exact ⟨a - b, rfl, by rw [Int64.toInt_sub]; exact Int.bmod_emod⟩
  | mul => exact ⟨a * b, rfl, by rw [Int64.toInt_mul]; exact Int.bmod_emod⟩
  | div => exact ⟨a / b, if_neg (nonzero (.inl rfl)), by rw [Int64.toInt_div]; exact Int.bmod_emod⟩
  | rem => exact ⟨a % b, if_neg (nonzero (.inr rfl)), by rw [Int64.toInt_mod]; rfl⟩

theorem onInts_eq_error_iff (divides : op.Divides) : op.onInts a b = .error .divisionByZero ↔ b = 0 := by
  constructor
  · intro refused
    by_contra nonzero
    obtain ⟨r, made, -⟩ : ∃ r, op.onInts a b = .ok r ∧ _ := exists_onInts fun _ => nonzero
    cases refused.symm.trans made
  · rintro rfl
    exact onInts_of_zero divides

end Arithmetic

namespace Word

theorem toInt_ne_zero {b : Int64} (nonzero : b ≠ 0) : b.toInt ≠ 0 :=
  fun zero => nonzero (Int64.toInt_inj.1 zero)

theorem div_mul_add_mod (a b : Int64) : a / b * b + a % b = a := by
  rw [← Int64.toInt_inj, Int64.toInt_add, Int64.toInt_mul, Int64.toInt_div, Int64.toInt_mod]
  calc (((a.toInt.tdiv b.toInt).bmod (2 ^ 64) * b.toInt).bmod (2 ^ 64) + a.toInt.tmod b.toInt).bmod (2 ^ 64)
      = (a.toInt.tdiv b.toInt * b.toInt + a.toInt.tmod b.toInt).bmod (2 ^ 64) := by
        rw [Int.bmod_mul_bmod, Int.bmod_add_bmod]
    _ = a.toInt.bmod (2 ^ 64) := by rw [Int.mul_comm, Int.mul_tdiv_add_tmod]
    _ = a.toInt := a.toInt_bmod_size

theorem natAbs_mod_lt (a : Int64) {b : Int64} (nonzero : b ≠ 0) : (a % b).toInt.natAbs < b.toInt.natAbs := by
  rw [Int64.toInt_mod, Int.natAbs_tmod]
  exact Nat.mod_lt _ (Int.natAbs_pos.2 (toInt_ne_zero nonzero))

theorem mod_eq_zero_or (a b : Int64) : a % b = 0 ∨ (a % b).toInt.sign = a.toInt.sign := by
  by_cases divides : b.toInt ∣ a.toInt
  · left
    rw [← Int64.toInt_inj, Int64.toInt_mod, Int.tmod_eq_zero_of_dvd divides]
    rfl
  · right
    rw [Int64.toInt_mod, Int.sign_tmod, if_neg divides]

end Word

namespace Scalar

def calculate (op : Arithmetic) : Scalar → Scalar → Except Error Scalar := (BinaryOp.arithmetic op).apply

/-- Integers as operands, whichever two they are. Arithmetic does what the machine does, which never stops, and a
comparison has an answer; the connectives are refused. Results are exact but for multiples of `2 ^ 64`, and just a
divisor of zero is refused. Otherwise the quotient times the divisor and the remainder add up to the dividend, with a
remainder less than the divisor and of the dividend's sign. What was added can be taken away, and to take away is to
add the opposite. -/
theorem integers_go_round (a b : Int64) :
    (∀ op, ∃ answer, op.perform a b = some answer ∧ calculate op (.int64 a) (.int64 b) = answer.map .int64) ∧
    (∀ op, ∃ holds, (BinaryOp.comparison op).apply (.int64 a) (.int64 b) = .ok (.bool holds)) ∧
    (∀ op, (BinaryOp.connective op).apply (.int64 a) (.int64 b) =
      .error (.incompatibleOperands (.connective op) .int64 .int64)) ∧
    (∀ op, (op.Divides → b ≠ 0) → ∃ r, calculate op (.int64 a) (.int64 b) = .ok (.int64 r) ∧
      r.toInt ≡ op.exact a.toInt b.toInt [ZMOD 2 ^ 64]) ∧
    (∃ r, UnaryOp.neg.apply (.int64 a) = .ok (.int64 r) ∧ r.toInt ≡ -a.toInt [ZMOD 2 ^ 64]) ∧
    (∀ op, op.Divides → (calculate op (.int64 a) (.int64 b) = .error .divisionByZero ↔ b = 0)) ∧
    (b ≠ 0 → ∃ q r, calculate .div (.int64 a) (.int64 b) = .ok (.int64 q) ∧
      calculate .rem (.int64 a) (.int64 b) = .ok (.int64 r) ∧
      (calculate .mul (.int64 q) (.int64 b) >>= (calculate .add · (.int64 r))) = .ok (.int64 a) ∧
      r.toInt.natAbs < b.toInt.natAbs ∧ (r = 0 ∨ r.toInt.sign = a.toInt.sign)) ∧
    (calculate .add (.int64 a) (.int64 b) >>= (calculate .sub · (.int64 b))) = .ok (.int64 a) ∧
    calculate .sub (.int64 a) (.int64 b) = UnaryOp.neg.apply (.int64 b) >>= calculate .add (.int64 a) := by
  have calculated (op : Arithmetic) (a b : Int64) :
      calculate op (.int64 a) (.int64 b) = (op.onInts a b).map .int64 := rfl
  refine ⟨fun op => ⟨_, op.perform_eq a b, rfl⟩, fun op => ⟨_, rfl⟩, fun op => rfl, fun op nonzero => ?_,
    ⟨-a, rfl, by rw [Int64.toInt_neg]; exact Int.bmod_emod⟩, fun op divides => ?_, fun nonzero => ?_, ?_, ?_⟩
  · obtain ⟨r, made, congruent⟩ := Arithmetic.exists_onInts (a := a) nonzero
    exact ⟨r, by rw [calculated, made]; rfl, congruent⟩
  · rw [calculated, map_eq_error_iff, Arithmetic.onInts_eq_error_iff divides]
  · refine ⟨a / b, a % b, ?_, ?_, ?_, Word.natAbs_mod_lt a nonzero, Word.mod_eq_zero_or a b⟩
    · rw [calculated, Arithmetic.onInts, if_neg nonzero]
      rfl
    · rw [calculated, Arithmetic.onInts, if_neg nonzero]
      rfl
    · exact congrArg (Except.ok ∘ Scalar.int64) (Word.div_mul_add_mod a b)
  · exact congrArg (Except.ok ∘ Scalar.int64) (a.add_sub_cancel b)
  · exact congrArg (Except.ok ∘ Scalar.int64) (Int64.sub_eq_add_neg a b)

theorem integers_go_round_lowest :
    let lowest : Scalar := .int64 (-9223372036854775808)
    let below : Scalar := .int64 (-1)
    (-1 : Int64) ≠ 0 ∧ calculate .div lowest below = .ok lowest ∧ calculate .rem lowest below = .ok (.int64 0) ∧
    (calculate .mul lowest below >>= (calculate .add · (.int64 0))) = .ok lowest ∧
    (calculate .div lowest (.int64 0) = .error .divisionByZero ↔ (0 : Int64) = 0) := by
  intro lowest below
  have nonzero : (-1 : Int64) ≠ 0 := by decide
  obtain ⟨-, -, -, -, -, -, divided, -⟩ := integers_go_round (-9223372036854775808) (-1)
  obtain ⟨-, -, -, -, -, refused, -⟩ := integers_go_round (-9223372036854775808) 0
  obtain ⟨q, r, quotient, remainder, whole, -⟩ := divided nonzero
  obtain rfl : -9223372036854775808 = q := Scalar.int64.inj (Except.ok.inj quotient)
  obtain rfl : 0 = r := Scalar.int64.inj (Except.ok.inj remainder)
  exact ⟨nonzero, quotient, remainder, whole, refused .div (.inl rfl)⟩

end Scalar

end Tabular
