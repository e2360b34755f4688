import Tabular.Proofs.Inference
import Tabular.Proofs.Rounding

/-! Which values a column can be made of, and what becomes of them. Values that are present have to be of one
kind or numbers; the column has one place for each of them and shows it there again, but for the integers among
doubles, which become the nearest doubles. What is found out about the values depends on which values there are
and not on where they stand. -/

namespace Tabular

open Number

namespace Kind

theorem Fits.antisymm {a b : Kind} (first : a.Fits b) (second : b.Fits a) : a = b := by
  revert first second
  cases a <;> cases b <;> decide

theorem fits_absent_iff {a : Kind} : a.Fits absent ↔ a = absent := by
  cases a <;> decide

theorem fits_float64_iff {a : Kind} : a.Fits float64 ↔ a = absent ∨ a = int64 ∨ a = float64 := by
  cases a <;> decide

end Kind

def Numeric (values : List Scalar) : Prop := ∀ v ∈ values, v = .absent ∨ v.kind = .int64 ∨ v.kind = .float64

theorem numeric_iff_fits {values : List Scalar} : Numeric values ↔ ∀ v ∈ values, v.kind.Fits .float64 := by
  simp only [Numeric, Kind.fits_float64_iff, Scalar.kind_eq_absent_iff]

theorem Uniform.numeric {values : List Scalar} (integers : Uniform .int64 values) : Numeric values :=
  fun v mem => (integers v mem).imp_right .inl

theorem exists_fits_iff {values : List Scalar} :
    (∃ k, ∀ v ∈ values, v.kind.Fits k) ↔ Uniform .bool values ∨ Uniform .utf8 values ∨ Numeric values := by
  constructor
  · rintro ⟨k, fits⟩
    have uniform : k ≠ .float64 → Uniform k values := by
      intro other v mem
      rcases (fits v mem).eq_or with none | same | ⟨-, double⟩
      · exact .inl (Scalar.kind_eq_absent_iff.1 none)
      · exact .inr same
      · exact absurd double other
    cases k with
    | absent => exact .inl fun v mem => .inl (Scalar.kind_eq_absent_iff.1 (Kind.fits_absent_iff.1 (fits v mem)))
    | bool => exact .inl (uniform nofun)
    | int64 => exact .inr (.inr (uniform nofun).numeric)
    | float64 => exact .inr (.inr (numeric_iff_fits.2 fits))
    | utf8 => exact .inr (.inl (uniform nofun))
  · rintro (truths | texts | numbers)
    · exact ⟨.bool, truths.fits⟩
    · exact ⟨.utf8, texts.fits⟩
    · exact ⟨.float64, numeric_iff_fits.1 numbers⟩

namespace CellType

theorem allowsMissing_holding {k : Kind} {values : List Scalar} :
    (holding k values).allowsMissing = true ↔ .absent ∈ values := by
  rw [holding, ← Scalar.any_isAbsent_iff]
  split
  · next some => exact iff_of_true rfl some
  · next none =>
    refine iff_of_false ?_ none
    cases k <;> exact Bool.false_ne_true

theorem holding_congr {k : Kind} {values others : List Scalar} (same : ∀ v, v ∈ values ↔ v ∈ others) :
    holding k values = holding k others := by
  have gaps : values.any Scalar.isAbsent = others.any Scalar.isAbsent := by
    rw [Bool.eq_iff_iff, Scalar.any_isAbsent_iff, Scalar.any_isAbsent_iff, same]
  rw [holding, holding, gaps]

end CellType

namespace Column

theorem exists_infer_iff {name : String} {values : List Scalar} :
    (∃ c, infer name values = .ok c) ↔ Uniform .bool values ∨ Uniform .utf8 values ∨ Numeric values := by
  rw [← exists_fits_iff, ← exists_inferKind_iff]
  constructor
  · rintro ⟨c, inferred⟩
    obtain ⟨k, found, -⟩ := of_infer inferred
    exact ⟨k, found⟩
  · rintro ⟨k, found⟩
    obtain ⟨cells, made⟩ := exists_infer_of_inferKind found
    exact ⟨_, (made name).1⟩

theorem inferKind_fits {values others : List Scalar} {k l : Kind} (same : ∀ v, v ∈ values ↔ v ∈ others)
    (found : inferKind values = .ok k) (other : inferKind others = .ok l) : k.Fits l := by
  obtain ⟨-, -, source⟩ := fits_of_foldlM found
  obtain ⟨-, fits, -⟩ := fits_of_foldlM other
  rcases source with rfl | ⟨v, mem, rfl⟩
  · exact l.absent_fits
  · exact fits v ((same v).1 mem)

theorem type_infer_congr (name : String) {values others : List Scalar} (same : ∀ v, v ∈ values ↔ v ∈ others) :
    (infer name values).toOption.map type = (infer name others).toOption.map type := by
  have accepted : (∃ c, infer name values = .ok c) ↔ ∃ c, infer name others = .ok c := by
    rw [exists_infer_iff, exists_infer_iff]
    simp only [Uniform, Numeric, same]
  cases first : infer name values with
  | error e =>
    cases second : infer name others with
    | error e' => rfl
    | ok d =>
      obtain ⟨c, made⟩ := accepted.2 ⟨d, second⟩
      cases first.symm.trans made
  | ok c =>
    obtain ⟨d, second⟩ := accepted.1 ⟨c, first⟩
    obtain ⟨k, found, -, type, -⟩ := of_infer first
    obtain ⟨l, other, -, type', -⟩ := of_infer second
    have kind : k = l :=
      (inferKind_fits same found other).antisymm (inferKind_fits (fun v => (same v).symm) other found)
    have types : c.type = d.type := by rw [type, type', kind, CellType.holding_congr same]
    rw [second]
    exact congrArg some types

theorem infer_of_absent (name : String) {values : List Scalar} (none : ∀ v ∈ values, v = .absent) :
    ∃ c, infer name values = .ok c ∧ c.type = if values = [] then .float64 else .missing .float64 := by
  obtain ⟨c, inferred⟩ := exists_infer_iff.2 (.inl fun v mem => .inl (none v mem))
  obtain ⟨k, found, -, type, -⟩ := of_infer inferred
  have kind : k = .absent := by
    obtain ⟨-, -, rfl | ⟨v, mem, rfl⟩⟩ := fits_of_foldlM found
    · rfl
    · rw [none v mem]
      rfl
  refine ⟨c, inferred, ?_⟩
  rw [type, kind]
  cases values with
  | nil => rfl
  | cons v vs =>
    rw [none v List.mem_cons_self]
    rfl

theorem scalarAt_of_infer {name : String} {values : List Scalar} {c : Column}
    (inferred : infer name values = .ok c) {i : Nat} {v : Scalar} (there : values[i]? = some v) :
    (Unmixed values ∨ v.kind ≠ .int64 → c.scalarAt i = .ok v) ∧
      ∀ n, ¬Unmixed values → v = .int64 n → c.scalarAt i = .ok (.float64 (.ofInt n.toInt)) := by
  obtain ⟨k, found, -, -, shown⟩ := of_infer inferred
  have place : (values.map (Scalar.shownAs k))[i]? = some (v.shownAs k) := by
    rw [List.getElem?_map, there, Option.map_some]
  rw [shown.scalarAt place]
  constructor
  · rintro (unmixed | other)
    · rw [Scalar.shownAs_eq_self (uniform_of_inferKind found unmixed v (List.mem_of_getElem? there))]
    · rw [Scalar.shownAs_of_ne_int64 other]
  · rintro n mixed rfl
    obtain ⟨-, x, mem, double⟩ := not_not.1 mixed
    obtain ⟨-, fits, -⟩ := fits_of_foldlM found
    obtain rfl : k = .float64 := by
      rcases (double ▸ fits x mem).eq_or with none | same | ⟨int, -⟩
      · cases none
      · exact same.symm
      · cases int
    rfl

/-- A column is made of values exactly if those that are present are truth values, or texts, or numbers. It has
a place for each of them, admits missing elements if one is absent, and shows each value again; only where there
are both integers and doubles an integer is shown as the nearest double. Neither that there is a column nor its
type depend on the order of the values. -/
theorem infer_lossless (name : String) (values : List Scalar) :
    ((∃ c, infer name values = .ok c) ↔ Uniform .bool values ∨ Uniform .utf8 values ∨ Numeric values) ∧
    (∀ c, infer name values = .ok c →
      c.name = name ∧ c.length = values.length ∧ (c.type.allowsMissing = true ↔ .absent ∈ values) ∧
      ∀ i v, values[i]? = some v →
        (Unmixed values ∨ v.kind ≠ .int64 → c.scalarAt i = .ok v) ∧
        ∀ n, ¬Unmixed values → v = .int64 n →
          c.scalarAt i = .ok (.float64 (.ofInt n.toInt)) ∧ (Binary64.ofInt n.toInt).Nearest n.toInt) ∧
    (∀ others, values.Perm others →
      (infer name values).toOption.map type = (infer name others).toOption.map type) ∧
    ((∀ v ∈ values, v = .absent) →
      ∃ c, infer name values = .ok c ∧ c.type = if values = [] then .float64 else .missing .float64) := by
  refine ⟨exists_infer_iff, ?_, fun others perm => type_infer_congr name fun v => perm.mem_iff,
    infer_of_absent name⟩
  intro c inferred
  obtain ⟨k, -, named, type, shown⟩ := of_infer inferred
  refine ⟨named, ?_, ?_, ?_⟩
  · rw [shown.length, List.length_map]
  · rw [type, CellType.allowsMissing_holding]
  · intro i v there
    obtain ⟨same, widened⟩ := scalarAt_of_infer inferred there
    exact ⟨same, fun n mixed int => ⟨widened n mixed int, Binary64.nearest_ofInt64 n⟩⟩

theorem infer_lossless_positions :
    let values : List Scalar := [.int64 9007199254740993, .absent, .float64 ⟨0x4004000000000000⟩, .int64 (-3)]
    ∃ c, infer "position" values = .ok c ∧ c.length = 4 ∧ c.type.allowsMissing = true ∧
      c.scalarAt 0 = .ok (.float64 ⟨0x4340000000000000⟩) ∧ c.scalarAt 1 = .ok .absent ∧
      c.scalarAt 2 = .ok (.float64 ⟨0x4004000000000000⟩) ∧ c.scalarAt 3 = .ok (.float64 ⟨0xC008000000000000⟩) ∧
      (infer "position" values.reverse).toOption.map type = some c.type := by
  intro values
  obtain ⟨accepted, accounts, order, -⟩ := infer_lossless "position" values
  have numeric : Numeric values := by simp [Numeric, values, Scalar.kind]
  have mixed : ¬Unmixed values := by simp [Unmixed, values, Scalar.kind]
  obtain ⟨c, inferred⟩ := accepted.2 (.inr (.inr numeric))
  obtain ⟨-, length, gaps, shown⟩ := accounts c inferred
  refine ⟨c, inferred, length, gaps.2 (by decide), ?_, ?_, ?_, ?_, ?_⟩
  · exact ((shown 0 _ rfl).2 _ mixed rfl).1
  · exact (shown 1 _ rfl).1 (.inr (by decide))
  · exact (shown 2 _ rfl).1 (.inr (by decide))
  · exact ((shown 3 _ rfl).2 _ mixed rfl).1
  · rw [← order _ values.reverse_perm.symm, inferred]
    rfl

end Column

end Tabular
