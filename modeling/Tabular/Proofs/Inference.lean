import Tabular.Column.Inference
import Tabular.Proofs.Gather

/-! Columns typed by the values they are to hold. The kind that is found is one into which every value fits,
and it is found if there is one. The column shows the values it was made of, absent ones and doubles of every
kind included, unless integers have to become doubles. -/

namespace Tabular

namespace Kind

/-- Values of the first kind can stand in a column of the second. -/
def Fits (a b : Kind) : Prop := a.join? b = some b

instance (a b : Kind) : Decidable (a.Fits b) := inferInstanceAs (Decidable (_ = _))

theorem Fits.trans {a b c : Kind} (first : a.Fits b) (second : b.Fits c) : a.Fits c := by
  revert first second
  cases a <;> cases b <;> cases c <;> decide

theorem join?_eq_some {a b c : Kind} (joined : a.join? b = some c) :
    a.Fits c ∧ b.Fits c ∧ (c = a ∨ c = b) := by
  revert joined
  cases a <;> cases b <;> cases c <;> decide

theorem Fits.exists_join? {a b k : Kind} (left : a.Fits k) (right : b.Fits k) :
    ∃ c, a.join? b = some c ∧ c.Fits k := by
  revert left right
  cases a <;> cases b <;> cases k <;> decide

theorem absent_fits (k : Kind) : absent.Fits k := rfl

theorem Fits.refl (k : Kind) : k.Fits k := by cases k <;> rfl

theorem Fits.eq_or {a b : Kind} (fits : a.Fits b) :
    a = absent ∨ a = b ∨ a = int64 ∧ b = float64 := by
  revert fits
  cases a <;> cases b <;> decide

end Kind

@[simp] theorem Scalar.kind_eq_absent_iff {v : Scalar} : v.kind = .absent ↔ v = .absent := by
  cases v <;> simp [Scalar.kind]

theorem Scalar.any_isAbsent_iff {values : List Scalar} : values.any isAbsent = true ↔ .absent ∈ values := by
  simp only [List.any_eq_true, isAbsent_iff, exists_eq_right]

/-- All values that are present are of one kind. -/
def Uniform (k : Kind) (values : List Scalar) : Prop := ∀ v ∈ values, v = .absent ∨ v.kind = k

theorem Uniform.fits {k : Kind} {values : List Scalar} (uniform : Uniform k values) :
    ∀ v ∈ values, v.kind.Fits k := by
  intro v mem
  rcases uniform v mem with rfl | rfl
  · exact k.absent_fits
  · exact .refl v.kind

/-- There are not both integers and doubles. -/
def Unmixed (values : List Scalar) : Prop :=
  ¬((∃ v ∈ values, v.kind = .int64) ∧ ∃ v ∈ values, v.kind = .float64)

theorem Uniform.unmixed {k : Kind} {values : List Scalar} (uniform : Uniform k values) : Unmixed values := by
  rintro ⟨⟨u, uMem, int⟩, v, vMem, double⟩
  have isInt : u.kind = k := (uniform u uMem).resolve_left (by rintro rfl; cases int)
  have isDouble : v.kind = k := (uniform v vMem).resolve_left (by rintro rfl; cases double)
  rw [int] at isInt
  rw [double, ← isInt] at isDouble
  cases isDouble

namespace Column

theorem joinKinds_eq_ok_iff {sofar k : Kind} {v : Scalar} :
    joinKinds sofar v = .ok k ↔ sofar.join? v.kind = some k := by
  rw [joinKinds]
  split
  · next k' joined => rw [joined, Except.ok.injEq, Option.some.injEq]
  · next none => simp [none]

theorem fits_of_foldlM {sofar k : Kind} {values : List Scalar}
    (found : values.foldlM joinKinds sofar = .ok k) :
    sofar.Fits k ∧ (∀ v ∈ values, v.kind.Fits k) ∧ (k = sofar ∨ ∃ v ∈ values, v.kind = k) := by
  induction values generalizing sofar with
  | nil =>
    cases found
    refine ⟨?_, nofun, .inl rfl⟩
    cases k <;> rfl
  | cons v vs ih =>
    rw [List.foldlM_cons] at found
    obtain ⟨next, joined, found⟩ := bind_eq_ok_iff.1 found
    obtain ⟨before, value, either⟩ := Kind.join?_eq_some (joinKinds_eq_ok_iff.1 joined)
    obtain ⟨fits, all, source⟩ := ih found
    refine ⟨before.trans fits, List.forall_mem_cons.2 ⟨value.trans fits, all⟩, ?_⟩
    rcases source with rfl | ⟨u, mem, rfl⟩
    · rcases either with same | same
      · exact .inl same
      · exact .inr ⟨v, List.mem_cons_self, same.symm⟩
    · exact .inr ⟨u, List.mem_cons_of_mem _ mem, rfl⟩

theorem foldlM_of_fits {sofar k : Kind} {values : List Scalar} (start : sofar.Fits k)
    (fits : ∀ v ∈ values, v.kind.Fits k) : ∃ found, values.foldlM joinKinds sofar = .ok found := by
  induction values generalizing sofar with
  | nil => exact ⟨sofar, rfl⟩
  | cons v vs ih =>
    obtain ⟨value, rest⟩ := List.forall_mem_cons.1 fits
    obtain ⟨next, joined, start⟩ := start.exists_join? value
    obtain ⟨found, later⟩ := ih start rest
    exact ⟨found, by rw [List.foldlM_cons, joinKinds_eq_ok_iff.2 joined, ok_bind, later]⟩

theorem exists_inferKind_iff {values : List Scalar} :
    (∃ k, inferKind values = .ok k) ↔ ∃ k, ∀ v ∈ values, v.kind.Fits k :=
  ⟨fun ⟨k, found⟩ => ⟨k, (fits_of_foldlM found).2.1⟩, fun ⟨k, fits⟩ => foldlM_of_fits k.absent_fits fits⟩

theorem uniform_of_inferKind {k : Kind} {values : List Scalar} (found : inferKind values = .ok k)
    (unmixed : Unmixed values) : Uniform k values := by
  obtain ⟨-, fits, source⟩ := fits_of_foldlM found
  intro v mem
  rcases (fits v mem).eq_or with none | same | ⟨int, rfl⟩
  · exact .inl (Scalar.kind_eq_absent_iff.1 none)
  · exact .inr same
  · rcases source with nothing | double
    · cases nothing
    · exact absurd ⟨⟨v, mem, int⟩, double⟩ unmixed

end Column

/-- A value as a column for values of a kind shows it: among doubles an integer is a double too. -/
def Scalar.shownAs : Kind → Scalar → Scalar
  | .float64, int64 n => .float64 (.ofInt n.toInt)
  | _, v => v

theorem Scalar.shownAs_eq_self {k : Kind} {v : Scalar} (same : v = .absent ∨ v.kind = k) : v.shownAs k = v := by
  rcases same with rfl | rfl
  · cases k <;> rfl
  · cases v <;> rfl

theorem Scalar.shownAs_of_ne_int64 {k : Kind} {v : Scalar} (other : v.kind ≠ .int64) : v.shownAs k = v := by
  cases v with
  | int64 n => exact absurd rfl other
  | _ => cases k <;> rfl

theorem Uniform.map_shownAs {k : Kind} {values : List Scalar} (uniform : Uniform k values) :
    values.map (Scalar.shownAs k) = values :=
  (List.map_congr_left fun v mem => Scalar.shownAs_eq_self (uniform v mem)).trans (List.map_id values)

/-- The type of a column for values of a kind, some of which are absent or none. -/
def CellType.holding (k : Kind) (values : List Scalar) : CellType :=
  if values.any Scalar.isAbsent then .missing k.cellType else k.cellType

namespace Cell

theorem exists_ofScalar?_kind {v : Scalar} (present : v ≠ .absent) :
    ∃ c, ofScalar? v.kind.cellType v = some c ∧ toScalar? v.kind.cellType c = some v := by
  cases v with
  | absent => exact absurd rfl present
  | bool b => exact ⟨b, rfl, rfl⟩
  | int64 n =>
    have inside : IntWidth.i64.lowest ≤ n.toInt ∧ n.toInt ≤ IntWidth.i64.highest :=
      ⟨n.le_toInt, n.toInt_le⟩
    refine ⟨⟨n.toInt, inside⟩, dif_pos inside, ?_⟩
    exact congrArg (some ∘ Scalar.int64) n.ofInt_toInt
  | float64 x => exact ⟨x, rfl, rfl⟩
  | utf8 s => exact ⟨s, rfl, rfl⟩

theorem exists_ofScalar?_cellType {k : Kind} {v : Scalar} (present : v ≠ .absent) (fits : v.kind.Fits k) :
    ∃ c, ofScalar? k.cellType v = some c ∧ toScalar? k.cellType c = some (v.shownAs k) := by
  rcases fits.eq_or with none | rfl | ⟨int, rfl⟩
  · exact absurd (Scalar.kind_eq_absent_iff.1 none) present
  · rw [Scalar.shownAs_eq_self (.inr rfl)]
    exact exists_ofScalar?_kind present
  · cases v with
    | int64 n => exact ⟨.ofInt n.toInt, rfl, rfl⟩
    | _ => cases int

theorem ofScalar?_missing {t : CellType} {v : Scalar} (present : v ≠ .absent) :
    ofScalar? (.missing t) v = (ofScalar? t v).map some := by
  cases v <;> first | rfl | exact absurd rfl present

theorem exists_ofScalar?_holding {k : Kind} {values : List Scalar} {v : Scalar} (fits : v.kind.Fits k)
    (mem : v ∈ values) :
    ∃ c, ofScalar? (.holding k values) v = some c ∧ toScalar? (.holding k values) c = some (v.shownAs k) := by
  by_cases absent : v = .absent
  · have gaps : values.any Scalar.isAbsent = true := Scalar.any_isAbsent_iff.2 (absent ▸ mem)
    rw [CellType.holding, if_pos gaps, Scalar.shownAs_eq_self (.inl absent), absent]
    exact ⟨none, rfl, rfl⟩
  · obtain ⟨c, taken, shown⟩ := exists_ofScalar?_cellType absent fits
    by_cases gaps : values.any Scalar.isAbsent = true
    · rw [CellType.holding, if_pos gaps]
      exact ⟨some c, by rw [ofScalar?_missing absent, taken]; rfl, shown⟩
    · rw [CellType.holding, if_neg gaps]
      exact ⟨c, taken, shown⟩

end Cell

namespace Column

/-- The elements of a column, as scalars, are these. -/
def Shows (c : Column) (values : List Scalar) : Prop :=
  c.buffer.items.map (Cell.toScalar? c.type) = values.map some

theorem Shows.length {c : Column} {values : List Scalar} (shows : c.Shows values) :
    c.length = values.length := by
  have counted := congrArg List.length shows
  rwa [List.length_map, List.length_map] at counted

theorem Shows.scalarAt {c : Column} {values : List Scalar} (shows : c.Shows values) {i : Nat} {v : Scalar}
    (there : values[i]? = some v) : c.scalarAt i = .ok v := by
  have place := congrArg (·[i]?) shows
  simp only [List.getElem?_map, there, Option.map_some] at place
  obtain ⟨x, found, shown⟩ := Option.map_eq_some_iff.1 place
  rw [scalarAt_of_getElem? found, Cell.toScalar, shown]

theorem exists_mapM_ofScalar {t : CellType} {values : List Scalar} {shown : Scalar → Scalar}
    (each : ∀ v ∈ values, ∃ c, Cell.ofScalar? t v = some c ∧ Cell.toScalar? t c = some (shown v)) :
    ∃ cells, values.mapM (Cell.ofScalar t) = .ok cells ∧
      cells.map (Cell.toScalar? t) = (values.map shown).map some := by
  induction values with
  | nil => exact ⟨[], rfl, rfl⟩
  | cons v vs ih =>
    obtain ⟨c, taken, first⟩ := each v List.mem_cons_self
    obtain ⟨cells, made, others⟩ := ih fun u mem => each u (List.mem_cons_of_mem _ mem)
    refine ⟨c :: cells, mapM_cons_eq_ok_iff.2 ⟨c, cells, ?_, made, rfl⟩, ?_⟩
    · rw [Cell.ofScalar, taken]
    · rw [List.map_cons, first, others, List.map_cons, List.map_cons]

theorem exists_infer_of_inferKind {k : Kind} {values : List Scalar} (found : inferKind values = .ok k) :
    ∃ cells : List (Cell (.holding k values)), ∀ name,
      infer name values = .ok (.ofList (.holding k values) name cells) ∧
      (ofList (.holding k values) name cells).Shows (values.map (Scalar.shownAs k)) := by
  obtain ⟨-, fits, -⟩ := fits_of_foldlM found
  obtain ⟨cells, made, shown⟩ := exists_mapM_ofScalar fun v mem =>
    Cell.exists_ofScalar?_holding (fits v mem) mem
  refine ⟨cells, fun name => ⟨?_, shown⟩⟩
  have type : inferType values = .ok (.holding k values) := by rw [inferType, found]; rfl
  rw [infer, type, ok_bind, ofScalars, Series.ofScalars, made]
  rfl

theorem exists_infer_of_uniform {k : Kind} {values : List Scalar} (uniform : Uniform k values) :
    ∃ (t : CellType) (cells : List (Cell t)), ∀ name, infer name values = .ok (.ofList t name cells) ∧
      (ofList t name cells).Shows values := by
  obtain ⟨found, inferred⟩ := exists_inferKind_iff.2 ⟨k, uniform.fits⟩
  obtain ⟨cells, made⟩ := exists_infer_of_inferKind inferred
  rw [(uniform_of_inferKind inferred uniform.unmixed).map_shownAs] at made
  exact ⟨.holding found values, cells, made⟩

/-- The type of a column made of values, and what it shows of them. -/
theorem of_infer {name : String} {values : List Scalar} {c : Column} (inferred : infer name values = .ok c) :
    ∃ k, inferKind values = .ok k ∧ c.name = name ∧ c.type = .holding k values ∧
      c.Shows (values.map (Scalar.shownAs k)) := by
  obtain ⟨t, typed, -⟩ := bind_eq_ok_iff.1 inferred
  obtain ⟨k, found, -⟩ := bind_eq_ok_iff.1 typed
  obtain ⟨cells, made⟩ := exists_infer_of_inferKind found
  obtain ⟨same, shown⟩ := made name
  rw [same] at inferred
  cases inferred
  exact ⟨k, found, rfl, rfl, shown⟩

theorem shows_of_infer {name : String} {values : List Scalar} {c : Column}
    (inferred : infer name values = .ok c) (unmixed : Unmixed values) : c.Shows values := by
  obtain ⟨k, found, -, -, shown⟩ := of_infer inferred
  rwa [(uniform_of_inferKind found unmixed).map_shownAs] at shown

end Column

def CellType.kind : CellType → Kind
  | .int _ => .int64
  | .float32 => .float64
  | .float64 => .float64
  | .bool => .bool
  | .text => .utf8
  | .foreign _ => .absent
  | .missing t => t.kind

theorem Cell.admits_of_toScalar? {t : CellType} {x : Cell t} {v : Scalar} (shown : toScalar? t x = some v) :
    v = .absent ∨ v.kind = t.kind := by
  induction t with
  | foreign name => cases shown
  | missing t ih =>
    cases x with
    | none =>
      cases shown
      exact .inl rfl
    | some x => exact ih shown
  | _ =>
    cases shown
    exact .inr rfl

theorem Column.Shows.uniform {c : Column} {values : List Scalar} (shows : c.Shows values) :
    Uniform c.type.kind values := by
  intro v mem
  have shown : some v ∈ c.buffer.items.map (Cell.toScalar? c.type) := by
    rw [shows]
    exact List.mem_map_of_mem mem
  obtain ⟨x, -, same⟩ := List.mem_map.1 shown
  exact Cell.admits_of_toScalar? same

end Tabular
