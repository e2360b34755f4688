import Mathlib.Data.List.InsertIdx
import Tabular.Expr.Select
import Tabular.Proofs.Inference
import Tabular.Proofs.Windows

/-! Columns computed by expressions. An expression that reads such a column has the values it would have if
it did the computation itself, and fails as it would then: the values pass through the column unchanged, and
the other columns and the rows in sight are those that were there before. -/

namespace Tabular

namespace Expr

mutual

/-- The columns an expression reads, each with the offset at which it is read. -/
def references : Expr → List (Nat × Int)
  | constant _ => []
  | column index offset => [(index, offset)]
  | unary _ operand => operand.references
  | binary _ left right => left.references ++ right.references
  | call _ _ arguments => referencesAll arguments
  | rowNumber => []
  | frameLength => []

def referencesAll : List Expr → List (Nat × Int)
  | [] => []
  | e :: es => e.references ++ referencesAll es

end

mutual

/-- An expression for every reference to a column. -/
def substitute (σ : Nat → Int → Expr) : Expr → Expr
  | constant value => constant value
  | column index offset => σ index offset
  | unary op operand => unary op (operand.substitute σ)
  | binary op left right => binary op (left.substitute σ) (right.substitute σ)
  | call name function arguments => call name function (substituteAll σ arguments)
  | rowNumber => rowNumber
  | frameLength => frameLength

def substituteAll (σ : Nat → Int → Expr) : List Expr → List Expr
  | [] => []
  | e :: es => e.substitute σ :: substituteAll σ es

end

/-- The expression itself for the column it computes, which is the one at `position`. The columns after that
are where they would be without it. -/
def inPlaceOf (e : Expr) (position index : Nat) (offset : Int) : Expr :=
  if index = position then e else column (if index < position then index else index - 1) offset

section Substitution

variable {f g : Frame} {w : Window} {σ : Nat → Int → Expr}

mutual

theorem evaluate_substitute : ∀ e : Expr,
    (∀ r ∈ e.references, readColumn g w r.1 r.2 = evaluate f w (σ r.1 r.2)) →
    evaluate g w e = evaluate f w (e.substitute σ)
  | constant value, _ => by simp only [evaluate, substitute]
  | column index offset, agrees => by
    simpa only [evaluate, substitute] using agrees _ List.mem_cons_self
  | unary op operand, agrees => by
    simp only [evaluate, substitute, evaluate_substitute operand agrees]
  | binary op left right, agrees => by
    have agrees := List.forall_mem_append.1 agrees
    simp only [evaluate, substitute, evaluate_substitute left agrees.1, evaluate_substitute right agrees.2]
  | call name function arguments, agrees => by
    simp only [evaluate, substitute, evaluateAll_substitute arguments agrees]
  | rowNumber, _ => by simp only [evaluate, substitute]
  | frameLength, _ => by simp only [evaluate, substitute]

theorem evaluateAll_substitute : ∀ es : List Expr,
    (∀ r ∈ referencesAll es, readColumn g w r.1 r.2 = evaluate f w (σ r.1 r.2)) →
    evaluateAll g w es = evaluateAll f w (substituteAll σ es)
  | [], _ => by simp only [evaluateAll, substituteAll]
  | e :: es, agrees => by
    have agrees := List.forall_mem_append.1 agrees
    simp only [evaluateAll, substituteAll, evaluate_substitute e agrees.1,
      evaluateAll_substitute es agrees.2]

end

end Substitution

end Expr

def Placement.position (width : Nat) : Placement → Nat
  | .append => width
  | .prepend => 0

namespace Frame

variable {f g : Frame} {n : Nat}

/-- A column was put in before `position`. -/
structure Extends (f : Frame) (position : Nat) (c : Column) (g : Frame) : Prop where
  columns : g.columns = f.columns.insertIdx position c
  inside : position ≤ f.width

theorem extends_of_insertColumn {position : Nat} {c : Column}
    (done : f.insertColumn position c = (.ok (), g)) : f.Extends position c g := by
  rw [insertColumn] at done
  split at done
  · next accepted =>
    cases done
    refine ⟨rfl, ?_⟩
    by_contra beyond
    rw [checkNewColumn, if_pos (Nat.not_le.1 beyond)] at accepted
    cases accepted
  · cases done

theorem extends_of_place {placement : Placement} {c : Column}
    (done : f.place c placement = (.ok (), g)) : f.Extends (placement.position f.width) c g := by
  cases placement with
  | append => exact extends_of_insertColumn done
  | prepend => exact extends_of_insertColumn done

namespace Extends

variable {position : Nat} {c : Column} (extension : f.Extends position c g)

include extension

theorem size (sized : f.size = .ok n) (long : c.length = n) : g.size = .ok n := by
  have has := size_eq_ok_iff.1 sized
  refine size_eq_ok_iff.2 ⟨fun d mem => ?_, fun none => ?_⟩
  · rw [extension.columns] at mem
    rcases List.eq_or_mem_of_mem_insertIdx mem with rfl | mem
    · exact long
    · exact has.length d mem
  · have there : c ∈ g.columns := by
      rw [extension.columns]
      exact List.mem_insertIdx extension.inside |>.2 (.inl rfl)
    rw [none] at there
    cases there

theorem column_self : g.column position = .ok c := by
  have there : g.columns[position]? = some c := by
    rw [extension.columns, List.getElem?_insertIdx_self]
    exact if_pos extension.inside
  rw [column, there]

theorem column_of_ne {index : Nat} (other : index ≠ position) (reach : index ≤ f.width) :
    g.column index = f.column (if index < position then index else index - 1) := by
  have inside := extension.inside
  have place : g.columns[index]? = f.columns[if index < position then index else index - 1]? := by
    rw [extension.columns, List.getElem?_insertIdx, if_neg other]
    split <;> rfl
  have there : (if index < position then index else index - 1) < f.columns.length := by
    unfold width at inside reach
    split <;> omega
  rw [column, column, place, List.getElem?_eq_getElem there]

end Extends

end Frame

namespace Expr

open Tabular.Frame (HasRows Extends)

variable {f g : Frame} {n : Nat} {e : Expr} {values : List Scalar}

theorem evaluate_of_apply (sized : f.size = .ok n) (known : e.apply f = .ok values) :
    values.length = n ∧
      ∀ w : Window, w.first = 0 → w.last = n → ∃ v, values[w.current]? = some v ∧ evaluate f w e = .ok v := by
  rw [apply_eq sized] at known
  have counted := length_mapM known
  rw [List.length_range] at counted
  refine ⟨counted, fun w start stop => ?_⟩
  have below := w.lt_last
  rw [stop, ← counted] at below
  have there := List.getElem?_eq_getElem below
  obtain ⟨row, place, value⟩ := exists_of_getElem?_mapM known there
  obtain ⟨_, rfl⟩ := List.getElem?_eq_some_iff.1 place
  have standing : Window.of 0 w.current n = .ok w := by rw [← start, ← stop, w.of_eq_ok]
  rw [List.getElem_range, standing, ok_bind] at value
  exact ⟨_, there, value⟩

section Derived

variable {position : Nat} {c : Column} (extension : f.Extends position c g) (sized : f.size = .ok n)
  (known : e.apply f = .ok values) (shown : c.Shows values)

include extension sized known shown

theorem readColumn_inPlaceOf {w : Window} (start : w.first = 0) (stop : w.last = n) {index : Nat}
    {offset : Int} (reach : index ≤ f.width) (here : index = position → offset = 0) :
    readColumn g w index offset = evaluate f w (e.inPlaceOf position index offset) := by
  rw [inPlaceOf]
  split
  · next same =>
    obtain ⟨v, there, value⟩ := (evaluate_of_apply sized known).2 w start stop
    rw [here same, same, value, readColumn, extension.column_self, ok_bind, w.target?_zero]
    exact shown.scalarAt there
  · next other => rw [evaluate, readColumn, readColumn, extension.column_of_ne other reach]

end Derived

/-- Let a column be computed by an expression, and let the values not be integers and doubles both. Whatever
reads this column only in the current row comes, on the frame with the column, to what it comes to on the
frame without it when it does the computation itself, on every row or with the same failure. -/
theorem apply_of_derive {name : String} {placement : Placement} (known : e.apply f = .ok values)
    (unmixed : Unmixed values) (derived : f.derive name e placement = (.ok (), g)) (reader : Expr)
    (reach : ∀ r ∈ reader.references,
      r.1 ≤ f.width ∧ (r.1 = placement.position f.width → r.2 = 0)) :
    reader.apply g = (reader.substitute (e.inPlaceOf (placement.position f.width))).apply f := by
  obtain ⟨n, sized, -⟩ := bind_eq_ok_iff.1 known
  obtain ⟨c, extension, shown⟩ :
      ∃ c, f.Extends (placement.position f.width) c g ∧ c.Shows values := by
    rw [Frame.derive, Frame.deriveWith, known] at derived
    split at derived
    · next c inferred => exact ⟨c, Frame.extends_of_place derived, Column.shows_of_infer inferred unmixed⟩
    · cases derived
  have counted := (evaluate_of_apply sized known).1
  have sized' := extension.size sized (shown.length.trans counted)
  have each (row : Nat) : (Window.of 0 row n >>= fun w => evaluate g w reader) =
      Window.of 0 row n >>= fun w =>
        evaluate f w (reader.substitute (e.inPlaceOf (placement.position f.width))) := by
    by_cases inside : 0 ≤ row ∧ row < n
    · let w : Window := ⟨0, row, n, inside.1, inside.2⟩
      have standing : Window.of 0 row n = .ok w := w.of_eq_ok
      rw [standing]
      exact evaluate_substitute reader fun r mem =>
        readColumn_inPlaceOf extension sized known shown rfl rfl (reach r mem).1 (reach r mem).2
    · rw [Window.of, dif_neg inside]
      rfl
  rw [apply, apply, sized, sized', ok_bind, ok_bind,
    evaluateRange_of_le sized' (Nat.zero_le _) (Nat.le_refl _),
    evaluateRange_of_le sized (Nat.zero_le _) (Nat.le_refl _)]
  simp only [each]

private def visits : Frame :=
  ⟨[.ofList .text "guest" ["ann", "bob", "bob"],
    .ofList (.missing .bool) "paid" [some true, none, some false]], none⟩

private def regular : Expr :=
  .binary (.connective .and) (col 1) (.binary (.comparison .eq) (col 0) (lag 0 1))

private def settled : Expr :=
  .call "settled" (fun values => .ok ((values.find? fun v => !v.isAbsent).getD .absent)) [col 0, lead 2 1]

theorem apply_of_derive_visits :
    regular.apply visits = .ok [.bool false, .absent, .bool false] ∧
    Unmixed [.bool false, .absent, .bool false] ∧
    (∀ r ∈ settled.references, r.1 ≤ visits.width ∧ (r.1 = Placement.prepend.position visits.width → r.2 = 0)) ∧
    ∃ g, visits.derive "regular" regular .prepend = (.ok (), g) ∧
      settled.apply g = .ok [.bool false, .bool false, .bool false] ∧
      settled.apply g = (settled.substitute (regular.inPlaceOf 0)).apply visits := by
  have known : regular.apply visits = .ok [.bool false, .absent, .bool false] := rfl
  have unmixed : Unmixed [.bool false, .absent, .bool false] := by simp [Unmixed, Scalar.kind]
  have reach : ∀ r ∈ settled.references,
      r.1 ≤ visits.width ∧ (r.1 = Placement.prepend.position visits.width → r.2 = 0) := by decide
  have derived : visits.derive "regular" regular .prepend =
      (.ok (), (visits.derive "regular" regular .prepend).2) := rfl
  exact ⟨known, unmixed, reach, _, derived, rfl, apply_of_derive known unmixed derived settled reach⟩

end Expr

end Tabular
