import Mathlib.Data.List.Basic
import Tabular.Buffer.Edit

/-! What changes of a buffer do to its elements. Insertion puts the new elements before a position
and moves none of the others; erasing what was inserted gives the elements back. A change that leaves
a shared block alone changes nothing at all. -/

namespace Tabular.Buffer

variable {α : Type}

@[simp] theorem items_append (b : Buffer α) (hint : Nat) (values : List α) :
    (b.append hint values).items = b.items ++ values := by
  suffices pushes : ∀ b : Buffer α, (values.foldl push b).items = b.items ++ values by
    rw [append, pushes, items_reserve]
  induction values with
  | nil => simp
  | cons v vs ih => simp [ih]

theorem rotateRight_append (xs ys : List α) : (xs ++ ys).rotateRight ys.length = ys ++ xs := by
  cases xs with
  | nil => simp [List.rotateRight]
  | cons x xs =>
    simp only [List.rotateRight, List.length_append, List.length_cons]
    split
    · next short =>
      obtain rfl : ys = [] := List.length_eq_zero_iff.1 (by omega)
      simp
    · rw [Nat.mod_eq_of_lt (by omega), Nat.add_sub_cancel, ← List.length_cons (a := x), List.take_left,
        List.drop_left]

theorem items_rotateTail (b : Buffer α) {xs values : List α} {pos : Nat}
    (grown : b.items = xs ++ values) (h : pos ≤ xs.length) :
    (b.rotateTail pos values.length).items = xs.take pos ++ values ++ xs.drop pos := by
  simp only [rotateTail, grown, List.take_append_of_le_length h, List.drop_append_of_le_length h,
    rotateRight_append, List.append_assoc]

theorem insert_of_le {b : Buffer α} {hint pos : Nat} {values : List α} (h : pos ≤ b.length) :
    b.insert hint pos values = .ok (values.length,
      ⟨b.items.take pos ++ values ++ b.items.drop pos, (b.append hint values).capacity⟩) := by
  have count : (b.append hint values).length - b.length = values.length := by simp [length]
  have items := items_rotateTail (b.append hint values) (items_append b hint values) h
  rw [insert, checkPosition, if_pos h]
  simp only [bind, Except.bind, pure, Except.pure, count, ← items]
  rfl

def slice (xs : List α) (first last : Nat) : List α := (xs.drop first).take (last - first)

theorem length_slice {xs : List α} {first last : Nat} (h : last ≤ xs.length) :
    (slice xs first last).length = last - first := by
  simp only [slice, List.length_take, List.length_drop]
  omega

theorem insertWithin_ok {b : Buffer α} {pos first last : Nat} (h : pos ≤ b.length)
    (ordered : first ≤ last) (inside : last ≤ b.length) :
    b.insertWithin pos first last = .ok (last - first,
      ⟨b.items.take pos ++ slice b.items first last ++ b.items.drop pos,
        (b.reserve (b.length + (last - first))).capacity⟩) := by
  let roomy := b.reserve (b.length + (last - first))
  let grown : Buffer α := { roomy with items := b.items ++ slice b.items first last }
  have items := items_rotateTail grown rfl h
  rw [length_slice inside] at items
  rw [insertWithin, checkPosition, if_pos h, checkRange, if_neg (Nat.not_lt.2 ordered),
    if_pos inside]
  simp only [bind, Except.bind, pure, Except.pure, ← items, items_reserve]
  rfl

theorem insertWithin_of_lt {b : Buffer α} {pos first last : Nat} (h : pos ≤ b.length)
    (ordered : first ≤ last) (beyond : b.length < last) :
    b.insertWithin pos first last = .error (.indexOutOfRange last b.length) := by
  rw [insertWithin, checkPosition, if_pos h, checkRange, if_neg (Nat.not_lt.2 ordered),
    if_neg (Nat.not_le.2 beyond)]
  rfl

theorem erase_ok {b : Buffer α} {first last : Nat} (ordered : first ≤ last)
    (inside : last ≤ b.length) :
    b.erase first last =
      .ok (last - first, { b with items := b.items.take first ++ b.items.drop last }) := by
  rw [erase, checkRange, if_neg (Nat.not_lt.2 ordered), if_pos inside]
  rfl

theorem erase_inserted {xs values : List α} {pos : Nat} (h : pos ≤ xs.length) :
    let grown := xs.take pos ++ values ++ xs.drop pos
    grown.take pos ++ grown.drop (pos + values.length) = xs := by
  have left : (xs.take pos).length = pos := List.length_take_of_le h
  have right : (xs.take pos ++ values).length = pos + values.length := by
    rw [List.length_append, left]
  simp only
  rw [List.append_assoc, List.take_left' left, ← List.append_assoc, List.drop_left' right,
    List.take_append_drop]

namespace Edit

/-- The changes that leave even a shared block alone: a write beyond the end, a pop of nothing, and
room that is already there. -/
def Idle (b : Buffer α) : Edit α → Prop
  | set i _ => b.length ≤ i
  | pop => b.items = []
  | reserve n => n ≤ b.capacity
  | _ => False

instance (b : Buffer α) : (e : Edit α) → Decidable (e.Idle b)
  | set i _ => inferInstanceAs (Decidable (b.length ≤ i))
  | pop => inferInstanceAs (Decidable (b.items = []))
  | reserve n => inferInstanceAs (Decidable (n ≤ b.capacity))
  | write .. | push _ | insert .. | insertWithin .. | erase .. | resize _ | resizeWith .. | clear =>
    .isFalse id

theorem idle_of_not_claims {b : Buffer α} {e : Edit α} (h : e.claims b = false)
    (stays : e ≠ .clear) : e.Idle b := by
  cases e with
  | set i x => simpa [claims, Idle] using h
  | pop => simpa [claims, Idle, isEmpty] using h
  | reserve n => simpa [claims, Idle] using h
  | clear => exact absurd rfl stays
  | _ => simp [claims] at h

theorem claims_of_not_idle {b : Buffer α} {e : Edit α} (h : ¬ e.Idle b) (stays : e ≠ .clear) :
    e.claims b = true := by
  by_contra unclaimed
  exact h (idle_of_not_claims (Bool.eq_false_iff.2 unclaimed) stays)

theorem run_of_idle {default : Except Error α} {b after : Buffer α} {e : Edit α} {reply : Reply α}
    (idle : e.Idle b) (h : e.run default b = .ok (reply, after)) : after = b := by
  cases e with
  | set i x =>
    rw [run, Buffer.set, if_neg (Nat.not_lt.2 idle)] at h
    cases h
  | pop =>
    have nothing : b.items = [] := idle
    simp only [run, Buffer.pop, Except.ok.injEq, Prod.mk.injEq] at h
    obtain ⟨items, capacity⟩ := b
    obtain rfl : items = [] := nothing
    exact h.2.symm
  | reserve n =>
    simp only [run, Buffer.reserve, if_pos (show n ≤ b.capacity from idle), Except.ok.injEq,
      Prod.mk.injEq] at h
    exact h.2.symm
  | _ => exact idle.elim

end Edit

end Tabular.Buffer
