import Mathlib.Order.Bounds.Basic
import Tabular.Proofs.BufferRuns
import Tabular.Proofs.Except

/-! The room of a buffer. There is none, or it is a power of two; it holds the elements, and only `clear` gives it
up. Where elements are added it stays if they fit, and otherwise it becomes the least power of two that holds them.
Room that is made in several turns comes to the room that is made at once, so that it does not matter how many of
its elements an iterator promises before they arrive. -/

namespace Tabular.Buffer

variable {α : Type}

/-- Sizes are below this one. It is the greatest power of two that a machine word can state. -/
def sizeLimit : Nat := 1 <<< 63

/-- The least power of two that is not below `n`. -/
def LeastPower (n c : Nat) : Prop := IsLeast {c | c.isPowerOfTwo ∧ n ≤ c} c

theorem leastPower_powerAbove (n : Nat) : LeastPower n (powerAbove n) := by
  refine ⟨⟨?_, le_powerAbove n⟩, ?_⟩
  · rw [powerAbove]
    split
    · exact Nat.isPowerOfTwo_one
    · exact ⟨_, Nat.one_shiftLeft _⟩
  · rintro _ ⟨⟨e, rfl⟩, above⟩
    rw [powerAbove]
    split
    · exact Nat.one_le_two_pow
    · have below : (n - 1).log2 < e := (Nat.log2_lt (by omega)).2 (by omega)
      rw [Nat.one_shiftLeft]
      exact Nat.pow_le_pow_right Nat.two_pos below

theorem LeastPower.between {n m c : Nat} (least : LeastPower n c) (above : n ≤ m) (below : m ≤ c) :
    LeastPower m c :=
  ⟨⟨least.1.1, below⟩, fun _ power => least.2 ⟨power.1, above.trans power.2⟩⟩

theorem leastPower_blockSize {n : Nat} (small : n ≤ sizeLimit) : LeastPower n (blockSize n) := by
  have least := leastPower_powerAbove n
  have most : powerAbove n ≤ sizeLimit := least.2 ⟨⟨63, rfl⟩, small⟩
  rwa [blockSize, min_eq_right (most.trans (by decide))]

/-- What becomes of a block of `before` places that is to hold `needed` elements. It stays if it is large enough;
if it does not, it is a new one for so many elements, and if there was none before for a first block at least. -/
def Provides (before needed after : Nat) : Prop :=
  if needed ≤ before then after = before
  else LeastPower (if before = 0 then max needed firstCapacity else needed) after

namespace Provides

variable {c c' c'' n m : Nat}

theorem of_le (fits : n ≤ c) : Provides c n c := by
  rw [Provides, if_pos fits]

theorem enough (provides : Provides c n c') : n ≤ c' := by
  rw [Provides] at provides
  split at provides
  · next fits => rwa [provides]
  · refine le_trans ?_ provides.1.2
    split <;> omega

theorem le (provides : Provides c n c') : c ≤ c' := by
  by_cases fits : n ≤ c
  · rw [Provides, if_pos fits] at provides
    exact provides.ge
  · exact (not_le.1 fits).le.trans provides.enough

theorem unique (provides : Provides c n c') (other : Provides c n c'') : c' = c'' := by
  rw [Provides] at provides other
  split at provides
  · next fits =>
    rw [if_pos fits] at other
    rw [provides, other]
  · next tight =>
    rw [if_neg tight] at other
    exact IsLeast.unique provides other

theorem trans (first : Provides c n c') (second : Provides c' m c'') : Provides c (max n m) c'' := by
  have enough := first.enough
  have grown := first.le
  by_cases fits : m ≤ c'
  · rw [Provides, if_pos fits] at second
    subst second
    rw [Provides] at first ⊢
    by_cases room : n ≤ c
    · rw [if_pos room] at first
      rwa [if_pos (by omega)]
    · rw [if_neg room] at first
      rw [if_neg (by omega)]
      by_cases none : c = 0
      · rw [if_pos none] at first ⊢
        have block : max n firstCapacity ≤ c'' := first.1.2
        exact first.between (by omega) (by omega)
      · rw [if_neg none] at first ⊢
        exact first.between (by omega) (by omega)
  · have more : max n m = m := by omega
    rw [Provides, if_neg fits] at second
    rw [more, Provides, if_neg (by omega)]
    by_cases none : c' = 0
    · have before : c = 0 := by omega
      rw [if_pos none] at second
      rwa [if_pos before]
    · rw [if_neg none] at second
      split
      · next nothing =>
        -- The first block has been made by now, and `m` elements are more than it holds.
        have grew : ¬n ≤ c := fun room => none (by rw [Provides, if_pos room] at first; omega)
        rw [Provides, if_neg grew, if_pos nothing] at first
        have block : max n firstCapacity ≤ c' := first.1.2
        have beyond : firstCapacity ≤ m := by omega
        rwa [max_eq_left beyond]
      · exact second

theorem power (provides : Provides c n c') (before : c = 0 ∨ c.isPowerOfTwo) : c' = 0 ∨ c'.isPowerOfTwo := by
  rw [Provides] at provides
  split at provides
  · rwa [provides]
  · exact .inr provides.1.1

end Provides

theorem provides_reserve (b : Buffer α) {n : Nat} (small : n < sizeLimit) :
    Provides b.capacity n (b.reserve n).capacity := by
  rw [Provides, reserve]
  split
  · rfl
  · refine leastPower_blockSize ?_
    split
    · exact max_le small.le (by decide)
    · exact small.le

/-- The room is none or a power of two, and the elements are in it. -/
structure Fitted (b : Buffer α) : Prop where
  power : b.capacity = 0 ∨ b.capacity.isPowerOfTwo
  room : b.length ≤ b.capacity

theorem provides_foldl_push {b : Buffer α} (values : List α) (room : b.length ≤ b.capacity)
    (small : b.length + values.length < sizeLimit) :
    Provides b.capacity (b.length + values.length) (values.foldl push b).capacity := by
  induction values generalizing b with
  | nil => exact .of_le room
  | cons v vs ih =>
    rw [List.length_cons] at small ⊢
    have one : Provides b.capacity (b.length + 1) (b.push v).capacity := provides_reserve b (by omega)
    have length : (b.push v).length = b.length + 1 := by simp [Buffer.length]
    have others := one.trans (ih (length ▸ one.enough) (by omega))
    rwa [length, max_eq_right (by omega), Nat.add_assoc, Nat.add_comm 1] at others

theorem provides_append {b : Buffer α} (hint : Nat) (values : List α) (room : b.length ≤ b.capacity)
    (small : b.length + max hint values.length < sizeLimit) :
    Provides b.capacity (b.length + max hint values.length) (b.append hint values).capacity := by
  have promised := b.provides_reserve (n := b.length + hint) (by omega)
  have length := b.length_reserve (b.length + hint)
  have arrived := provides_foldl_push (b := b.reserve (b.length + hint)) values
    (by rw [length]; exact room.trans promised.le) (by omega)
  rw [length] at arrived
  have both := promised.trans arrived
  rwa [Nat.add_max_add_left] at both

theorem length_append (b : Buffer α) (hint : Nat) (values : List α) :
    (b.append hint values).length = b.length + values.length := by
  simp [length]

theorem append_hint {b : Buffer α} {hint hint' : Nat} {values : List α} (room : b.length ≤ b.capacity)
    (small : b.length + values.length < sizeLimit) (honest : hint ≤ values.length)
    (honest' : hint' ≤ values.length) : b.append hint values = b.append hint' values := by
  have provided (h : Nat) (promised : h ≤ values.length) :
      Provides b.capacity (b.length + values.length) (b.append h values).capacity := by
    have made := provides_append h values room (by rwa [max_eq_right promised])
    rwa [max_eq_right promised] at made
  have items : (b.append hint values).items = (b.append hint' values).items := by simp
  have capacity := (provided hint honest).unique (provided hint' honest')
  calc b.append hint values = ⟨(b.append hint values).items, (b.append hint values).capacity⟩ := rfl
    _ = b.append hint' values := by rw [items, capacity]

namespace Operation

def asked (b : Buffer α) : Operation α → Nat
  | edit (.reserve n) => n
  | edit (.push _) => b.length + 1
  | edit (.insert hint _ values) => b.length + max hint values.length
  | edit (.insertWithin _ first last) => b.length + (last - first)
  | edit (.resize n) => n
  | edit (.resizeWith n _ _) => n
  | resizeWith n _ => n
  | _ => 0

def Adds : Operation α → Prop
  | edit (.push _) | edit (.insert ..) | edit (.insertWithin ..) => True
  | edit (.resize _) | edit (.resizeWith ..) | resizeWith .. => True
  | _ => False

def Honest : Operation α → Prop
  | edit (.insert hint _ values) => hint ≤ values.length
  | _ => True

/-- What an operation leaves that is neither refused nor `clear`. -/
structure Leaves (b : Buffer α) (op : Operation α) (after : Buffer α) : Prop where
  provides : Provides b.capacity (op.asked b) after.capacity
  length : after.length ≤ max b.length (op.asked b)
  added : op.Adds → op.Honest → after.length = op.asked b

section Leaves

variable {default : Except Error α} {b after : Buffer α} {op : Operation α}

theorem leaves_of_le (nothing : op.asked b = 0) (other : ¬op.Adds) (same : after.capacity = b.capacity)
    (length : after.length ≤ b.length) : Leaves b op after := by
  refine ⟨?_, by omega, fun adds => absurd adds other⟩
  rw [nothing, same]
  exact .of_le (Nat.zero_le _)

theorem leaves_of_eq (provides : Provides b.capacity (op.asked b) after.capacity)
    (length : after.length = op.asked b) : Leaves b op after :=
  ⟨provides, length ▸ le_max_right _ _, fun _ _ => length⟩

theorem provides_resizeWith (fitted : Fitted b) {n : Nat} (small : n < sizeLimit) (fill : Nat → α) :
    Provides b.capacity n (b.resizeWith n fill).capacity ∧ (b.resizeWith n fill).length = n := by
  have length : (b.resizeWith n fill).length = n := by
    simp only [Buffer.length, items_resizeWith, List.length_append, List.length_take, List.length_map,
      List.length_range]
    omega
  refine ⟨?_, length⟩
  rw [Buffer.resizeWith]
  split
  · next shorter => exact .of_le (shorter.le.trans fitted.room)
  · exact b.provides_reserve small

theorem leaves_resize (fitted : Fitted b) {n : Nat} (small : n < sizeLimit)
    (resized : b.resize default n = .ok after) : Leaves b (edit (.resize n)) after := by
  rw [resize] at resized
  split at resized
  · next shorter =>
    cases resized
    refine leaves_of_eq (.of_le (shorter.trans fitted.room)) ?_
    simpa [Buffer.length, asked] using shorter
  · next longer =>
    obtain ⟨fill, -, same⟩ := bind_eq_ok_iff.1 resized
    cases same
    refine leaves_of_eq (b.provides_reserve small) ?_
    simp only [Buffer.length, asked, items_reserve, List.length_append, List.length_replicate] at longer ⊢
    omega

theorem of_checkPosition {pos : Nat} {u : Unit} (checked : b.checkPosition pos = .ok u) : pos ≤ b.length := by
  rw [checkPosition] at checked
  split at checked
  · assumption
  · cases checked

theorem of_checkRange {first last : Nat} {u : Unit} (checked : b.checkRange first last = .ok u) :
    first ≤ last ∧ last ≤ b.length := by
  rw [checkRange] at checked
  split at checked
  · cases checked
  split at checked
  · next ordered inside => exact ⟨not_lt.1 ordered, inside⟩
  · cases checked

theorem leaves_insert (fitted : Fitted b) {hint pos count : Nat} {values : List α}
    (small : b.length + max hint values.length < sizeLimit)
    (inserted : b.insert hint pos values = .ok (count, after)) :
    Leaves b (edit (.insert hint pos values)) after := by
  obtain ⟨_, checked, _⟩ := bind_eq_ok_iff.1 inserted
  rw [insert_of_le (of_checkPosition checked)] at inserted
  cases inserted
  have length : Buffer.length ⟨b.items.take pos ++ values ++ b.items.drop pos, (b.append hint values).capacity⟩ =
      b.length + values.length := by
    simp only [Buffer.length, List.length_append, List.length_take, List.length_drop]
    omega
  refine ⟨provides_append hint values fitted.room small, ?_, fun _ honest => ?_⟩
  · simp only [length, asked]
    omega
  · have promised : hint ≤ values.length := honest
    simp only [length, asked, max_eq_right promised]

theorem leaves_insertWithin {pos first last count : Nat} (small : b.length + (last - first) < sizeLimit)
    (inserted : b.insertWithin pos first last = .ok (count, after)) :
    Leaves b (edit (.insertWithin pos first last)) after := by
  obtain ⟨_, placed, ranged⟩ := bind_eq_ok_iff.1 inserted
  obtain ⟨_, checked, _⟩ := bind_eq_ok_iff.1 ranged
  obtain ⟨ordered, inside⟩ := of_checkRange checked
  rw [insertWithin_ok (of_checkPosition placed) ordered inside] at inserted
  cases inserted
  refine leaves_of_eq (b.provides_reserve small) ?_
  simp only [Buffer.length, List.length_append, List.length_take, List.length_drop, length_slice inside, asked]
  omega

theorem leaves_run {e : Edit α} {reply : Reply α} (fitted : Fitted b) (small : (edit e).asked b < sizeLimit)
    (stays : e ≠ .clear) (ran : e.run default b = .ok (reply, after)) : Leaves b (edit e) after := by
  cases e with
  | clear => exact absurd rfl stays
  | set i x =>
    obtain ⟨b', written, same⟩ := bind_eq_ok_iff.1 ran
    cases same
    rw [Buffer.set] at written
    split at written
    · cases written
      exact leaves_of_le rfl id rfl (by simp [Buffer.length])
    · cases written
  | write f keeps =>
    cases ran
    exact leaves_of_le rfl id rfl (keeps b.items).le
  | reserve n =>
    cases ran
    exact ⟨b.provides_reserve small, by rw [length_reserve]; exact le_max_left _ _, fun adds => adds.elim⟩
  | push x =>
    cases ran
    exact leaves_of_eq (b.provides_reserve small) (by simp [Buffer.length, asked])
  | pop =>
    cases ran
    exact leaves_of_le rfl id rfl (by simp [Buffer.length])
  | insert hint pos values =>
    obtain ⟨⟨count, b'⟩, inserted, same⟩ := bind_eq_ok_iff.1 ran
    cases same
    exact leaves_insert fitted small inserted
  | insertWithin pos first last =>
    obtain ⟨⟨count, b'⟩, inserted, same⟩ := bind_eq_ok_iff.1 ran
    cases same
    exact leaves_insertWithin small inserted
  | erase first last =>
    obtain ⟨⟨count, b'⟩, erased, same⟩ := bind_eq_ok_iff.1 ran
    cases same
    obtain ⟨_, checked, same⟩ := bind_eq_ok_iff.1 erased
    obtain ⟨ordered, inside⟩ := of_checkRange checked
    cases same
    refine leaves_of_le rfl id rfl ?_
    simp only [Buffer.length, List.length_append, List.length_take, List.length_drop]
    omega
  | resize n =>
    obtain ⟨b', resized, same⟩ := bind_eq_ok_iff.1 ran
    cases same
    exact leaves_resize fitted small resized
  | resizeWith n first rest =>
    cases ran
    obtain ⟨provides, length⟩ := provides_resizeWith fitted small (cycle first rest)
    exact leaves_of_eq provides length

theorem perform_cases (default : Except Error α) (fitted : Fitted b) (small : op.asked b < sizeLimit)
    (stays : op ≠ .edit .clear) :
    (op.perform default b).2 = b ∨ Leaves b op (op.perform default b).2 := by
  cases op with
  | edit e =>
    rw [perform, e.perform_eq]
    cases ran : e.run default b with
    | error err => exact .inl rfl
    | ok r => exact .inr (leaves_run fitted small (fun same => stays (congrArg _ same)) ran)
  | resizeWith n fill =>
    obtain ⟨provides, length⟩ := provides_resizeWith fitted small fill
    rw [perform, Work.bind_of_ok (Work.resizeWith_run n fill b)]
    exact .inr (leaves_of_eq provides length)

theorem fitted_perform (fitted : Fitted b) (small : op.asked b < sizeLimit) : Fitted (op.perform default b).2 := by
  by_cases cleared : op = .edit .clear
  · subst cleared
    exact ⟨.inl rfl, Nat.le_refl 0⟩
  · rcases perform_cases default fitted small cleared with refused | leaves
    · rwa [refused]
    · refine ⟨leaves.provides.power fitted.power, leaves.length.trans ?_⟩
      exact max_le (fitted.room.trans leaves.provides.le) leaves.provides.enough

theorem le_capacity_perform (fitted : Fitted b) (small : op.asked b < sizeLimit) (stays : op ≠ .edit .clear) :
    b.capacity ≤ (op.perform default b).2.capacity := by
  rcases perform_cases default fitted small stays with refused | leaves
  · rw [refused]
  · exact leaves.provides.le

theorem provides_perform (fitted : Fitted b) (small : op.asked b < sizeLimit) (adds : op.Adds) (honest : op.Honest)
    {k : Nat} (grown : (op.perform default b).2.length = b.length + k) :
    Provides b.capacity (b.length + k) (op.perform default b).2.capacity := by
  have stays : op ≠ .edit .clear := by
    rintro rfl
    exact adds
  rcases perform_cases default fitted small stays with refused | leaves
  · rw [refused] at grown ⊢
    exact .of_le (by have := fitted.room; omega)
  · rw [← grown, leaves.added adds honest]
    exact leaves.provides

end Leaves

end Operation

/-- The buffers that operations lead to, from one that is empty, made for so many elements, or made of elements. -/
inductive Reachable (default : Except Error α) : Buffer α → Prop
  | empty : Reachable default empty
  | withCapacity (n : Nat) (small : n < sizeLimit) : Reachable default (withCapacity n)
  | ofList (items : List α) (small : items.length < sizeLimit) : Reachable default (ofList items)
  | collect (hint : Nat) (values : List α) (small : max hint values.length < sizeLimit) :
    Reachable default (collect hint values)
  | operate {b : Buffer α} (op : Operation α) (reached : Reachable default b) (small : op.asked b < sizeLimit) :
    Reachable default (op.perform default b).2

theorem capacityFor_spec {n : Nat} (small : n < sizeLimit) :
    (capacityFor n = 0 ∨ (capacityFor n).isPowerOfTwo) ∧ n ≤ capacityFor n := by
  rw [capacityFor]
  split
  · next none => exact ⟨.inl rfl, none.le⟩
  · have least := leastPower_blockSize small.le
    exact ⟨.inr least.1.1, least.1.2⟩

theorem length_empty : (empty : Buffer α).length = 0 := rfl

theorem fitted_empty : Fitted (empty : Buffer α) := ⟨.inl rfl, Nat.le_refl 0⟩

theorem fitted_collect {hint : Nat} {values : List α} (small : max hint values.length < sizeLimit) :
    Fitted (collect hint values) := by
  have provides := provides_append hint values fitted_empty.room
    (by rwa [length_empty, Nat.zero_add])
  have enough := provides.enough
  refine ⟨provides.power (.inl rfl), ?_⟩
  rw [collect, length_append]
  omega

theorem Reachable.fitted {default : Except Error α} {b : Buffer α} (reached : Reachable default b) : Fitted b := by
  induction reached with
  | empty => exact fitted_empty
  | withCapacity n small => exact ⟨(capacityFor_spec small).1, Nat.zero_le _⟩
  | ofList items small => exact ⟨(capacityFor_spec small).1, (capacityFor_spec small).2⟩
  | collect hint values small => exact fitted_collect small
  | operate op reached small ih => exact Operation.fitted_perform ih small

theorem insert_hint {b : Buffer α} {hint hint' : Nat} {values : List α} (fitted : Fitted b)
    (small : b.length + values.length < sizeLimit) (honest : hint ≤ values.length)
    (honest' : hint' ≤ values.length) (pos : Nat) : b.insert hint pos values = b.insert hint' pos values := by
  rw [Buffer.insert, Buffer.insert, append_hint fitted.room small honest honest']

/-- Whatever is done with a buffer, its room is none or a power of two and holds the elements, and nothing but
`clear` makes it less. An insertion, a push or a change of length that adds elements leaves the room alone if they
fit, and otherwise makes it the least power of two that holds them, of a first block if there was none. So what an
insertion or a collection leaves is the same, elements and room, however many of the elements are promised. -/
theorem capacity_policy (default : Except Error α) :
    (∀ b, Reachable default b → (b.capacity = 0 ∨ b.capacity.isPowerOfTwo) ∧ b.length ≤ b.capacity) ∧
    (∀ b (op : Operation α), Reachable default b → op.asked b < sizeLimit → op ≠ .edit .clear →
      b.capacity ≤ (op.perform default b).2.capacity) ∧
    (∀ b (op : Operation α) k, Reachable default b → op.asked b < sizeLimit → op.Adds → op.Honest →
      (op.perform default b).2.length = b.length + k →
      Provides b.capacity (b.length + k) (op.perform default b).2.capacity) ∧
    (∀ b hint hint' pos (values : List α), Reachable default b → b.length + values.length < sizeLimit →
      hint ≤ values.length → hint' ≤ values.length → b.insert hint pos values = b.insert hint' pos values) ∧
    ∀ hint hint' (values : List α), values.length < sizeLimit → hint ≤ values.length → hint' ≤ values.length →
      collect hint values = collect hint' values := by
  refine ⟨fun b reached => ⟨reached.fitted.power, reached.fitted.room⟩,
    fun b op reached small stays => Operation.le_capacity_perform reached.fitted small stays,
    fun b op k reached small adds honest grown =>
      Operation.provides_perform reached.fitted small adds honest grown,
    fun b hint hint' pos values reached small honest honest' =>
      insert_hint reached.fitted small honest honest' pos,
    fun hint hint' values small honest honest' => ?_⟩
  exact append_hint fitted_empty.room (by rwa [length_empty, Nat.zero_add])
    honest honest'

theorem capacity_policy_full :
    let full : Buffer Nat := ofList [10, 11, 12, 13]
    let put : Operation Nat := .edit (.insert 1 1 [20, 21, 22])
    full.capacity = 4 ∧ Reachable (.ok 0) full ∧ put.asked full < sizeLimit ∧
    (full.capacity = 0 ∨ full.capacity.isPowerOfTwo) ∧
    LeastPower 7 (put.perform (.ok 0) full).2.capacity ∧
    full.insert 0 1 [20, 21, 22] = full.insert 3 1 [20, 21, 22] ∧
    collect 0 (List.range 40) = collect 33 (List.range 40) := by
  intro full put
  have reached : Reachable (.ok 0) full := .ofList _ (by decide)
  have small : put.asked full < sizeLimit := by decide
  obtain ⟨fits, -, grown, inserted, collected⟩ := capacity_policy (.ok 0 : Except Error Nat)
  have honest : put.Honest := Nat.le_of_ble_eq_true rfl
  have length : (put.perform (.ok 0) full).2.length = full.length + 3 := by decide
  have room : Provides 4 7 (put.perform (.ok 0) full).2.capacity :=
    grown full put 3 reached small trivial honest length
  rw [Provides, if_neg (by decide), if_neg (by decide)] at room
  refine ⟨by decide, reached, small, (fits full reached).1, room, ?_, ?_⟩
  · exact inserted full 0 3 1 _ reached (by decide) (by decide) (by decide)
  · exact collected 0 33 _ (by rw [List.length_range]; decide) (Nat.zero_le _) (by rw [List.length_range]; decide)

end Tabular.Buffer
