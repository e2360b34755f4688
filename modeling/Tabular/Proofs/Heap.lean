import Mathlib.Data.List.Forall2
import Tabular.Heap

/-! Accounts of a heap. Handles account for a heap if every block has as many owners as handles name
it. An exchange of handles for new values keeps the account, gives each value a block that holds it,
and leaves what the other handles name as it was. So a write in place is never seen through a handle
that the writer did not let go of. -/

namespace Tabular

/-- The block in which a value still is as it was read. -/
def Storage.home? : Storage → Option Nat
  | block id => some id
  | edited _ => none
  | fresh => none

@[simp] theorem Storage.home?_claimed (storage : Storage) : storage.claimed.home? = none := by
  cases storage <;> rfl

namespace Heap

variable {β : Type}

/-- Every block has as many owners as handles name it. -/
def Accounted (h : Heap β) (handles : List Nat) : Prop := ∀ id, h.owners id = handles.count id

/-- A value that claims to be in a block is there. -/
def Faithful (h : Heap β) (v : Storage × β) : Prop := ∀ id, v.1 = .block id → h.content? id = some v.2

def homes (values : List (Storage × β)) : List Nat := values.filterMap (·.1.home?)

section Operations

variable (h : Heap β) (id j : Nat) (c : β)

@[simp] theorem content?_retain : (h.retain id).content? j = h.content? j := by
  simp only [content?, retain, List.getElem?_modify]
  cases h.blocks[j]? with
  | none => rfl
  | some b => simp only [Option.map_some]; split <;> rfl

@[simp] theorem content?_release : (h.release id).content? j = h.content? j := by
  simp only [content?, release, List.getElem?_modify]
  cases h.blocks[j]? with
  | none => rfl
  | some b => simp only [Option.map_some]; split <;> rfl

@[simp] theorem owners_overwrite : (h.overwrite id c).owners j = h.owners j := by
  simp only [owners, overwrite, List.getElem?_modify]
  cases h.blocks[j]? with
  | none => rfl
  | some b => simp only [Option.map_some]; split <;> rfl

theorem content?_overwrite_ne (other : id ≠ j) : (h.overwrite id c).content? j = h.content? j := by
  simp [content?, overwrite, other]

theorem content?_overwrite_self (owned : 0 < h.owners id) :
    (h.overwrite id c).content? id = some c := by
  cases found : h.blocks[id]? with
  | none => simp [owners, found] at owned
  | some b => simp [content?, overwrite, found]

theorem owners_release : (h.release id).owners j = h.owners j - [id].count j := by
  simp only [owners, release, List.getElem?_modify, List.count_singleton, beq_iff_eq]
  cases h.blocks[j]? with
  | none => simp
  | some b => simp only [Option.map_some]; split <;> simp

theorem owners_retain (held : (h.content? id).isSome) :
    (h.retain id).owners j = h.owners j + [id].count j := by
  simp only [owners, retain, List.getElem?_modify, List.count_singleton, beq_iff_eq]
  by_cases same : id = j
  · subst same
    cases found : h.blocks[id]? with
    | none => simp [content?, found] at held
    | some b => simp
  · simp [same]

theorem owners_alloc : (h.alloc c).2.owners j = h.owners j + [(h.alloc c).1].count j := by
  simp only [owners, alloc, List.count_singleton, beq_iff_eq]
  rcases Nat.lt_trichotomy j h.blocks.length with below | rfl | above
  · simp [List.getElem?_append_left below, Nat.ne_of_gt below]
  · simp
  · rw [List.getElem?_eq_none (by simp; omega), List.getElem?_eq_none (Nat.le_of_lt above)]
    simp [Nat.ne_of_lt above]

theorem content?_alloc_self : (h.alloc c).2.content? (h.alloc c).1 = some c := by
  simp [content?, alloc]

theorem lt_length_of_held (held : (h.content? j).isSome) : j < h.blocks.length := by
  by_contra above
  rw [content?, List.getElem?_eq_none (by omega)] at held
  simp at held

theorem content?_alloc (held : (h.content? j).isSome) :
    (h.alloc c).2.content? j = h.content? j := by
  simp [content?, alloc, List.getElem?_append_left (h.lt_length_of_held j held)]

theorem owners_alloc_eq_zero : h.owners (h.alloc c).1 = 0 := by simp [owners, alloc]

theorem held_of_owned (owned : 0 < h.owners id) : (h.content? id).isSome := by
  cases found : h.blocks[id]? with
  | none => simp [owners, found] at owned
  | some b => simp [content?, found]

end Operations

namespace Accounted

variable {h : Heap β} {hs : List Nat}

theorem empty : (Heap.empty : Heap β).Accounted [] := by
  intro id
  simp [Heap.empty, owners]

theorem of_count_eq {js : List Nat} (a : h.Accounted hs) (same : ∀ id, hs.count id = js.count id) :
    h.Accounted js := by
  intro id
  rw [a id, same id]

theorem owned (a : h.Accounted hs) {id : Nat} (named : id ∈ hs) : 0 < h.owners id := by
  rw [a id]
  exact List.count_pos_iff.2 named

theorem held (a : h.Accounted hs) {id : Nat} (named : id ∈ hs) : (h.content? id).isSome :=
  h.held_of_owned id (a.owned named)

theorem retain (a : h.Accounted hs) (id : Nat) (held : (h.content? id).isSome) :
    (h.retain id).Accounted (id :: hs) := by
  intro j
  rw [owners_retain h id j held, a j, List.count_singleton, List.count_cons]

theorem release {id : Nat} (a : h.Accounted (id :: hs)) : (h.release id).Accounted hs := by
  intro j
  rw [owners_release, a j, List.count_singleton, List.count_cons, Nat.add_sub_cancel]

theorem alloc (a : h.Accounted hs) (c : β) : (h.alloc c).2.Accounted ((h.alloc c).1 :: hs) := by
  intro j
  rw [owners_alloc, a j, List.count_singleton, List.count_cons]

theorem overwrite (a : h.Accounted hs) (id : Nat) (c : β) : (h.overwrite id c).Accounted hs := by
  intro j
  rw [owners_overwrite, a j]

theorem releaseAll {letGo : List Nat} (a : h.Accounted (letGo ++ hs)) :
    (h.releaseAll letGo).Accounted hs := by
  induction letGo generalizing h with
  | nil => exact a
  | cons id ids ih => exact ih a.release

end Accounted

@[simp] theorem content?_releaseAll (h : Heap β) (letGo : List Nat) (j : Nat) :
    (h.releaseAll letGo).content? j = h.content? j := by
  induction letGo generalizing h with
  | nil => rfl
  | cons id ids ih => exact (ih _).trans (content?_release h id j)

@[simp] theorem content?_retainAll (h : Heap β) (values : List (Storage × β)) (j : Nat) :
    (h.retainAll values).content? j = h.content? j := by
  induction values generalizing h with
  | nil => rfl
  | cons v vs ih =>
    obtain ⟨storage, c⟩ := v
    cases storage with
    | block id => exact (ih _).trans (content?_retain h id j)
    | edited id => exact ih h
    | fresh => exact ih h

theorem Faithful.congr {h k : Heap β} {v : Storage × β} (f : h.Faithful v)
    (same : ∀ id, k.content? id = h.content? id) : k.Faithful v := by
  intro id home
  rw [same, f id home]

theorem accounted_retainAll {h : Heap β} {hs : List Nat} (values : List (Storage × β))
    (a : h.Accounted hs) (faithful : ∀ v ∈ values, h.Faithful v) :
    (h.retainAll values).Accounted (homes values ++ hs) := by
  induction values generalizing h hs with
  | nil => exact a
  | cons v vs ih =>
    obtain ⟨storage, c⟩ := v
    have rest : ∀ v ∈ vs, h.Faithful v := fun v mem => faithful v (List.mem_cons_of_mem _ mem)
    cases storage with
    | block id =>
      have held : h.content? id = some c := faithful _ List.mem_cons_self id rfl
      have kept := ih (a.retain id (by rw [held]; rfl)) fun v mem =>
        (rest v mem).congr fun j => content?_retain h id j
      refine kept.of_count_eq fun j => ?_
      simp only [homes, List.filterMap_cons, Storage.home?, List.count_append, List.count_cons]
      omega
    | edited id => exact ih a rest
    | fresh => exact ih a rest

/-- What became of a heap in which `value` was given the block `id`: the block holds it, and what
the handles `others` name is as it was. -/
structure Placed (h : Heap β) (others : List Nat) (value : Storage × β) (id : Nat) (after : Heap β) :
    Prop where
  holds : after.content? id = some value.2
  keeps : ∀ j ∈ others, after.content? j = h.content? j

theorem place_new {h : Heap β} {letGo others : List Nat} {value : Storage × β}
    (a : h.Accounted (letGo ++ others)) (away : value.1.home? = none) :
    (place letGo h value).2.Accounted (letGo ++ (place letGo h value).1 :: others) ∧
      h.Placed others value (place letGo h value).1 (place letGo h value).2 ∧
      (place letGo h value).1 ∉ others := by
  have fresh : (h.alloc value.2).2.Accounted (letGo ++ (h.alloc value.2).1 :: others) ∧
      h.Placed others value (h.alloc value.2).1 (h.alloc value.2).2 ∧
      (h.alloc value.2).1 ∉ others := by
    refine ⟨(a.alloc value.2).of_count_eq fun j => ?_, ⟨content?_alloc_self _ _, fun j named => ?_⟩,
      fun named => ?_⟩
    · simp only [List.count_cons, List.count_append]
      omega
    · exact content?_alloc _ _ _ (a.held (List.mem_append_right _ named))
    · have owned := a.owned (List.mem_append_right letGo named)
      rw [owners_alloc_eq_zero] at owned
      omega
  obtain ⟨storage, c⟩ := value
  cases storage with
  | block id => simp [Storage.home?] at away
  | fresh => exact fresh
  | edited id =>
    simp only [place]
    split
    · next sole =>
      -- The only handle that names the block is one about to be let go of.
      rw [Bool.and_eq_true, List.contains_iff_mem, beq_iff_eq] at sole
      have account := a id
      rw [sole.2, List.count_append] at account
      have released : 0 < letGo.count id := List.count_pos_iff.2 sole.1
      have unnamed : id ∉ others := List.count_eq_zero.1 (by omega)
      have owned : 0 < h.owners id := by omega
      have written := content?_overwrite_self h id c owned
      have taken := (a.overwrite id c).retain id (by rw [written]; rfl)
      refine ⟨taken.of_count_eq fun j => ?_, ⟨?_, fun j named => ?_⟩, unnamed⟩
      · simp only [List.count_cons, List.count_append]
        omega
      · rw [content?_retain, written]
      · rw [content?_retain, content?_overwrite_ne]
        rintro rfl
        exact unnamed named
    · exact fresh

/-- Before a value is placed the handles are those to be let go of, the homes of the values yet to
be placed, and others. -/
theorem place_spec {h : Heap β} {letGo others : List Nat} {value : Storage × β}
    {later : List (Storage × β)} (a : h.Accounted (letGo ++ (homes (value :: later) ++ others)))
    (faithful : h.Faithful value) :
    (place letGo h value).2.Accounted (letGo ++ (homes later ++ (place letGo h value).1 :: others)) ∧
      h.Placed (homes later ++ others) value (place letGo h value).1 (place letGo h value).2 := by
  cases home : value.1.home? with
  | some id =>
    obtain ⟨storage, c⟩ := value
    cases storage <;> simp only [Storage.home?, Option.some.injEq, reduceCtorEq] at home
    subst home
    refine ⟨a.of_count_eq fun j => ?_, ⟨faithful _ rfl, fun _ _ => rfl⟩⟩
    simp only [homes, place, List.filterMap_cons, Storage.home?, List.count_append, List.count_cons]
    omega
  | none =>
    have skip : homes (value :: later) = homes later := List.filterMap_cons_none home
    rw [skip] at a
    obtain ⟨account, placed, -⟩ := place_new a home
    refine ⟨account.of_count_eq fun j => ?_, placed⟩
    simp only [homes, List.count_append, List.count_cons]
    omega

structure PlacedAll (h : Heap β) (others : List Nat) (values : List (Storage × β)) (ids : List Nat)
    (after : Heap β) : Prop where
  holds : List.Forall₂ (fun id (v : Storage × β) => after.content? id = some v.2) ids values
  keeps : ∀ j ∈ others, after.content? j = h.content? j

theorem placeAll_spec {h : Heap β} {letGo others : List Nat} {values : List (Storage × β)}
    (a : h.Accounted (letGo ++ (homes values ++ others))) (faithful : ∀ v ∈ values, h.Faithful v) :
    (placeAll letGo h values).2.Accounted (letGo ++ ((placeAll letGo h values).1 ++ others)) ∧
      h.PlacedAll others values (placeAll letGo h values).1 (placeAll letGo h values).2 := by
  induction values generalizing h others with
  | nil => exact ⟨a, .nil, fun _ _ => rfl⟩
  | cons v vs ih =>
    obtain ⟨account, placed⟩ := place_spec a (faithful v List.mem_cons_self)
    have still : ∀ u ∈ vs, (place letGo h v).2.Faithful u := by
      intro u mem id home
      rw [placed.keeps id, faithful u (List.mem_cons_of_mem _ mem) id home]
      exact List.mem_append_left _ (List.mem_filterMap.2 ⟨u, mem, by rw [home]; rfl⟩)
    obtain ⟨counted, rest⟩ := ih account still
    refine ⟨counted.of_count_eq fun j => ?_, .cons ?_ rest.holds, fun j named => ?_⟩
    · simp only [placeAll, List.count_append, List.count_cons]
      omega
    · exact (rest.keeps _ List.mem_cons_self).trans placed.holds
    · exact (rest.keeps j (List.mem_cons_of_mem _ named)).trans
        (placed.keeps j (List.mem_append_right _ named))

/-- An exchange of the handles `letGo` for new values, next to other handles. -/
theorem exchange_spec {h : Heap β} {letGo others : List Nat} (values : List (Storage × β))
    (a : h.Accounted (letGo ++ others)) (faithful : ∀ v ∈ values, h.Faithful v) :
    (h.exchange letGo values).2.Accounted ((h.exchange letGo values).1 ++ others) ∧
      h.PlacedAll others values (h.exchange letGo values).1 (h.exchange letGo values).2 := by
  have retained : (h.retainAll values).Accounted (letGo ++ (homes values ++ others)) :=
    (accounted_retainAll values a faithful).of_count_eq fun j => by
      simp only [List.count_append]
      omega
  obtain ⟨account, placed⟩ := placeAll_spec retained fun v mem =>
    (faithful v mem).congr fun id => content?_retainAll h values id
  refine ⟨account.releaseAll, ?_, fun j named => ?_⟩
  · simpa only [exchange, content?_releaseAll] using placed.holds
  · simpa only [exchange, content?_releaseAll, content?_retainAll] using placed.keeps j named

theorem owners_exchange_new {h : Heap β} {letGo others : List Nat} (value : Storage × β)
    (a : h.Accounted (letGo ++ others)) (away : value.1.home? = none) :
    ∃ id, (h.exchange letGo [value]).1 = [id] ∧ (h.exchange letGo [value]).2.owners id = 1 := by
  obtain ⟨account, -, unnamed⟩ := place_new a away
  have retained : h.retainAll [value] = h := by
    obtain ⟨storage, c⟩ := value
    cases storage with
    | block id => simp [Storage.home?] at away
    | edited id => rfl
    | fresh => rfl
  refine ⟨(place letGo h value).1, by rw [exchange, retained]; rfl, ?_⟩
  have owners := account.releaseAll (place letGo h value).1
  rw [List.count_cons_self, List.count_eq_zero.2 unnamed] at owners
  rw [exchange, retained]
  exact owners

theorem placeAll_of_fresh (letGo : List Nat) (h : Heap β) {values : List (Storage × β)}
    (new : ∀ v ∈ values, v.1 = .fresh) :
    (placeAll letGo h values).1 = List.range' h.blocks.length values.length := by
  induction values generalizing h with
  | nil => rfl
  | cons v vs ih =>
    obtain ⟨storage, c⟩ := v
    obtain rfl : storage = .fresh := new _ List.mem_cons_self
    have rest := ih (h.alloc c).2 fun v mem => new v (List.mem_cons_of_mem _ mem)
    rw [alloc, List.length_append, List.length_singleton] at rest
    rw [List.length_cons, List.range'_succ, ← rest]
    rfl

theorem retainAll_of_fresh (h : Heap β) {values : List (Storage × β)}
    (new : ∀ v ∈ values, v.1 = .fresh) : h.retainAll values = h := by
  induction values with
  | nil => rfl
  | cons v vs ih =>
    obtain ⟨storage, c⟩ := v
    obtain rfl : storage = .fresh := new _ List.mem_cons_self
    exact ih fun v mem => new v (List.mem_cons_of_mem _ mem)

theorem exchange_of_fresh (letGo : List Nat) (h : Heap β) {values : List (Storage × β)}
    (new : ∀ v ∈ values, v.1 = .fresh) :
    (h.exchange letGo values).1 = List.range' h.blocks.length values.length := by
  rw [exchange, retainAll_of_fresh h new]
  exact placeAll_of_fresh letGo h new

end Heap

end Tabular
