import Tabular.Proofs.Distinct
import Tabular.Proofs.Gather

/-! What stands at some places of a list, and the places at which keys are met for the first time. Keys can be
looked at more coarsely, so that some of them become one: the places of a coarse key are those of the keys that
it is made of, and it is first met where the first of them is. -/

namespace Tabular

section Values

variable {α β κ : Type} {xs : List α} {rows : List Nat}

def valuesAt (xs : List α) (rows : List Nat) : List α := rows.filterMap (xs[·]?)

theorem valuesAt_map (f : α → β) (xs : List α) (rows : List Nat) :
    valuesAt (xs.map f) rows = (valuesAt xs rows).map f := by
  rw [valuesAt, valuesAt, List.map_filterMap]
  simp only [List.getElem?_map]

theorem valuesAt_flatMap (xs : List α) (parts : β → List Nat) (bs : List β) :
    valuesAt xs (bs.flatMap parts) = bs.flatMap fun b => valuesAt xs (parts b) :=
  List.filterMap_flatMap

theorem map_some_valuesAt (inside : ∀ row ∈ rows, row < xs.length) :
    (valuesAt xs rows).map some = rows.map (xs[·]?) := by
  rw [valuesAt, List.map_filterMap_some_eq_filter_map_isSome, List.filter_eq_self]
  rintro _ mem
  obtain ⟨row, called, rfl⟩ := List.mem_map.1 mem
  rw [List.getElem?_eq_getElem (inside row called)]
  rfl

theorem valuesAt_eq_iff {picked : List α} (same : picked.map some = rows.map (xs[·]?)) :
    valuesAt xs rows = picked := by
  have kept : (rows.map (xs[·]?)).filterMap id = valuesAt xs rows := by
    rw [List.filterMap_map]
    rfl
  rw [← kept, ← same, List.filterMap_map]
  simp

theorem getElem?_valuesAt (inside : ∀ row ∈ rows, row < xs.length) {i row : Nat} (there : rows[i]? = some row) :
    (valuesAt xs rows)[i]? = xs[row]? := by
  have place := congrArg (·[i]?) (map_some_valuesAt inside)
  simp only [List.getElem?_map, there, Option.map_some] at place
  obtain ⟨x, found, same⟩ := Option.map_eq_some_iff.1 place
  rw [found, ← same]

theorem mem_of_mem_valuesAt {x : α} (mem : x ∈ valuesAt xs rows) : x ∈ xs := by
  obtain ⟨row, -, there⟩ := List.mem_filterMap.1 mem
  exact List.mem_of_getElem? there

theorem length_valuesAt (inside : ∀ row ∈ rows, row < xs.length) :
    (valuesAt xs rows).length = rows.length := by
  have counted := congrArg List.length (map_some_valuesAt inside)
  rwa [List.length_map, List.length_map] at counted

theorem valuesAt_valuesAt (inside : ∀ row ∈ rows, row < xs.length) (places : List Nat) :
    valuesAt (valuesAt xs rows) places = valuesAt xs (valuesAt rows places) := by
  refine (List.map_inj_right fun _ _ => Option.some.inj).1 ?_
  calc (valuesAt (valuesAt xs rows) places).map some = valuesAt ((valuesAt xs rows).map some) places :=
        (valuesAt_map some _ _).symm
    _ = (valuesAt rows places).map (xs[·]?) := by rw [map_some_valuesAt inside, valuesAt_map]
    _ = (valuesAt xs (valuesAt rows places)).map some :=
        (map_some_valuesAt fun row mem => inside row (mem_of_mem_valuesAt mem)).symm

theorem mapM_valuesAt {ε : Type} {f : Nat → Except ε α} {n : Nat} (made : (List.range n).mapM f = .ok xs)
    (inside : ∀ row ∈ rows, row < n) : rows.mapM f = .ok (valuesAt xs rows) := by
  have counted := length_mapM made
  rw [List.length_range] at counted
  induction rows with
  | nil => rfl
  | cons row rows ih =>
    obtain ⟨below, rest⟩ := List.forall_mem_cons.1 inside
    rw [← counted] at below
    have there := List.getElem?_eq_getElem below
    obtain ⟨i, place, first⟩ := exists_of_getElem?_mapM made there
    obtain ⟨_, rfl⟩ := List.getElem?_eq_some_iff.1 place
    rw [List.getElem_range] at first
    exact mapM_cons_eq_ok_iff.2 ⟨_, _, first, ih rest, List.filterMap_cons_some there⟩

theorem valuesAt_placesOf_map [DecidableEq κ] (f : α → κ) (xs : List α) (k : κ) :
    valuesAt xs (placesOf (xs.map f) k) = xs.filter (f · = k) := by
  induction xs using List.reverseRecOn with
  | nil => rfl
  | append_singleton xs x ih =>
    have before : valuesAt (xs ++ [x]) (placesOf (xs.map f) k) = valuesAt xs (placesOf (xs.map f) k) := by
      refine List.filterMap_congr fun row mem => List.getElem?_append_left ?_
      simpa using (List.getElem?_eq_some_iff.1 (mem_placesOf.1 mem)).1
    rw [List.map_append, List.map_singleton, placesOf_append_singleton, valuesAt, List.filterMap_append,
      ← valuesAt, before, ih, List.filter_append]
    by_cases same : f x = k <;> simp [same]

end Values

section Coarse

variable {κ γ : Type} [BEq κ] [LawfulBEq κ] (g : κ → γ)

theorem mem_map_eraseDups {keys : List κ} {k : γ} : k ∈ keys.eraseDups.map g ↔ k ∈ keys.map g := by
  simp only [List.mem_map, List.mem_eraseDups]

theorem eraseDups_map_eraseDups [BEq γ] [LawfulBEq γ] (keys : List κ) :
    (keys.eraseDups.map g).eraseDups = (keys.map g).eraseDups := by
  induction keys using List.reverseRecOn with
  | nil => rfl
  | append_singleton keys k ih =>
    rw [List.map_append, List.map_singleton, eraseDups_append_singleton, eraseDups_append_singleton]
    split
    · next met => rw [if_pos (List.mem_map_of_mem met), ih]
    · simp only [List.map_append, List.map_singleton, eraseDups_append_singleton, mem_map_eraseDups, ih]

end Coarse

section Firsts

variable {κ γ : Type} [DecidableEq κ] [DecidableEq γ]

theorem getElem?_headD_placesOf {keys : List κ} {k : κ} (met : k ∈ keys) :
    keys[(placesOf keys k).headD 0]? = some k := by
  obtain ⟨i, first, there⟩ := exists_first met
  rwa [List.headD_eq_head?_getD, first, Option.getD_some]

theorem headD_placesOf_append {keys : List κ} {k : κ} (met : k ∈ keys) (j : κ) :
    (placesOf (keys ++ [j]) k).headD 0 = (placesOf keys k).headD 0 := by
  rw [List.headD_eq_head?_getD, head?_placesOf_append met, List.headD_eq_head?_getD]

/-- The places at which keys are met for the first time. -/
def firstPlaces [BEq κ] (keys : List κ) : List Nat :=
  keys.eraseDups.map fun k => (placesOf keys k).headD 0

theorem length_firstPlaces [BEq κ] (keys : List κ) : (firstPlaces keys).length = keys.eraseDups.length :=
  List.length_map _

variable [BEq κ] [LawfulBEq κ]

theorem firstPlaces_append_singleton (keys : List κ) (k : κ) :
    firstPlaces (keys ++ [k]) = if k ∈ keys then firstPlaces keys else firstPlaces keys ++ [keys.length] := by
  have older : keys.eraseDups.map (fun j => (placesOf (keys ++ [k]) j).headD 0) = firstPlaces keys :=
    List.map_congr_left fun j mem => headD_placesOf_append (List.mem_eraseDups.1 mem) k
  rw [firstPlaces, eraseDups_append_singleton]
  split
  · exact older
  · next new =>
    rw [List.map_append, older, List.map_singleton, placesOf_append_singleton, placesOf_eq_nil_iff.2 new,
      if_pos rfl]
    rfl

theorem lt_of_mem_firstPlaces {keys : List κ} {i : Nat} (mem : i ∈ firstPlaces keys) : i < keys.length := by
  obtain ⟨k, met, rfl⟩ := List.mem_map.1 mem
  exact (List.getElem?_eq_some_iff.1 (getElem?_headD_placesOf (List.mem_eraseDups.1 met))).1

theorem valuesAt_firstPlaces (keys : List κ) : valuesAt keys (firstPlaces keys) = keys.eraseDups := by
  refine valuesAt_eq_iff ?_
  rw [firstPlaces, List.map_map]
  exact (List.map_congr_left fun k mem => getElem?_headD_placesOf (List.mem_eraseDups.1 mem)).symm

theorem firstPlaces_map [BEq γ] [LawfulBEq γ] {f : κ → γ} (injective : Function.Injective f) (keys : List κ) :
    firstPlaces (keys.map f) = firstPlaces keys := by
  simp only [firstPlaces, eraseDups_map injective, List.map_map, Function.comp_def, placesOf_map injective]

theorem flatMap_placesOf_perm (g : κ → γ) (keys : List κ) (k : γ) :
    ((keys.eraseDups.filter (g · = k)).flatMap (placesOf keys)).Perm (placesOf (keys.map g) k) := by
  have apart : ((keys.eraseDups.filter (g · = k)).flatMap (placesOf keys)).Nodup := by
    refine List.nodup_flatMap.2 ⟨fun j _ => nodup_placesOf keys j, ?_⟩
    refine ((nodup_eraseDups keys).filter _).imp fun {a b} different i there there' => different ?_
    exact Option.some.inj ((mem_placesOf.1 there).symm.trans (mem_placesOf.1 there'))
  refine (List.perm_ext_iff_of_nodup apart (nodup_placesOf _ k)).2 fun i => ?_
  simp only [List.mem_flatMap, List.mem_filter, List.mem_eraseDups, mem_placesOf, List.getElem?_map,
    Option.map_eq_some_iff, decide_eq_true_eq]
  constructor
  · rintro ⟨j, ⟨-, same⟩, there⟩
    exact ⟨j, there, same⟩
  · rintro ⟨j, there, same⟩
    exact ⟨j, ⟨List.mem_of_getElem? there, same⟩, there⟩

theorem valuesAt_firstPlaces_map [BEq γ] [LawfulBEq γ] (g : κ → γ) (keys : List κ) :
    valuesAt (firstPlaces keys) (firstPlaces (keys.eraseDups.map g)) = firstPlaces (keys.map g) := by
  induction keys using List.reverseRecOn with
  | nil => rfl
  | append_singleton keys k ih =>
    have counted : (firstPlaces keys).length = (keys.eraseDups.map g).length := by
      rw [length_firstPlaces, List.length_map]
    rw [List.map_append, List.map_singleton, firstPlaces_append_singleton, eraseDups_append_singleton,
      firstPlaces_append_singleton]
    split
    · next met => rw [if_pos (List.mem_map_of_mem met), ih]
    · have before : valuesAt (firstPlaces keys ++ [keys.length]) (firstPlaces (keys.eraseDups.map g)) =
          firstPlaces (keys.map g) := by
        rw [← ih]
        refine List.filterMap_congr fun row mem => List.getElem?_append_left ?_
        rw [counted]
        exact lt_of_mem_firstPlaces mem
      rw [List.map_append, List.map_singleton, firstPlaces_append_singleton]
      simp only [mem_map_eraseDups]
      split
      · exact before
      · rw [valuesAt, List.filterMap_append, ← valuesAt, before, ← counted, List.length_map]
        simp

end Firsts

end Tabular
