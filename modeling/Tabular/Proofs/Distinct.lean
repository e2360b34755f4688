import Mathlib.Data.List.Induction
import Mathlib.Data.List.Nodup

/-! Keys in the order in which they are first met, and the places at which each of them stands. -/

namespace Tabular

variable {κ : Type}

section Firsts

variable [BEq κ] [LawfulBEq κ]

theorem eraseDups_append_singleton (keys : List κ) (k : κ) :
    (keys ++ [k]).eraseDups = if k ∈ keys then keys.eraseDups else keys.eraseDups ++ [k] := by
  rw [List.eraseDups_append]
  split
  · next met => simp [List.removeAll, met]
  · next new => simp [List.removeAll, new, List.eraseDups_cons]

theorem nodup_eraseDups (keys : List κ) : keys.eraseDups.Nodup := by
  induction keys using List.reverseRecOn with
  | nil => exact List.nodup_nil
  | append_singleton keys k ih =>
    rw [eraseDups_append_singleton]
    split
    · exact ih
    · next new =>
      refine List.nodup_append.2 ⟨ih, List.nodup_singleton k, ?_⟩
      rintro j met _ (_ | ⟨_, nothing⟩) rfl
      · exact new (List.mem_eraseDups.1 met)
      · cases nothing

theorem eraseDups_map {ι : Type} [BEq ι] [LawfulBEq ι] {f : κ → ι} (injective : Function.Injective f)
    (keys : List κ) : (keys.map f).eraseDups = keys.eraseDups.map f := by
  induction keys using List.reverseRecOn with
  | nil => rfl
  | append_singleton keys k ih =>
    simp only [List.map_append, List.map_cons, List.map_nil, eraseDups_append_singleton, ih,
      List.mem_map_of_injective injective]
    split <;> simp

end Firsts

section Places

variable [DecidableEq κ]

/-- The places at which a key stands. -/
def placesOf (keys : List κ) (k : κ) : List Nat :=
  (List.range keys.length).filter fun i => keys[i]? = some k

theorem mem_placesOf {keys : List κ} {k : κ} {i : Nat} : i ∈ placesOf keys k ↔ keys[i]? = some k := by
  simp only [placesOf, List.mem_filter, List.mem_range, decide_eq_true_eq, and_iff_right_iff_imp]
  intro found
  exact (List.getElem?_eq_some_iff.1 found).1

theorem nodup_placesOf (keys : List κ) (k : κ) : (placesOf keys k).Nodup :=
  List.nodup_range.filter _

theorem pairwise_placesOf (keys : List κ) (k : κ) : (placesOf keys k).Pairwise (· < ·) :=
  List.pairwise_lt_range.filter _

theorem placesOf_eq_nil_iff {keys : List κ} {k : κ} : placesOf keys k = [] ↔ k ∉ keys := by
  rw [List.eq_nil_iff_forall_not_mem, List.mem_iff_getElem?]
  simp only [mem_placesOf, not_exists]

theorem placesOf_append_singleton (keys : List κ) (j k : κ) :
    placesOf (keys ++ [j]) k = placesOf keys k ++ if j = k then [keys.length] else [] := by
  have before : (List.range keys.length).filter (fun i => (keys ++ [j])[i]? = some k) =
      placesOf keys k :=
    List.filter_congr fun i below => by rw [List.getElem?_append_left (List.mem_range.1 below)]
  rw [placesOf, List.length_append, List.length_singleton, List.range_succ, List.filter_append, before]
  by_cases same : j = k <;> simp [same]

theorem head?_placesOf_append {keys : List κ} {k : κ} (met : k ∈ keys) (j : κ) :
    (placesOf (keys ++ [j]) k).head? = (placesOf keys k).head? := by
  have places : placesOf keys k ≠ [] := fun none => placesOf_eq_nil_iff.1 none met
  rw [placesOf_append_singleton, List.head?_append_of_ne_nil _ places]

theorem exists_first {keys : List κ} {k : κ} (met : k ∈ keys) :
    ∃ i, (placesOf keys k).head? = some i ∧ keys[i]? = some k := by
  obtain ⟨i, rest, places⟩ := List.exists_cons_of_ne_nil fun none => placesOf_eq_nil_iff.1 none met
  refine ⟨i, by rw [places, List.head?_cons], mem_placesOf.1 ?_⟩
  rw [places]
  exact List.mem_cons_self

theorem find?_eq_head?_placesOf {α : Type} (f : α → κ) (xs : List α) (k : κ) :
    xs.find? (fun x => f x = k) = (placesOf (xs.map f) k).head?.bind (xs[·]?) := by
  induction xs using List.reverseRecOn with
  | nil => rfl
  | append_singleton xs x ih =>
    rw [List.find?_append, ih, List.map_append, List.map_singleton]
    by_cases met : k ∈ xs.map f
    · obtain ⟨i, first, there⟩ := exists_first met
      have below : i < xs.length := by simpa using (List.getElem?_eq_some_iff.1 there).1
      rw [head?_placesOf_append met, first]
      simp [below, List.getElem?_append_left]
    · have nowhere := placesOf_eq_nil_iff.2 met
      rw [placesOf_append_singleton, nowhere]
      by_cases same : f x = k <;> simp [same]

theorem pairwise_eraseDups [BEq κ] [LawfulBEq κ] (keys : List κ) :
    keys.eraseDups.Pairwise fun a b =>
      ∃ i j, (placesOf keys a).head? = some i ∧ (placesOf keys b).head? = some j ∧ i < j := by
  induction keys using List.reverseRecOn with
  | nil => exact .nil
  | append_singleton keys k ih =>
    have older : keys.eraseDups.Pairwise fun a b => ∃ i j,
        (placesOf (keys ++ [k]) a).head? = some i ∧ (placesOf (keys ++ [k]) b).head? = some j ∧ i < j := by
      refine ih.imp_of_mem fun {a b} met met' => ?_
      rw [head?_placesOf_append (List.mem_eraseDups.1 met),
        head?_placesOf_append (List.mem_eraseDups.1 met')]
      exact id
    rw [eraseDups_append_singleton]
    split
    · exact older
    · next new =>
      refine List.pairwise_append.2 ⟨older, List.pairwise_singleton _ _, fun a met b last => ?_⟩
      obtain rfl := List.mem_singleton.1 last
      have met := List.mem_eraseDups.1 met
      obtain ⟨i, first, there⟩ := exists_first met
      refine ⟨i, keys.length, ?_, ?_, (List.getElem?_eq_some_iff.1 there).1⟩
      · rw [head?_placesOf_append met, first]
      · rw [placesOf_append_singleton, placesOf_eq_nil_iff.2 new, if_pos rfl]
        rfl

theorem placesOf_map {ι : Type} [DecidableEq ι] {f : κ → ι} (injective : Function.Injective f)
    (keys : List κ) (k : κ) : placesOf (keys.map f) (f k) = placesOf keys k := by
  simp only [placesOf, List.length_map, List.getElem?_map, Option.map_eq_some_iff, injective.eq_iff,
    exists_eq_right]

theorem length_placesOf [BEq κ] [LawfulBEq κ] (keys : List κ) (k : κ) :
    (placesOf keys k).length = keys.count k := by
  induction keys using List.reverseRecOn with
  | nil => rfl
  | append_singleton keys j ih =>
    rw [placesOf_append_singleton, List.length_append, ih, List.count_append, List.count_singleton]
    by_cases same : j = k <;> simp [same]

end Places

end Tabular
