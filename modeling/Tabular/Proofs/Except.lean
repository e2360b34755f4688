import Mathlib.Data.List.Forall2
import Mathlib.Data.List.Induction

/-! Computations that may be refused, and lists of them: what it means that they succeed. -/

namespace Tabular

variable {ε α β γ : Type}

theorem bind_eq_ok_iff {x : Except ε α} {f : α → Except ε β} {b : β} :
    (x >>= f) = .ok b ↔ ∃ a, x = .ok a ∧ f a = .ok b := by
  cases x with
  | error e => simp [bind, Except.bind]
  | ok a => simp [bind, Except.bind]

theorem map_eq_ok_iff {x : Except ε α} {f : α → β} {b : β} :
    x.map f = .ok b ↔ ∃ a, x = .ok a ∧ f a = b := by
  cases x with
  | error e => simp [Except.map]
  | ok a => simp [Except.map]

@[simp] theorem map_eq_error_iff {x : Except ε α} {f : α → β} {e : ε} :
    x.map f = .error e ↔ x = .error e := by
  cases x with
  | error e => simp [Except.map]
  | ok a => simp [Except.map]

theorem map_map {x : Except ε α} {f : α → β} {g : β → γ} : (x.map f).map g = x.map (g ∘ f) := by
  cases x <;> rfl

theorem toOption_map (x : Except ε α) (g : α → β) :
    (x.map g).toOption = x.toOption.map g := by
  cases x <;> rfl

@[simp] theorem ok_bind (a : α) (f : α → Except ε β) : (Except.ok a >>= f) = f a := rfl

theorem mapM_cons_eq_ok_iff {f : α → Except ε β} {a : α} {as : List α} {bs : List β} :
    (a :: as).mapM f = .ok bs ↔ ∃ b rest, f a = .ok b ∧ as.mapM f = .ok rest ∧ bs = b :: rest := by
  rw [List.mapM_cons, bind_eq_ok_iff]
  refine exists_congr fun b => ?_
  rw [bind_eq_ok_iff]
  constructor
  · rintro ⟨head, rest, tail, same⟩
    cases same
    exact ⟨rest, head, tail, rfl⟩
  · rintro ⟨rest, head, tail, rfl⟩
    exact ⟨head, rest, tail, rfl⟩

theorem mapM_eq_ok_iff {f : α → Except ε β} {as : List α} {bs : List β} :
    as.mapM f = .ok bs ↔ List.Forall₂ (fun a b => f a = .ok b) as bs := by
  induction as generalizing bs with
  | nil =>
    rw [List.mapM_nil, List.forall₂_nil_left_iff]
    exact ⟨fun h => by cases h; rfl, fun h => by rw [h]; rfl⟩
  | cons a as ih =>
    rw [mapM_cons_eq_ok_iff, List.forall₂_cons_left_iff]
    simp only [ih]

theorem mapM_append_eq_ok_iff {f : α → Except ε β} {as as' : List α} {bs : List β} :
    (as ++ as').mapM f = .ok bs ↔
      ∃ left right, as.mapM f = .ok left ∧ as'.mapM f = .ok right ∧ bs = left ++ right := by
  rw [List.mapM_append, bind_eq_ok_iff]
  refine exists_congr fun left => ?_
  rw [bind_eq_ok_iff]
  constructor
  · rintro ⟨made, right, made', same⟩
    cases same
    exact ⟨right, made, made', rfl⟩
  · rintro ⟨right, made, made', rfl⟩
    exact ⟨made, right, made', rfl⟩

theorem exists_mapM_iff {f : α → Except ε β} {as : List α} :
    (∃ bs, as.mapM f = .ok bs) ↔ ∀ a ∈ as, ∃ b, f a = .ok b := by
  simp only [mapM_eq_ok_iff]
  induction as with
  | nil => simp
  | cons a as ih =>
    rw [List.forall_mem_cons, ← ih]
    constructor
    · rintro ⟨_, each⟩
      obtain ⟨b, bs, head, tail, rfl⟩ := List.forall₂_cons_left_iff.1 each
      exact ⟨⟨b, head⟩, bs, tail⟩
    · rintro ⟨⟨b, head⟩, bs, tail⟩
      exact ⟨b :: bs, .cons head tail⟩

theorem exists_error_iff_not {x : Except ε α} : (∃ e, x = .error e) ↔ ¬∃ a, x = .ok a := by
  cases x <;> simp

theorem exists_mapM_error_iff {f : α → Except ε β} {as : List α} :
    (∃ e, as.mapM f = .error e) ↔ ∃ a ∈ as, ∃ e, f a = .error e := by
  rw [exists_error_iff_not, exists_mapM_iff]
  simp only [exists_error_iff_not, not_forall, exists_prop]

theorem length_mapM {f : α → Except ε β} {as : List α} {bs : List β} (h : as.mapM f = .ok bs) :
    bs.length = as.length :=
  (mapM_eq_ok_iff.1 h).length_eq.symm

theorem mapM_eq_ok_map {f : α → Except ε β} {g : α → β} {as : List α} (each : ∀ a ∈ as, f a = .ok (g a)) :
    as.mapM f = .ok (as.map g) := by
  rw [mapM_eq_ok_iff, List.forall₂_map_right_iff, List.forall₂_same]
  exact each

theorem map_eq_map_of_mapM {f : α → Except ε β} {p : α → γ} {q : β → γ} {as : List α} {bs : List β}
    (made : as.mapM f = .ok bs) (same : ∀ a b, f a = .ok b → p a = q b) : as.map p = bs.map q := by
  have each := mapM_eq_ok_iff.1 made
  clear made
  induction each with
  | nil => rfl
  | cons head _ ih => rw [List.map_cons, List.map_cons, same _ _ head, ih]

theorem eq_map_of_mapM {f : α → Except ε β} {g : α → β} {as : List α} {bs : List β} (made : as.mapM f = .ok bs)
    (same : ∀ a b, f a = .ok b → b = g a) : bs = as.map g := by
  have alike : as.map g = bs.map id := map_eq_map_of_mapM made fun a b first => (same a b first).symm
  rw [alike, List.map_id]

theorem mapM_congr {f g : α → Except ε β} {as : List α} (same : ∀ a ∈ as, f a = g a) : as.mapM f = as.mapM g := by
  induction as with
  | nil => rfl
  | cons a as ih =>
    obtain ⟨first, rest⟩ := List.forall_mem_cons.1 same
    rw [List.mapM_cons, List.mapM_cons, first, ih rest]

theorem mapM_comp_map {f : α → Except ε β} {g : β → γ} (as : List α) :
    as.mapM (fun a => (f a).map g) = (as.mapM f).map (List.map g) := by
  induction as with
  | nil => rfl
  | cons a as ih =>
    rw [List.mapM_cons, List.mapM_cons, ih]
    cases f a with
    | error e => rfl
    | ok b => cases as.mapM f <;> rfl

theorem mapM_eq_of_eq_ok {f : α → Except ε β} {g : β → Except ε γ} {h : α → Except ε γ} {as : List α}
    {bs : List β} (made : as.mapM f = .ok bs) (same : ∀ a ∈ as, ∀ b, f a = .ok b → g b = h a) :
    bs.mapM g = as.mapM h := by
  have each := mapM_eq_ok_iff.1 made
  clear made
  induction each with
  | nil => rfl
  | cons head _ ih =>
    obtain ⟨first, rest⟩ := List.forall_mem_cons.1 same
    rw [List.mapM_cons, List.mapM_cons, first _ head, ih rest]

theorem mapM_bind_of_eq_ok {f : α → Except ε β} {as : List α} {bs : List β} (made : as.mapM f = .ok bs)
    (g : β → Except ε γ) : as.mapM (fun a => f a >>= g) = bs.mapM g :=
  (mapM_eq_of_eq_ok made fun a _ b first => by rw [first, ok_bind]).symm

theorem map_eq_map_iff_of_mapM {f f' : α → Except ε β} {as : List α} {bs bs' : List β}
    (made : as.mapM f = .ok bs) (made' : as.mapM f' = .ok bs') (g : β → γ) :
    bs.map g = bs'.map g ↔ ∀ a ∈ as, (f a).map g = (f' a).map g := by
  induction as generalizing bs bs' with
  | nil =>
    cases made
    cases made'
    simp
  | cons a as ih =>
    obtain ⟨b, bs, head, tail, rfl⟩ := mapM_cons_eq_ok_iff.1 made
    obtain ⟨b', bs', head', tail', rfl⟩ := mapM_cons_eq_ok_iff.1 made'
    simp [ih tail tail', head, head', Except.map]

theorem mapM_range {f : α → Except ε β} {g : Nat → Except ε β} {as : List α}
    (reads : ∀ i a, as[i]? = some a → g i = f a) : (List.range as.length).mapM g = as.mapM f := by
  induction as using List.reverseRecOn with
  | nil => rfl
  | append_singleton as a ih =>
    have last : g as.length = f a := reads as.length a (by simp)
    rw [List.length_append, List.length_singleton, List.range_succ, List.mapM_append,
      List.mapM_append, ih fun i b found => reads i b ?_]
    · simp only [List.mapM_cons, List.mapM_nil, last]
    · rw [List.getElem?_append_left (List.getElem?_eq_some_iff.1 found).1, found]

theorem exists_of_getElem?_mapM {f : α → Except ε β} {as : List α} {bs : List β}
    (made : as.mapM f = .ok bs) {i : Nat} {b : β} (there : bs[i]? = some b) :
    ∃ a, as[i]? = some a ∧ f a = .ok b := by
  have each := mapM_eq_ok_iff.1 made
  clear made
  induction each generalizing i with
  | nil => cases there
  | cons head _ ih =>
    cases i with
    | zero =>
      cases there
      exact ⟨_, rfl, head⟩
    | succ i => exact ih there

theorem exists_of_mem_mapM {f : α → Except ε β} {as : List α} {bs : List β}
    (h : as.mapM f = .ok bs) {b : β} (mem : b ∈ bs) : ∃ a ∈ as, f a = .ok b := by
  obtain ⟨i, there⟩ := List.mem_iff_getElem?.1 mem
  obtain ⟨a, place, made⟩ := exists_of_getElem?_mapM h there
  exact ⟨a, List.mem_of_getElem? place, made⟩

end Tabular
