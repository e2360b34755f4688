import Tabular.Json.Decode
import Tabular.Proofs.JsonNumbers

/-! Parts of JSON values. What was written as a list, a record or a tagged value is read as that, also when it
was put by first. A part of a value with exact numbers has exact numbers. -/

namespace Tabular

namespace Json

section Reading

variable {α : Type}

theorem list?_map {item? : Json → Option α} {write : α → Json} {as : List α}
    (reads : ∀ a ∈ as, item? (write a) = some a) : (list (as.map write)).list? item? = some as := by
  rw [list?, List.mapM_map]
  induction as with
  | nil => rfl
  | cons a as ih =>
    have rest := ih fun b mem => reads b (List.mem_cons_of_mem a mem)
    rw [List.mapM_cons, Function.comp_apply, reads a List.mem_cons_self, rest]
    rfl

theorem nullable?_orNull {value? : Json → Option α} {write : α → Json} {a? : Option α}
    (reads : ∀ a, a? = some a → value? (write a) = some a) (present : ∀ a, write a ≠ null) :
    (orNull write a?).nullable? value? = some a? := by
  cases a? with
  | none => rfl
  | some a =>
    have read := reads a rfl
    rw [orNull]
    unfold nullable?
    split
    · next absent => exact absurd absent (present a)
    · rw [read, Option.map_some]

end Reading

section Records

variable {first second : String} (other : first ≠ second) (a b : Json)

include other

theorem pair?_object : (object [(first, a), (second, b)]).pair? first second = some (a, b) := by
  simp [pair?, required?, member?, other, Ne.symm other]

theorem tagged?_object (delivery : Delivery) (names : List String) (name : String) :
    (object [(first, text name), (second, a)]).tagged? delivery names first second = some (name, some a) := by
  simp [tagged?, required?, member?, other, Ne.symm other, name?, variant?, nothing?]

end Records

theorem member?_middle {name : String} {middle : List (String × Json)}
    (others : ∀ m ∈ middle, m.1 ≠ name) (before after : List (String × Json)) :
    member? (before ++ middle ++ after) name = member? (before ++ after) name := by
  have none : middle.filter (·.1 = name) = [] :=
    List.filter_eq_nil_iff.2 fun m mem => by simpa using others m mem
  rw [member?, member?, List.filter_append, List.filter_append, none, List.append_nil, List.filter_append]

theorem optional?_of_member {α : Type} {members : List (String × Json)} {name : String}
    {value? : Json → Option α} {j : Json} (there : member? members name = some (some j)) :
    optional? members name value? = j.nullable? value? := by
  rw [optional?, there]
  rfl

theorem putAllBy?_of_forall {items : List Json} (same : ∀ j ∈ items, j.putBy? = some j) :
    putAllBy? items = some items := by
  induction items with
  | nil => rw [putAllBy?]
  | cons j js ih =>
    have rest := ih fun k mem => same k (List.mem_cons_of_mem j mem)
    rw [putAllBy?, same j List.mem_cons_self, rest]
    rfl

theorem putBy?_list {items : List Json} (same : ∀ j ∈ items, j.putBy? = some j) :
    (list items).putBy? = some (list items) := by
  rw [putBy?, putAllBy?_of_forall same, Option.map_some]

theorem putMembersBy?_of_forall {members : List (String × Json)}
    (same : ∀ m ∈ members, m.2.putBy? = some m.2) : putMembersBy? members = some members := by
  induction members with
  | nil => rw [putMembersBy?]
  | cons m ms ih =>
    have rest := ih fun n mem => same n (List.mem_cons_of_mem m mem)
    rw [putMembersBy?, same m List.mem_cons_self, rest]
    rfl

theorem int?_of_le {low high n : Int} (above : low ≤ n) (below : n ≤ high) : (int n).int? low high = some n :=
  if_pos ⟨above, below⟩

theorem word?_int (n : UInt64) : (int n.toNat).word? = some n := by
  have below : (n.toNat : Int) ≤ UInt64.size - 1 := by
    have := n.toNat_lt_size
    omega
  rw [word?, int?_of_le (Int.natCast_nonneg _) below]
  simp

theorem signedWord?_int (n : Int64) : (int n.toInt).signedWord? = some n := by
  rw [signedWord?, int?_of_le n.minValue_le_toInt n.toInt_le]
  simp

section Exactness

mutual

theorem exact_putBy? : ∀ {j k : Json}, j.Exact → j.putBy? = some k → k.Exact
  | list items, k, exact, put => by
    rw [putBy?] at put
    obtain ⟨ks, puts, rfl⟩ := Option.map_eq_some_iff.1 put
    cases exact with
    | list each => exact .list (exact_putAllBy? each puts)
  | object members, k, exact, put => by
    cases exact with
    | object each =>
      unfold putBy? at put
      split at put
      · next same => cases same
      -- An empty object as the content of a choice was put by as null.
      · cases put
        exact .object (List.forall_mem_singleton.2 .null)
      · next same =>
        obtain ⟨ns, puts, rfl⟩ := Option.map_eq_some_iff.1 put
        cases same
        exact .object (exact_putMembersBy? each puts)
      · cases put
      · next none _ => exact (none members rfl).elim
  | null, k, exact, put => by cases put; exact exact
  | bool b, k, exact, put => by cases put; exact exact
  | int n, k, exact, put => by cases put; exact exact
  | float x, k, exact, put => by cases put; exact exact
  | text s, k, exact, put => by cases put; exact exact
  | unreadable, k, exact, put => by cases put

theorem exact_putAllBy? : ∀ {js ks : List Json}, (∀ j ∈ js, j.Exact) → putAllBy? js = some ks →
    ∀ k ∈ ks, k.Exact
  | [], ks, each, put => by
    cases put
    exact nofun
  | j :: js, ks, each, put => by
    rw [putAllBy?] at put
    obtain ⟨k, first, put⟩ := Option.bind_eq_some_iff.1 put
    obtain ⟨rest, others, same⟩ := Option.bind_eq_some_iff.1 put
    cases same
    have each := List.forall_mem_cons.1 each
    exact List.forall_mem_cons.2 ⟨exact_putBy? each.1 first, exact_putAllBy? each.2 others⟩

theorem exact_putMembersBy? : ∀ {ms ns : List (String × Json)}, (∀ m ∈ ms, m.2.Exact) →
    putMembersBy? ms = some ns → ∀ n ∈ ns, n.2.Exact
  | [], ns, each, put => by
    cases put
    exact nofun
  | (name, j) :: ms, ns, each, put => by
    rw [putMembersBy?] at put
    obtain ⟨k, first, put⟩ := Option.bind_eq_some_iff.1 put
    obtain ⟨rest, others, same⟩ := Option.bind_eq_some_iff.1 put
    cases same
    have each := List.forall_mem_cons.1 each
    exact List.forall_mem_cons.2 ⟨exact_putBy? each.1 first, exact_putMembersBy? each.2 others⟩

end

variable {α : Type} {j : Json} {members : List (String × Json)} {name : String}

theorem exact_member? {j? : Option Json} (each : ∀ m ∈ members, m.2.Exact)
    (found : member? members name = some j?) : ∀ j, j? = some j → j.Exact := by
  rintro j rfl
  rw [member?] at found
  split at found
  · cases found
  · next m alone =>
    cases found
    have inside : m ∈ members.filter (·.1 = name) := alone ▸ List.mem_singleton_self m
    exact each m (List.mem_filter.1 inside).1
  · cases found

theorem exact_required? (each : ∀ m ∈ members, m.2.Exact) (found : required? members name = some j) :
    j.Exact := by
  obtain ⟨j?, found, same⟩ := Option.bind_eq_some_iff.1 found
  exact exact_member? each found j same

theorem exists_of_optional? {value? : Json → Option α} {a : α} (each : ∀ m ∈ members, m.2.Exact)
    (found : optional? members name value? = some (some a)) : ∃ j : Json, j.Exact ∧ value? j = some a := by
  obtain ⟨j?, found, read⟩ := Option.bind_eq_some_iff.1 found
  cases j? with
  | none => cases read
  | some j =>
    have exact := exact_member? each found j rfl
    dsimp only at read
    unfold nullable? at read
    split at read
    · cases read
    · obtain ⟨_, read, same⟩ := Option.map_eq_some_iff.1 read
      cases same
      exact ⟨j, exact, read⟩

theorem exists_of_list? {item? : Json → Option α} {as : List α} (exact : j.Exact)
    (read : j.list? item? = some as) : ∀ a ∈ as, ∃ i : Json, i.Exact ∧ item? i = some a := by
  cases exact with
  | @list items each =>
    rw [list?] at read
    induction items generalizing as with
    | nil =>
      cases read
      exact nofun
    | cons i is ih =>
      rw [List.mapM_cons] at read
      obtain ⟨a, first, read⟩ := Option.bind_eq_some_iff.1 read
      obtain ⟨rest, others, same⟩ := Option.bind_eq_some_iff.1 read
      cases same
      have each := List.forall_mem_cons.1 each
      exact List.forall_mem_cons.2 ⟨⟨i, each.1, first⟩, ih each.2 others⟩
  | _ => cases read

theorem exact_pair? {first second : String} {x y : Json} (exact : j.Exact)
    (read : j.pair? first second = some (x, y)) : x.Exact ∧ y.Exact := by
  unfold pair? at read
  split at read
  · cases exact with
    | object each =>
      obtain ⟨a, found, read⟩ := Option.bind_eq_some_iff.1 read
      obtain ⟨b, found', same⟩ := Option.bind_eq_some_iff.1 read
      cases same
      exact ⟨exact_required? each found, exact_required? each found'⟩
  · cases read
    cases exact with
    | list each => exact ⟨each _ List.mem_cons_self, each _ (List.mem_cons_of_mem _ List.mem_cons_self)⟩
  · cases read

theorem exact_single? {x : Json} (exact : j.Exact) (read : j.single? name = some x) : x.Exact := by
  unfold single? at read
  split at read
  · cases exact with
    | object each => exact exact_required? each read
  · cases read
    cases exact with
    | list each => exact each _ List.mem_cons_self
  · cases read

theorem exact_tagged? {delivery : Delivery} {names : List String} {tag content : String} {x : Json}
    (exact : j.Exact) (read : j.tagged? delivery names tag content = some (name, some x)) : x.Exact := by
  unfold tagged? at read
  split at read
  · cases exact with
    | object each =>
      obtain ⟨_, -, read⟩ := Option.bind_eq_some_iff.1 read
      obtain ⟨_, -, read⟩ := Option.bind_eq_some_iff.1 read
      obtain ⟨_, found, same⟩ := Option.bind_eq_some_iff.1 read
      cases same
      exact exact_member? each found x rfl
  · obtain ⟨_, -, same⟩ := Option.bind_eq_some_iff.1 read
    cases same
    cases exact with
    | list each => exact each _ (List.mem_cons_of_mem _ List.mem_cons_self)
  · cases read

end Exactness

end Json

end Tabular
