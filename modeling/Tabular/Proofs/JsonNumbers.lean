import Tabular.Json.Reader
import Tabular.Proofs.Rounding

/-! The numbers that a JSON text can hold. Whatever is read from a text has integers that fit a word, with
or without a sign, and doubles that are finite, since what is too great for a double is not read. -/

namespace Tabular

namespace Json

open Number

/-- All integers are words, with or without a sign, and all doubles are finite. -/
inductive Exact : Json → Prop
  | null : Exact null
  | bool (b : Bool) : Exact (bool b)
  | int {n : Int} (low : Int64.minValue.toInt ≤ n) (high : n < UInt64.size) : Exact (int n)
  | float {x : Binary64} (finite : x.isFinite = true) : Exact (float x)
  | text (s : String) : Exact (text s)
  | list {items : List Json} (each : ∀ j ∈ items, Exact j) : Exact (list items)
  | object {members : List (String × Json)} (each : ∀ m ∈ members, Exact m.2) : Exact (object members)
  | unreadable : Exact unreadable

namespace Literal

theorem takeDigits_le {s : Nat} (fits : s ≤ wordLimit) (digits : List Nat) :
    (takeDigits s digits).1 ≤ wordLimit := by
  induction digits generalizing s with
  | nil => exact fits
  | cons d ds ih =>
    rw [takeDigits]
    split
    · next room => exact ih room
    · exact fits

theorem isFinite_of_finite? {x y : Binary64} (made : finite? x = some y) : y.isFinite = true := by
  rw [finite?] at made
  split at made
  · next finite =>
    cases made
    exact finite
  · cases made

theorem isFinite_of_scale {x y : Binary64} {e : Int} (scaled : scale x e = some y) : y.isFinite = true := by
  fun_induction scale x e with
  | case1 => exact isFinite_of_finite? scaled
  | case2 x e far zero =>
    have same : x = y := Option.some.inj scaled
    have none : x.magnitude = 0 := of_decide_eq_true zero
    rw [← same, Binary64.isFinite, none]
    decide
  | case3 => cases scaled
  | case4 x e far nonzero down ih => exact ih scaled

theorem isFinite_sign {l : Literal} {x : Binary64} (finite : x.isFinite = true) :
    (l.sign x).isFinite = true := by
  rw [sign]
  split
  · exact Binary64.isFinite_neg finite
  · exact finite

theorem isFinite_of_toFloat {l : Literal} {s : Nat} {e : Int} {x : Binary64}
    (made : l.toFloat? s e = some x) : x.isFinite = true := by
  obtain ⟨y, scaled, rfl⟩ := Option.map_eq_some_iff.1 made
  exact isFinite_sign (isFinite_of_scale scaled)

theorem isFinite_of_scaled {l : Literal} {s : Nat} {e : Int} {x : Binary64}
    (made : l.scaled? s e = some x) : x.isFinite = true := by
  rw [scaled?] at made
  split at made
  · exact isFinite_of_toFloat made
  · simp only at made
    split at made
    · split at made
      · cases made
      · cases made
        exact isFinite_sign (by decide)
    · exact isFinite_of_toFloat made

theorem exact_toJson (l : Literal) : l.toJson.Exact := by
  have limit : wordLimit < UInt64.size := by decide
  have least : Int64.minValue.toInt = -9223372036854775808 := rfl
  have fits : (takeDigits 0 l.whole).1 ≤ wordLimit := takeDigits_le (Nat.zero_le _) l.whole
  simp only [toJson]
  split
  · split
    · exact .int (by omega) (by omega)
    · split
      · exact .float (Binary64.isFinite_neg (Binary64.isFinite_ofInt (by omega)))
      · exact .int (by omega) (by omega)
  · split
    · next made => exact .float (isFinite_of_scaled made)
    · exact .unreadable

end Literal

namespace Token

def Exact : Token → Prop
  | value j => j.Exact
  | _ => True

theorem exact_lexOne {cs rest : List Char} {t : Token} (lexed : lexOne cs = some (t, rest)) : t.Exact := by
  unfold lexOne at lexed
  split at lexed
  case h_7 =>
    obtain ⟨_, -, same⟩ := Option.map_eq_some_iff.1 lexed
    cases same
    trivial
  case h_8 => cases lexed; exact .null
  case h_9 => cases lexed; exact .bool true
  case h_10 => cases lexed; exact .bool false
  case h_11 =>
    obtain ⟨⟨l, _⟩, -, same⟩ := Option.map_eq_some_iff.1 lexed
    cases same
    exact l.exact_toJson
  all_goals cases lexed; trivial

theorem exact_lexAll {fuel : Nat} {cs : List Char} {tokens : List Token}
    (lexed : lexAll fuel cs = some tokens) : ∀ t ∈ tokens, t.Exact := by
  induction fuel generalizing cs tokens with
  | zero => cases lexed; exact nofun
  | succ fuel ih =>
    rw [lexAll] at lexed
    split at lexed
    · cases lexed
      exact nofun
    · obtain ⟨⟨t, rest⟩, first, lexed⟩ := Option.bind_eq_some_iff.1 lexed
      obtain ⟨ts, others, same⟩ := Option.bind_eq_some_iff.1 lexed
      cases same
      exact List.forall_mem_cons.2 ⟨exact_lexOne first, ih others⟩

end Token

theorem exact_nested {room : Nat} {j : Json} (exact : j.Exact) : (nested room j).Exact := by
  rw [nested]
  split
  · exact .unreadable
  · exact exact

section Reading

mutual

theorem exact_readValue : ∀ {fuel room : Nat} {tokens rest : List Token} {j : Json},
    (∀ t ∈ tokens, t.Exact) → readValue fuel room tokens = some (j, rest) → j.Exact ∧ ∀ t ∈ rest, t.Exact
  | 0, _, _, _, _, _, read => by cases read
  | fuel + 1, room, tokens, rest, j, exact, read => by
    unfold readValue at read
    split at read
    · cases read
      exact List.forall_mem_cons.1 exact
    · next s? rest =>
      cases read
      refine ⟨?_, (List.forall_mem_cons.1 exact).2⟩
      cases s? with
      | none => exact .unreadable
      | some s => exact .text s
    · cases read
      exact ⟨exact_nested (.list nofun), (List.forall_mem_cons.1 (List.forall_mem_cons.1 exact).2).2⟩
    · obtain ⟨⟨items, after⟩, inside, same⟩ := Option.bind_eq_some_iff.1 read
      cases same
      obtain ⟨each, exact⟩ := exact_readItems (List.forall_mem_cons.1 exact).2 inside
      exact ⟨exact_nested (.list each), exact⟩
    · cases read
      exact ⟨exact_nested (.object nofun), (List.forall_mem_cons.1 (List.forall_mem_cons.1 exact).2).2⟩
    · obtain ⟨⟨members?, after⟩, inside, same⟩ := Option.bind_eq_some_iff.1 read
      cases same
      obtain ⟨each, exact⟩ := exact_readMembers (List.forall_mem_cons.1 exact).2 inside
      refine ⟨exact_nested ?_, exact⟩
      cases members? with
      | none => exact .unreadable
      | some members => exact .object (each members rfl)
    · cases read

theorem exact_readItems : ∀ {fuel room : Nat} {tokens rest : List Token} {items : List Json},
    (∀ t ∈ tokens, t.Exact) → readItems fuel room tokens = some (items, rest) →
    (∀ j ∈ items, j.Exact) ∧ ∀ t ∈ rest, t.Exact
  | 0, _, _, _, _, _, read => by cases read
  | fuel + 1, room, tokens, rest, items, exact, read => by
    rw [readItems] at read
    obtain ⟨⟨item, after⟩, first, read⟩ := Option.bind_eq_some_iff.1 read
    obtain ⟨head, exact⟩ := exact_readValue exact first
    dsimp only at read
    split at read
    · cases read
      exact ⟨List.forall_mem_singleton.2 head, (List.forall_mem_cons.1 exact).2⟩
    · obtain ⟨⟨items, after⟩, others, same⟩ := Option.bind_eq_some_iff.1 read
      cases same
      obtain ⟨tail, exact⟩ := exact_readItems (List.forall_mem_cons.1 exact).2 others
      exact ⟨List.forall_mem_cons.2 ⟨head, tail⟩, exact⟩
    · cases read

theorem exact_readMembers : ∀ {fuel room : Nat} {tokens rest : List Token}
    {members? : Option (List (String × Json))},
    (∀ t ∈ tokens, t.Exact) → readMembers fuel room tokens = some (members?, rest) →
    (∀ members, members? = some members → ∀ m ∈ members, m.2.Exact) ∧ ∀ t ∈ rest, t.Exact
  | 0, _, _, _, _, _, read => by cases read
  | fuel + 1, room, tokens, rest, members?, exact, read => by
    unfold readMembers at read
    split at read
    · next name? _ =>
      have exact := (List.forall_mem_cons.1 (List.forall_mem_cons.1 exact).2).2
      obtain ⟨⟨value, after⟩, first, read⟩ := Option.bind_eq_some_iff.1 read
      obtain ⟨head, exact⟩ := exact_readValue exact first
      dsimp only at read
      split at read
      · cases read
        refine ⟨fun members named => ?_, (List.forall_mem_cons.1 exact).2⟩
        obtain ⟨m, member, rfl⟩ := Option.map_eq_some_iff.1 named
        obtain ⟨name, -, rfl⟩ := Option.map_eq_some_iff.1 member
        exact List.forall_mem_singleton.2 head
      · obtain ⟨⟨others?, after⟩, others, same⟩ := Option.bind_eq_some_iff.1 read
        cases same
        obtain ⟨tail, exact⟩ := exact_readMembers (List.forall_mem_cons.1 exact).2 others
        refine ⟨fun members named => ?_, exact⟩
        obtain ⟨m, member, named⟩ := Option.bind_eq_some_iff.1 named
        obtain ⟨ms, found, same⟩ := Option.bind_eq_some_iff.1 named
        cases same
        obtain ⟨name, -, rfl⟩ := Option.map_eq_some_iff.1 member
        exact List.forall_mem_cons.2 ⟨head, tail ms found⟩
      · cases read
    · cases read

end

end Reading

/-- Every number that is read from a text is a word or a finite double. -/
def ReadsExactly (read? : String → Option Json) : Prop := ∀ s j, read? s = some j → j.Exact

theorem readsExactly_parse : ReadsExactly parse? := by
  intro s j read
  obtain ⟨tokens, lexed, read⟩ := Option.bind_eq_some_iff.1 read
  obtain ⟨⟨value, rest⟩, found, same⟩ := Option.bind_eq_some_iff.1 read
  split at same
  · next whole =>
    cases whole
    cases same
    exact (exact_readValue (Token.exact_lexAll lexed) found).1
  · cases same

end Json

end Tabular
