import Mathlib.Data.List.Zip
import Tabular.Frame.Rows
import Tabular.Proofs.RowLists

/-! Frames put one under the other. A frame takes the rows of another one just if both have the same types in the
same order, and everything fits under a frame without columns. Hence three frames can be put together from either
end, unless the one in the middle has no columns and the first one has: that one takes none but its own types. -/

namespace Tabular

namespace Contents

theorem data_append (x : Contents) (cells : List (Cell x.type)) :
    (x.append cells).data = x.data ++ cells.map (Datum.mk x.type) :=
  List.map_append

theorem ext_data {x y : Contents} (header : x.header = y.header) (data : x.data = y.data) : x = y := by
  obtain ⟨name, type, cells⟩ := x
  obtain ⟨name', type', cells'⟩ := y
  cases header
  have injective : Function.Injective (Datum.mk type) := fun _ _ same => by cases same; rfl
  exact congrArg (Contents.mk name type) (List.map_injective_iff.2 injective data)

theorem map_ext_data {xs ys : List Contents} (headers : xs.map header = ys.map header)
    (datas : xs.map data = ys.map data) : xs = ys := by
  induction xs generalizing ys with
  | nil => exact (List.map_eq_nil_iff.1 headers.symm).symm
  | cons x xs ih =>
    obtain ⟨y, ys, rfl, head, tail⟩ := List.map_eq_cons_iff.1 headers.symm
    obtain ⟨head', tail'⟩ := List.cons.inj datas
    rw [ext_data head.symm head', ih tail.symm tail']

end Contents

theorem across_append {α : Type} {m n : Nat} {xs ys : List (List α)} (counted : xs.length = ys.length)
    (long : ∀ x ∈ xs, x.length = m) (long' : ∀ y ∈ ys, y.length = n) :
    across (m + n) (List.zipWith (· ++ ·) xs ys) = across m xs ++ across n ys := by
  induction xs generalizing ys with
  | nil =>
    obtain rfl := List.length_eq_zero_iff.1 counted.symm
    exact List.replicate_append_replicate.symm
  | cons x xs ih =>
    obtain ⟨y, ys, rfl⟩ := List.exists_cons_of_length_eq_add_one counted.symm
    obtain ⟨head, tail⟩ := List.forall_mem_cons.1 long
    obtain ⟨-, tail'⟩ := List.forall_mem_cons.1 long'
    rw [List.zipWith_cons_cons, across, ih (Nat.succ.inj counted) tail tail',
      List.zipWith_append (by rw [head, length_across tail])]
    rfl

namespace Column

variable {c s : Column}

theorem result_extendFrom_of_ne (apart : s.type ≠ c.type) :
    (c.extendFrom s).result = .error (.foreignElements c.type s.type) := by
  rw [extendFrom, elementsFrom, seriesAs?, dif_neg apart]
  rfl

theorem exists_extendFrom (same : s.type = c.type) :
    ∃ d, (c.extendFrom s).result = .ok d ∧ d.contents.header = c.contents.header ∧
      d.contents.data = c.contents.data ++ s.contents.data := by
  obtain ⟨t, series⟩ := c
  obtain ⟨u, source⟩ := s
  obtain rfl : u = t := same
  have elements : (⟨u, series⟩ : Column).elementsFrom ⟨u, source⟩ = .ok source.buffer := by
    rw [elementsFrom, seriesAs?_type ⟨u, source⟩]
  obtain ⟨d, done, shown⟩ := map_eq_ok_iff.1
    (contents_alter_insert_length ⟨u, series⟩ source.buffer.length source.buffer.items)
  refine ⟨d, ?_, by rw [shown]; rfl, ?_⟩
  · rw [extendFrom, elements]
    exact done
  · rw [shown]
    exact Contents.data_append _ _

end Column

namespace Frame

variable {f g h k : Frame} {m n p : Nat}

theorem types_eq_nil_iff : f.types = [] ↔ f.columns = [] := List.map_eq_nil_iff

theorem vcat_of_bare (bare : f.columns = []) : f.vcat g = .ok g := by
  rw [vcat, if_pos (by rw [bare]; rfl)]

theorem vcat_of_width_ne (wide : f.columns ≠ []) (apart : g.width ≠ f.width) :
    f.vcat g = .error (.widthMismatch f.width g.width) := by
  rw [vcat, if_neg (by simpa using wide), if_pos apart]

theorem exists_mapM_extendFrom {columns sources : List Column}
    (same : columns.map Column.type = sources.map Column.type) :
    ∃ made, ((columns.zip sources).mapM fun (c, source) => (c.extendFrom source).result) = .ok made ∧
      made.map (Contents.header ∘ Column.contents) = columns.map (Contents.header ∘ Column.contents) ∧
      made.map (Contents.data ∘ Column.contents) = List.zipWith (· ++ ·)
        (columns.map (Contents.data ∘ Column.contents)) (sources.map (Contents.data ∘ Column.contents)) := by
  induction columns generalizing sources with
  | nil =>
    obtain rfl := List.map_eq_nil_iff.1 same.symm
    exact ⟨[], rfl, rfl, rfl⟩
  | cons c cs ih =>
    obtain ⟨s, ss, rfl, head, tail⟩ := List.map_eq_cons_iff.1 same.symm
    obtain ⟨d, made, header, data⟩ := Column.exists_extendFrom head
    obtain ⟨ds, others, headers, datas⟩ := ih tail.symm
    refine ⟨d :: ds, mapM_cons_eq_ok_iff.2 ⟨d, ds, made, others, rfl⟩, ?_, ?_⟩
    · rw [List.map_cons, List.map_cons, headers]
      exact congrArg (· :: _) header
    · rw [List.map_cons, List.map_cons, List.map_cons, List.zipWith_cons_cons, datas]
      exact congrArg (· :: _) data

theorem types_eq_of_mapM_extendFrom {columns sources made : List Column} (counted : columns.length = sources.length)
    (extended : ((columns.zip sources).mapM fun (c, source) => (c.extendFrom source).result) = .ok made) :
    columns.map Column.type = sources.map Column.type := by
  rw [← List.forall₂_eq_eq_eq, List.forall₂_map_left_iff, List.forall₂_map_right_iff, List.forall₂_iff_zip]
  refine ⟨counted, fun {c s} mem => ?_⟩
  obtain ⟨d, taken⟩ := exists_mapM_iff.1 ⟨made, extended⟩ (c, s) mem
  by_contra apart
  have refused := Column.result_extendFrom_of_ne (Ne.symm apart)
  cases refused.symm.trans taken

theorem exists_vcat (left : HasRows f.columns m) (right : HasRows g.columns n) (wide : f.columns ≠ [])
    (same : f.types = g.types) :
    ∃ k, f.vcat g = .ok k ∧ k.header = f.header ∧
      k.contents.map Contents.data =
        List.zipWith (· ++ ·) (f.contents.map Contents.data) (g.contents.map Contents.data) := by
  obtain ⟨columns, made, headers, datas⟩ := exists_mapM_extendFrom same
  have alike : ¬g.width ≠ f.width := not_not.2 (by simpa [types, width] using congrArg List.length same.symm)
  refine ⟨⟨columns, none⟩, ?_, ?_, ?_⟩
  · rw [vcat, if_neg (by simpa using wide), if_neg alike, size_eq_ok_iff.2 left, size_eq_ok_iff.2 right]
    simp only [ok_bind, made]
    rfl
  · simpa only [header, contents, List.map_map] using headers
  · simpa only [contents, List.map_map] using datas

theorem types_eq_of_vcat (wide : f.columns ≠ []) (made : f.vcat g = .ok k) : f.types = g.types := by
  by_cases alike : g.width = f.width
  · rw [vcat, if_neg (by simpa using wide), if_neg (not_not.2 alike)] at made
    obtain ⟨_, -, made⟩ := bind_eq_ok_iff.1 made
    obtain ⟨_, -, made⟩ := bind_eq_ok_iff.1 made
    obtain ⟨columns, extended, -⟩ := bind_eq_ok_iff.1 made
    exact types_eq_of_mapM_extendFrom alike.symm extended
  · cases (vcat_of_width_ne wide alike).symm.trans made

theorem exists_vcat_iff (left : HasRows f.columns m) (right : HasRows g.columns n) :
    (∃ k, f.vcat g = .ok k) ↔ f.types = [] ∨ f.types = g.types := by
  by_cases wide : f.columns = []
  · exact ⟨fun _ => .inl (types_eq_nil_iff.2 wide), fun _ => ⟨g, vcat_of_bare wide⟩⟩
  · constructor
    · rintro ⟨k, made⟩
      exact .inr (types_eq_of_vcat wide made)
    · rintro (none | same)
      · exact absurd (types_eq_nil_iff.1 none) wide
      · obtain ⟨k, made, -⟩ := exists_vcat left right wide same
        exact ⟨k, made⟩

section Made

variable (left : HasRows f.columns m) (right : HasRows g.columns n) (made : f.vcat g = .ok k)

include left right made

theorem header_vcat : k.header = if f.columns = [] then g.header else f.header := by
  split
  · next bare =>
    cases (vcat_of_bare bare).symm.trans made
    rfl
  · next wide =>
    obtain ⟨k', made', header, -⟩ := exists_vcat left right wide (types_eq_of_vcat wide made)
    cases made'.symm.trans made
    exact header

theorem types_vcat : k.types = if f.types = [] then g.types else f.types := by
  rw [types_eq, header_vcat left right made, apply_ite (List.map Prod.snd), ← types_eq, ← types_eq]
  simp only [types_eq_nil_iff]

theorem data_vcat (wide : f.columns ≠ []) : k.contents.map Contents.data =
    List.zipWith (· ++ ·) (f.contents.map Contents.data) (g.contents.map Contents.data) := by
  obtain ⟨k', made', -, data⟩ := exists_vcat left right wide (types_eq_of_vcat wide made)
  cases made'.symm.trans made
  exact data

theorem hasRows_vcat : HasRows k.columns (m + n) := by
  by_cases wide : f.columns = []
  · cases (vcat_of_bare wide).symm.trans made
    rwa [left.empty wide, Nat.zero_add]
  · refine ⟨fun c mem => ?_, fun bare => ?_⟩
    · have inside : c.contents.data ∈ k.contents.map Contents.data := List.mem_map_of_mem (List.mem_map_of_mem mem)
      rw [data_vcat left right made wide, ← List.map_uncurry_zip_eq_zipWith] at inside
      obtain ⟨⟨xs, ys⟩, both, joined⟩ := List.mem_map.1 inside
      obtain ⟨upper, lower⟩ := List.of_mem_zip both
      have counted : c.length = c.contents.data.length := by rw [Contents.length_data, Column.length_contents]
      rw [counted, ← joined, ← left.data xs upper, ← right.data ys lower]
      exact List.length_append
    · have headers := header_vcat left right made
      rw [if_neg wide, header, contents, bare] at headers
      exact absurd (List.map_eq_nil_iff.1 (List.map_eq_nil_iff.1 headers.symm)) wide

theorem rowList_vcat : k.rowList = f.rowList ++ g.rowList := by
  by_cases wide : f.columns = []
  · cases (vcat_of_bare wide).symm.trans made
    have none : f.rowList = [] := List.length_eq_zero_iff.1 (by rw [left.length_rowList, left.empty wide])
    rw [none, List.nil_append]
  · have counted : (f.contents.map Contents.data).length = (g.contents.map Contents.data).length := by
      simpa [types, contents] using congrArg List.length (types_eq_of_vcat wide made)
    rw [(hasRows_vcat left right made).rowList, data_vcat left right made wide,
      across_append counted left.data right.data, ← left.rowList, ← right.rowList]

end Made

section Three

variable (left : HasRows f.columns m) (middle : HasRows g.columns n) (right : HasRows h.columns p)

include left middle right

theorem exists_vcat_vcat_left_iff : (∃ k, (f.vcat g >>= (·.vcat h)) = .ok k) ↔
    (f.types = [] ∨ f.types = g.types) ∧
      ((if f.types = [] then g.types else f.types) = [] ∨ (if f.types = [] then g.types else f.types) = h.types) := by
  simp only [bind_eq_ok_iff]
  constructor
  · rintro ⟨k, k', made, made'⟩
    refine ⟨(exists_vcat_iff left middle).1 ⟨k', made⟩, ?_⟩
    rw [← types_vcat left middle made]
    exact (exists_vcat_iff (hasRows_vcat left middle made) right).1 ⟨k, made'⟩
  · rintro ⟨first, second⟩
    obtain ⟨k', made⟩ := (exists_vcat_iff left middle).2 first
    rw [← types_vcat left middle made] at second
    obtain ⟨k, made'⟩ := (exists_vcat_iff (hasRows_vcat left middle made) right).2 second
    exact ⟨k, k', made, made'⟩

theorem exists_vcat_vcat_right_iff : (∃ k, (g.vcat h >>= (f.vcat ·)) = .ok k) ↔
    (g.types = [] ∨ g.types = h.types) ∧
      (f.types = [] ∨ f.types = if g.types = [] then h.types else g.types) := by
  simp only [bind_eq_ok_iff]
  constructor
  · rintro ⟨k, k', made, made'⟩
    refine ⟨(exists_vcat_iff middle right).1 ⟨k', made⟩, ?_⟩
    rw [← types_vcat middle right made]
    exact (exists_vcat_iff left (hasRows_vcat middle right made)).1 ⟨k, made'⟩
  · rintro ⟨first, second⟩
    obtain ⟨k', made⟩ := (exists_vcat_iff middle right).2 first
    rw [← types_vcat middle right made] at second
    obtain ⟨k, made'⟩ := (exists_vcat_iff left (hasRows_vcat middle right made)).2 second
    exact ⟨k, k', made, made'⟩

theorem contents_vcat_vcat (made : (f.vcat g >>= (·.vcat h)) = .ok k) {k' : Frame}
    (made' : (g.vcat h >>= (f.vcat ·)) = .ok k') : k.contents = k'.contents := by
  obtain ⟨upper, first, second⟩ := bind_eq_ok_iff.1 made
  obtain ⟨lower, first', second'⟩ := bind_eq_ok_iff.1 made'
  by_cases wide : f.columns = []
  · cases (vcat_of_bare wide).symm.trans first
    cases (vcat_of_bare wide).symm.trans second'
    cases second.symm.trans first'
    rfl
  · have same : f.types = g.types := types_eq_of_vcat wide first
    have some : f.types ≠ [] := mt types_eq_nil_iff.1 wide
    have wide' : g.columns ≠ [] := mt types_eq_nil_iff.2 (same ▸ some)
    have above := hasRows_vcat left middle first
    have below := hasRows_vcat middle right first'
    have wide'' : upper.columns ≠ [] := by
      rw [Ne, ← types_eq_nil_iff, types_vcat left middle first, if_neg some]
      exact some
    refine Contents.map_ext_data ?_ ?_
    · show k.header = k'.header
      rw [header_vcat above right second, if_neg wide'', header_vcat left middle first, if_neg wide,
        header_vcat left below second', if_neg wide]
    · rw [data_vcat above right second wide'', data_vcat left middle first wide,
        data_vcat left below second' wide, data_vcat middle right first' wide', List.zipWith_zipWith_left,
        List.zipWith_zipWith_right]
      simp only [List.append_assoc]

end Three

/-- Three frames are put one under the other from either end, and show the same either way: the rows of the first
one, then those of the second and then those of the third. Only if the second one has no columns and the first one
has, these two do not fit, even where the third one would. -/
theorem vcat_assoc (above : f.size = .ok m) (between : g.size = .ok n) (below : h.size = .ok p) :
    ((∃ k, (f.vcat g >>= (·.vcat h)) = .ok k) ↔
      (∃ k, (g.vcat h >>= (f.vcat ·)) = .ok k) ∧ ¬(f.columns ≠ [] ∧ g.columns = [])) ∧
    (∀ k k', (f.vcat g >>= (·.vcat h)) = .ok k → (g.vcat h >>= (f.vcat ·)) = .ok k' → k.contents = k'.contents) ∧
    ∀ k, (f.vcat g >>= (·.vcat h)) = .ok k ∨ (g.vcat h >>= (f.vcat ·)) = .ok k →
      k.rowList = f.rowList ++ g.rowList ++ h.rowList := by
  have above := size_eq_ok_iff.1 above
  have between := size_eq_ok_iff.1 between
  have below := size_eq_ok_iff.1 below
  refine ⟨?_, fun k k' made made' => contents_vcat_vcat above between below made made', fun k made => ?_⟩
  · rw [exists_vcat_vcat_left_iff above between below, exists_vcat_vcat_right_iff above between below]
    simp only [ne_eq, ← types_eq_nil_iff]
    by_cases bare : f.types = []
    · simp [bare]
    · by_cases bare' : g.types = []
      · simp [bare, bare']
      · simp only [if_neg bare, if_neg bare']
        grind
  · rcases made with made | made
    · obtain ⟨k', made, made'⟩ := bind_eq_ok_iff.1 made
      rw [rowList_vcat (hasRows_vcat above between made) below made', rowList_vcat above between made]
    · obtain ⟨k', made, made'⟩ := bind_eq_ok_iff.1 made
      rw [rowList_vcat above (hasRows_vcat between below made) made', rowList_vcat between below made,
        List.append_assoc]

private def herd (name : String) (tags : List String) : Frame := ⟨[.ofList .text name tags], none⟩

theorem vcat_assoc_herds :
    (herd "tag" []).size = .ok 0 ∧ (herd "label" ["ann"]).size = .ok 1 ∧ (herd "mark" ["bob", "cy"]).size = .ok 2 ∧
      ∃ k k', ((herd "tag" []).vcat (herd "label" ["ann"]) >>= (·.vcat (herd "mark" ["bob", "cy"]))) = .ok k ∧
        ((herd "label" ["ann"]).vcat (herd "mark" ["bob", "cy"]) >>= ((herd "tag" []).vcat ·)) = .ok k' ∧
        k.contents = k'.contents ∧ k'.contents = [⟨"tag", .text, ["ann", "bob", "cy"]⟩] ∧
        k.rowList = [] ++ (herd "label" ["ann"]).rowList ++ (herd "mark" ["bob", "cy"]).rowList := by
  obtain ⟨-, same, rows⟩ := vcat_assoc (f := herd "tag" []) (g := herd "label" ["ann"]) (h := herd "mark" ["bob", "cy"])
    (m := 0) (n := 1) (p := 2) rfl rfl rfl
  exact ⟨rfl, rfl, rfl, _, _, rfl, rfl, same _ _ rfl rfl, rfl, rows _ (.inl rfl)⟩

/-- A frame without columns does not fit under another one, but goes unnoticed above one that does. -/
theorem vcat_bare_between :
    let upper := herd "tag" ["ann"]
    let lower := herd "tag" ["bob"]
    upper.size = .ok 1 ∧ empty.size = .ok 0 ∧ lower.size = .ok 1 ∧
      (upper.vcat empty >>= (·.vcat lower)) = .error (.widthMismatch 1 0) ∧
      (∃ k, (empty.vcat lower >>= (upper.vcat ·)) = .ok k ∧ k.contents = [⟨"tag", .text, ["ann", "bob"]⟩]) ∧
      ¬((∃ k, (upper.vcat empty >>= (·.vcat lower)) = .ok k) ↔ ∃ k, (empty.vcat lower >>= (upper.vcat ·)) = .ok k) := by
  refine ⟨rfl, rfl, rfl, rfl, ⟨_, rfl, rfl⟩, fun both => ?_⟩
  obtain ⟨k, made⟩ := both.2 ⟨_, rfl⟩
  cases made

end Frame

end Tabular
