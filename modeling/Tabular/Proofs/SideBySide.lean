import Tabular.Proofs.Gather
import Tabular.Proofs.RowLists
import Tabular.Proofs.Stamps

/-! Frames put side by side. Every column is lengthened by the default of its type up to the greater number of
rows, at once or in several stages, so that of three frames it does not matter which two are put together first. A
column is refused only if it has to be lengthened and its type has no default. The frames that were put
together stay as they are, also where the new columns begin in their blocks. -/

namespace Tabular

namespace Contents

/-- The elements followed by the default of their type, up to `n` elements. The default is asked for only if
there are fewer. -/
def padTo (n : Nat) (x : Contents) : Except Error Contents :=
  if n ≤ x.length then .ok x
  else do
    let fill ← Cell.default x.type
    return x.append (List.replicate (n - x.length) fill)

def Padded (n : Nat) (x y : Contents) : Prop :=
  ∃ fill : List (Cell x.type), y = x.append fill ∧
    fill.map some = List.replicate (n - x.length) (Cell.default? x.type)

variable {x y : Contents} {n m : Nat}

theorem padTo_of_le (long : n ≤ x.length) : x.padTo n = .ok x := if_pos long

theorem padTo_of_lt {fill : Cell x.type} (short : x.length < n) (given : Cell.default? x.type = some fill) :
    x.padTo n = .ok (x.append (List.replicate (n - x.length) fill)) := by
  rw [padTo, if_neg (Nat.not_le.2 short), Column.default_eq_ok_iff.2 given]
  rfl

theorem padTo_of_none (short : x.length < n) (none : Cell.default? x.type = none) :
    x.padTo n = .error (.noDefault x.type) := by
  rw [padTo, if_neg (Nat.not_le.2 short), Cell.default, none]
  rfl

theorem padTo_eq_ok_iff : x.padTo n = .ok y ↔ x.Padded n y := by
  rw [Padded]
  rcases Nat.lt_or_ge x.length n with short | long
  · cases given : Cell.default? x.type with
    | none =>
      rw [padTo_of_none short given]
      refine ⟨nofun, fun ⟨fill, _, same⟩ => ?_⟩
      have lacking : none ∈ fill.map some := by
        rw [same]
        exact List.mem_replicate.2 ⟨Nat.sub_ne_zero_of_lt short, rfl⟩
      simp at lacking
    | some d =>
      rw [padTo_of_lt short given, Except.ok.injEq, ← List.map_replicate]
      constructor
      · rintro rfl
        exact ⟨_, rfl, rfl⟩
      · rintro ⟨fill, rfl, same⟩
        rw [(List.map_inj_right fun _ _ => Option.some.inj).1 same]
  · rw [padTo_of_le long, Nat.sub_eq_zero_of_le long, List.replicate_zero, Except.ok.injEq]
    constructor
    · rintro rfl
      exact ⟨[], by rw [append_nil], rfl⟩
    · rintro ⟨fill, rfl, none⟩
      rw [List.map_eq_nil_iff.1 none, append_nil]

theorem exists_padTo_error_iff :
    (∃ e, x.padTo n = .error e) ↔ x.length < n ∧ Cell.default? x.type = none := by
  rcases Nat.lt_or_ge x.length n with short | long
  · cases given : Cell.default? x.type with
    | none => simp [padTo_of_none short given, short]
    | some d => simp [padTo_of_lt short given]
  · simp [padTo_of_le long, Nat.not_lt.2 long]

theorem length_of_padTo (padded : x.padTo n = .ok y) : y.length = max x.length n := by
  obtain ⟨fill, rfl, same⟩ := padTo_eq_ok_iff.1 padded
  have counted : fill.length = n - x.length := by
    rw [← List.length_map (f := some), same, List.length_replicate]
  rw [length_append, counted]
  omega

theorem padTo_padTo (x : Contents) (m n : Nat) : (x.padTo m >>= (·.padTo n)) = x.padTo (max m n) := by
  rcases Nat.lt_or_ge x.length m with short | long
  · have further : x.length < max m n := Nat.lt_of_lt_of_le short (Nat.le_max_left m n)
    cases given : Cell.default? x.type with
    | none =>
      rw [padTo_of_none short given, padTo_of_none further given]
      rfl
    | some d =>
      have counted : (x.append (List.replicate (m - x.length) d)).length = m := by
        rw [length_append, List.length_replicate]
        omega
      rw [padTo_of_lt short given, padTo_of_lt further given, ok_bind]
      rcases Nat.lt_or_ge m n with more | enough
      · have here : Cell.default? (x.append (List.replicate (m - x.length) d)).type = some d := given
        rw [padTo_of_lt (by rwa [counted]) here, counted]
        have together : m - x.length + (n - m) = max m n - x.length := by omega
        rw [← together, ← List.replicate_append_replicate]
        exact congrArg Except.ok (x.append_append _ _)
      · rw [padTo_of_le (by rwa [counted]), Nat.max_eq_left enough]
  · rw [padTo_of_le long, ok_bind]
    rcases Nat.lt_or_ge x.length n with short | long'
    · rw [Nat.max_eq_right (Nat.le_of_lt (Nat.lt_of_le_of_lt long short))]
    · rw [padTo_of_le long', padTo_of_le (Nat.max_le.2 ⟨long, long'⟩)]

theorem mapM_padTo_iff (fewer : m ≤ n) (xs : List Contents) {zs : List Contents} :
    xs.mapM (·.padTo n) = .ok zs ↔ ∃ ys, xs.mapM (·.padTo m) = .ok ys ∧ ys.mapM (·.padTo n) = .ok zs := by
  have staged : xs.mapM (·.padTo n) = xs.mapM fun x => x.padTo m >>= (·.padTo n) :=
    mapM_congr fun x _ => by rw [padTo_padTo, Nat.max_eq_right fewer]
  rw [staged]
  constructor
  · intro made
    obtain ⟨ys, first⟩ : ∃ ys, xs.mapM (·.padTo m) = .ok ys := exists_mapM_iff.2 fun x mem => by
      obtain ⟨z, padded⟩ := exists_mapM_iff.1 ⟨zs, made⟩ x mem
      obtain ⟨y, first, -⟩ := bind_eq_ok_iff.1 padded
      exact ⟨y, first⟩
    exact ⟨ys, first, by rw [← mapM_bind_of_eq_ok first, made]⟩
  · rintro ⟨ys, first, later⟩
    rw [mapM_bind_of_eq_ok first, later]

theorem mapM_padTo_part_iff (fewer : m ≤ n) (xs ys zs ws : List Contents) :
    (xs ++ ys ++ zs).mapM (·.padTo n) = .ok ws ↔
      ∃ vs, ys.mapM (·.padTo m) = .ok vs ∧ (xs ++ vs ++ zs).mapM (·.padTo n) = .ok ws := by
  simp only [mapM_append_eq_ok_iff, mapM_padTo_iff fewer ys]
  constructor
  · rintro ⟨_, last, ⟨first, middle, others, ⟨vs, part, later⟩, rfl⟩, others', rfl⟩
    exact ⟨vs, part, _, last, ⟨first, middle, others, later, rfl⟩, others', rfl⟩
  · rintro ⟨vs, part, _, last, ⟨first, middle, others, later, rfl⟩, others', rfl⟩
    exact ⟨_, last, ⟨first, middle, others, ⟨vs, part, later⟩, rfl⟩, others', rfl⟩

theorem mapM_padTo_of_le {xs : List Contents} (long : ∀ x ∈ xs, n ≤ x.length) :
    xs.mapM (·.padTo n) = .ok xs := by
  have kept := mapM_eq_ok_map (g := id) fun x mem => padTo_of_le (long x mem)
  rwa [List.map_id] at kept

end Contents

theorem Column.contents_insertDefault (c : Column) (count : Nat) :
    (c.insertDefault c.length count).result.map Column.contents = c.contents.padTo (c.length + count) := by
  rw [insertDefault]
  split
  · next none =>
    rw [Contents.padTo_of_le (by rw [none]; exact Nat.le_refl _)]
    rfl
  · next some =>
    have short : c.contents.length < c.length + count := Nat.lt_add_of_pos_right (Nat.pos_of_ne_zero some)
    have counted : c.length + count - c.contents.length = count := Nat.add_sub_cancel_left ..
    cases given : Cell.default? c.type with
    | none =>
      rw [Contents.padTo_of_none short given, Cell.default, given]
      rfl
    | some d =>
      rw [Contents.padTo_of_lt short given, default_eq_ok_iff.2 given, counted]
      exact c.contents_alter_insert_length count _

namespace Frame

variable {f g h k : Frame} {m n p : Nat}

theorem contents_insertEach {insert : Nat → Column → Outcome Column Unit} (undo : Column → Column)
    {made : Contents → Except Error Contents} {columns : List Column}
    (each : ∀ i, ∀ c ∈ columns, (insert i c).result.map Column.contents = made c.contents) (i : Nat) :
    (insertEach insert undo i columns).result.map (List.map Column.contents) =
      (columns.map Column.contents).mapM made := by
  induction columns generalizing i with
  | nil => rfl
  | cons c cs ih =>
    have head := each i c List.mem_cons_self
    have tail := ih (fun i c mem => each i c (List.mem_cons_of_mem _ mem)) (i + 1)
    rw [List.map_cons, List.mapM_cons, ← head, ← tail, insertEach]
    rcases insert i c with ⟨_ | _, b⟩
    · rfl
    · dsimp only
      rcases insertEach insert undo (i + 1) cs with ⟨_ | _, bs⟩ <;> rfl

theorem contents_pad (has : HasRows f.columns m) (target : Nat) :
    (f.pad m target).map contents = f.contents.mapM (·.padTo target) := by
  by_cases bare : f.columns = []
  · rw [pad, if_pos (by simp [bare]), contents, bare]
    show Except.ok (f.columns.map Column.contents) = _
    rw [bare]
    rfl
  · rcases Nat.lt_or_ge m target with short | long
    · have each (i : Nat) (c : Column) (mem : c ∈ f.columns) :
          (c.insertDefault m (target - m)).result.map Column.contents = c.contents.padTo target := by
        have counted := c.contents_insertDefault (target - m)
        rwa [has.length c mem, Nat.add_sub_of_le (Nat.le_of_lt short)] at counted
      have inserted := contents_insertEach (fun c => (c.erase m (m + (target - m))).2) each 0
      rw [pad, if_neg (by simp [bare, short]), insertDefaultRows, lockstepInsert, size_eq_ok_iff.2 has]
      dsimp only
      rw [if_neg (Nat.lt_irrefl m), contents, ← inserted]
      rcases insertEach (fun _ c => c.insertDefault m (target - m))
        (fun c => (c.erase m (m + (target - m))).2) 0 f.columns with ⟨_ | _, columns⟩ <;> rfl
    · rw [pad_of_le long, Contents.mapM_padTo_of_le fun x mem => by rwa [has.contents x mem]]
      rfl

theorem contents_hcat (left : HasRows f.columns m) (right : HasRows g.columns n) :
    (f.hcat g).map contents = (f.contents ++ g.contents).mapM (·.padTo (max m n)) := by
  have target {h : Frame} {p q : Nat} (has : HasRows h.columns p) :
      h.contents.mapM (·.padTo (max p q)) = h.contents.mapM (·.padTo q) := by
    refine mapM_congr fun x mem => ?_
    rw [← Contents.padTo_padTo, Contents.padTo_of_le (Nat.le_of_eq (has.contents x mem).symm), ok_bind]
  rw [List.mapM_append, target left, Nat.max_comm, target right, ← contents_pad left, ← contents_pad right, hcat,
    size_eq_ok_iff.2 left, size_eq_ok_iff.2 right]
  simp only [ok_bind]
  cases f.pad m n with
  | error e => rfl
  | ok f' =>
    simp only [ok_bind]
    cases g.pad n m with
    | error e => rfl
    | ok g' => exact congrArg Except.ok List.map_append

theorem exists_hcat_iff (left : HasRows f.columns m) (right : HasRows g.columns n) {xs : List Contents} :
    (∃ h, f.hcat g = .ok h ∧ h.contents = xs) ↔
      (f.contents ++ g.contents).mapM (·.padTo (max m n)) = .ok xs := by
  rw [← contents_hcat left right, map_eq_ok_iff]

theorem hasRows_hcat (left : HasRows f.columns m) (right : HasRows g.columns n) (made : f.hcat g = .ok h) :
    HasRows h.columns (max m n) := by
  have lengthened := (exists_hcat_iff left right).1 ⟨h, made, rfl⟩
  refine ⟨fun c mem => ?_, fun bare => ?_⟩
  · obtain ⟨x, inside, padded⟩ := exists_of_mem_mapM lengthened (List.mem_map_of_mem mem)
    have counted : c.length = max x.length (max m n) := Contents.length_of_padTo padded
    rcases List.mem_append.1 inside with inside | inside
    · rw [counted, left.contents x inside]
      omega
    · rw [counted, right.contents x inside]
      omega
  · have none : f.contents ++ g.contents = [] := by
      rw [← List.length_eq_zero_iff, ← length_mapM lengthened, contents, bare]
      rfl
    obtain ⟨nothing, nothing'⟩ := List.append_eq_nil_iff.1 none
    rw [left.empty (List.map_eq_nil_iff.1 nothing), right.empty (List.map_eq_nil_iff.1 nothing')]
    rfl

section Three

variable (left : HasRows f.columns m) (middle : HasRows g.columns n) (right : HasRows h.columns p)
  {xs : List Contents}

include left middle right

/-- Of three frames every column is lengthened to the greatest number of rows, if the first two are put
together first. -/
theorem exists_hcat_hcat_left_iff :
    (∃ k, (f.hcat g >>= (·.hcat h)) = .ok k ∧ k.contents = xs) ↔
      (f.contents ++ g.contents ++ h.contents).mapM (·.padTo (max (max m n) p)) = .ok xs := by
  have staged :=
    Contents.mapM_padTo_part_iff (Nat.le_max_left (max m n) p) [] (f.contents ++ g.contents) h.contents xs
  simp only [List.nil_append] at staged
  simp only [staged, ← exists_hcat_iff left middle, bind_eq_ok_iff]
  constructor
  · rintro ⟨k, ⟨k', made, made'⟩, rfl⟩
    exact ⟨_, ⟨k', made, rfl⟩, (exists_hcat_iff (hasRows_hcat left middle made) right).1 ⟨k, made', rfl⟩⟩
  · rintro ⟨_, ⟨k', made, rfl⟩, later⟩
    obtain ⟨k, made', shown⟩ := (exists_hcat_iff (hasRows_hcat left middle made) right).2 later
    exact ⟨k, ⟨k', made, made'⟩, shown⟩

theorem exists_hcat_hcat_right_iff :
    (∃ k, (g.hcat h >>= (f.hcat ·)) = .ok k ∧ k.contents = xs) ↔
      (f.contents ++ g.contents ++ h.contents).mapM (·.padTo (max (max m n) p)) = .ok xs := by
  have staged :=
    Contents.mapM_padTo_part_iff (Nat.le_max_right m (max n p)) f.contents (g.contents ++ h.contents) [] xs
  simp only [List.append_nil] at staged
  rw [Nat.max_assoc, List.append_assoc]
  simp only [staged, ← exists_hcat_iff middle right, bind_eq_ok_iff]
  constructor
  · rintro ⟨k, ⟨k', made, made'⟩, rfl⟩
    exact ⟨_, ⟨k', made, rfl⟩, (exists_hcat_iff left (hasRows_hcat middle right made)).1 ⟨k, made', rfl⟩⟩
  · rintro ⟨_, ⟨k', made, rfl⟩, later⟩
    obtain ⟨k, made', shown⟩ := (exists_hcat_iff left (hasRows_hcat middle right made)).2 later
    exact ⟨k, ⟨k', made, made'⟩, shown⟩

end Three

/-- A frame of `rows` rows that has to be lengthened and cannot be. -/
def Stuck (f : Frame) (rows target : Nat) : Prop :=
  f.columns ≠ [] ∧ rows < target ∧ ∃ c ∈ f.columns, Cell.default? c.type = none

theorem exists_padTo_error_iff_stuck (has : HasRows f.columns m) (target : Nat) :
    (∃ x ∈ f.contents, ∃ e, x.padTo target = .error e) ↔ f.Stuck m target := by
  simp only [Contents.exists_padTo_error_iff]
  constructor
  · rintro ⟨_, mem, short, none⟩
    obtain ⟨c, there, rfl⟩ := List.mem_map.1 mem
    exact ⟨List.ne_nil_of_mem there, by rwa [has.contents _ mem] at short, c, there, none⟩
  · rintro ⟨-, short, c, there, none⟩
    have mem : c.contents ∈ f.contents := List.mem_map_of_mem there
    exact ⟨_, mem, by rwa [has.contents _ mem], none⟩

theorem exists_hcat_error_iff (left : HasRows f.columns m) (right : HasRows g.columns n) :
    (∃ e, f.hcat g = .error e) ↔ f.Stuck m n ∨ g.Stuck n m := by
  have made : (∃ e, f.hcat g = .error e) ↔ ∃ e, (f.hcat g).map contents = .error e := by
    simp only [map_eq_error_iff]
  rw [made, contents_hcat left right, exists_mapM_error_iff]
  simp only [List.mem_append, or_and_right, exists_or]
  rw [exists_padTo_error_iff_stuck left, exists_padTo_error_iff_stuck right]
  have less : m < max m n ↔ m < n := by omega
  have less' : n < max m n ↔ n < m := by omega
  simp only [Stuck, less, less']

end Frame

namespace Workspace

variable {w : Workspace} {record : Nat → List Contents} {b : Frame.Build} {f : Frame}

theorem frame?_build (recorded : w.Recorded record) (handed : ∀ c ∈ b.columns, c.Faithful w.heap) {i : Nat}
    (there : w.frame? i = some f) : (w.build b).2.frame? i = some f := by
  rw [build]
  split
  · next made ran =>
    obtain ⟨h, held, rfl⟩ := Option.map_eq_some_iff.1 there
    have settled : w.Settled (w.frames.flatMap Holding.blocks) made (w.settle [] made).1 (w.settle [] made).2 :=
      settle_spec recorded.account (faithful_of_run handed ran)
    have inside : i < w.frames.length := (List.getElem?_eq_some_iff.1 held).1
    have stays : (w.add made).frames[i]? = some h := by
      show ((w.settle [] made).2.frames ++ [(w.settle [] made).1])[i]? = some h
      rw [frames_settle, List.getElem?_append_left inside, held]
    rw [frame?, stays, Option.map_some]
    exact congrArg some (load_congr fun id named =>
      settled.keeps id (List.mem_flatMap.2 ⟨h, List.mem_of_getElem? held, named⟩))
  · exact there

theorem contents_build (recorded : w.Recorded record) (handed : ∀ c ∈ b.columns, c.Faithful w.heap)
    (ran : b.run w.frame (fun i => w.indices[i]?) = .ok f) :
    ((w.build b).2.frame? w.frames.length).map Frame.contents = some f.contents := by
  have settled : w.Settled (w.frames.flatMap Holding.blocks) f (w.settle [] f).1 (w.settle [] f).2 :=
    settle_spec recorded.account (faithful_of_run handed ran)
  have last : (w.add f).frames[w.frames.length]? = some (w.settle [] f).1 := by
    show ((w.settle [] f).2.frames ++ [(w.settle [] f).1])[w.frames.length]? = _
    rw [frames_settle, List.getElem?_concat_length]
  rw [build, ran]
  dsimp only
  rw [frame?, last, Option.map_some, Option.map_some]
  exact congrArg some settled.shows

end Workspace

namespace Frame

/-- Two frames are put side by side, each column followed by the default of its type up to the greater number of
rows, unless one of them has to be lengthened and cannot be. It makes no difference in what stages that is
done with three frames, or whether a frame without columns is put before or behind. In a workspace the
frames that are put together stay what they are, like all others. -/
theorem hcat_lengthens {f g h : Frame} {m n p : Nat} (left : f.size = .ok m) (middle : g.size = .ok n)
    (right : h.size = .ok p) :
    (∀ k, f.hcat g = .ok k → List.Forall₂ (Contents.Padded (max m n)) (f.contents ++ g.contents) k.contents) ∧
    ((∃ e, f.hcat g = .error e) ↔ f.Stuck m n ∨ g.Stuck n m) ∧
    ((∃ k, (f.hcat g >>= (·.hcat h)) = .ok k) ↔ ∃ k, (g.hcat h >>= (f.hcat ·)) = .ok k) ∧
    (∀ k k', (f.hcat g >>= (·.hcat h)) = .ok k → (g.hcat h >>= (f.hcat ·)) = .ok k' → k.contents = k'.contents) ∧
    (∀ bare : Frame, bare.columns = [] → (∃ k, bare.hcat f = .ok k ∧ k.contents = f.contents) ∧
      ∃ k, f.hcat bare = .ok k ∧ k.contents = f.contents) ∧
    ∀ commands, Workspace.empty.AdmitsAll commands → ∀ w ∈ Workspace.history commands, ∀ i j,
      (∀ l k, w.frame? l = some k → (w.build (.hcat i j)).2.frame? l = some k) ∧
      (w.frame? i = some f → w.frame? j = some g → ∀ k, f.hcat g = .ok k →
        ((w.build (.hcat i j)).2.frame? w.frames.length).map contents = some k.contents) := by
  have left := size_eq_ok_iff.1 left
  have middle := size_eq_ok_iff.1 middle
  have right := size_eq_ok_iff.1 right
  refine ⟨fun k made => ?_, exists_hcat_error_iff left middle, ?_, fun k k' made made' => ?_, fun bare none => ?_,
    fun commands admitted w mem i j => ?_⟩
  · refine (mapM_eq_ok_iff.1 ((exists_hcat_iff left middle).1 ⟨k, made, rfl⟩)).imp fun x y padded => ?_
    exact Contents.padTo_eq_ok_iff.1 padded
  · have same (xs : List Contents) : (∃ k, (f.hcat g >>= (·.hcat h)) = .ok k ∧ k.contents = xs) ↔
        ∃ k, (g.hcat h >>= (f.hcat ·)) = .ok k ∧ k.contents = xs :=
      (exists_hcat_hcat_left_iff left middle right).trans (exists_hcat_hcat_right_iff left middle right).symm
    constructor
    · rintro ⟨k, made⟩
      obtain ⟨k', made', -⟩ := (same k.contents).1 ⟨k, made, rfl⟩
      exact ⟨k', made'⟩
    · rintro ⟨k, made⟩
      obtain ⟨k', made', -⟩ := (same k.contents).2 ⟨k, made, rfl⟩
      exact ⟨k', made'⟩
  · have once := (exists_hcat_hcat_left_iff left middle right).1 ⟨k, made, rfl⟩
    have again := (exists_hcat_hcat_right_iff left middle right).1 ⟨k', made', rfl⟩
    exact Except.ok.inj (once.symm.trans again)
  · have nothing : HasRows bare.columns 0 := ⟨by simp [none], fun _ => rfl⟩
    have shown : bare.contents = [] := by rw [contents, none, List.map_nil]
    have kept : f.contents.mapM (·.padTo m) = .ok f.contents :=
      Contents.mapM_padTo_of_le fun x mem => Nat.le_of_eq (left.contents x mem).symm
    refine ⟨(exists_hcat_iff nothing left).2 ?_, (exists_hcat_iff left nothing).2 ?_⟩
    · rw [shown, List.nil_append, Nat.zero_max, kept]
    · rw [shown, List.append_nil, Nat.max_zero, kept]
  · obtain ⟨record, -, always⟩ := (Workspace.recorded_empty fun _ => []).history admitted
    have handed : ∀ c ∈ (Build.hcat i j).columns, c.Faithful w.heap := List.forall_mem_nil _
    refine ⟨fun l k there => Workspace.frame?_build (always w mem) handed there, fun first second k made => ?_⟩
    refine Workspace.contents_build (always w mem) handed ?_
    show (w.frame i).hcat (w.frame j) = .ok k
    rw [Workspace.frame, Workspace.frame, first, second]
    exact made

private def doors : List Workspace.Command :=
  [.build (.ofColumns [.ofList .bool "open" []]), .build (.ofColumns [.ofList (.foreign "Seal") "seal" [7, 8]])]

private def notes : Frame := ⟨[.ofList .text "note" ["wet"]], none⟩

theorem hcat_lengthens_doors :
    let w := doors.foldl Workspace.step .empty
    let after := (w.build (.hcat 0 1)).2
    let opened (cells : List Bool) : Contents := ⟨"open", .bool, cells⟩
    let seals : Contents := ⟨"seal", .foreign "Seal", [7, 8]⟩
    (w.frame 0).size = .ok 0 ∧ (w.frame 1).size = .ok 2 ∧ notes.size = .ok 1 ∧
      (∃ k k', ((w.frame 0).hcat (w.frame 1) >>= (·.hcat notes)) = .ok k ∧
        ((w.frame 1).hcat notes >>= ((w.frame 0).hcat ·)) = .ok k' ∧ k.contents = k'.contents ∧
        k'.contents = [opened [false, false], seals, ⟨"note", .text, ["wet", ""]⟩]) ∧
      Workspace.empty.AdmitsAll doors ∧ after.frames.map Holding.blocks = [[0], [1], [2, 1]] ∧
      after.frame? 0 = w.frame? 0 ∧ (w.frame 0).contents = [opened []] ∧
      (after.frame? 2).map contents = some [opened [false, false], seals] := by
  have admitted : Workspace.empty.AdmitsAll doors := by
    refine ⟨fun b mem => ?_, fun b mem => ?_, trivial⟩ <;> obtain rfl := List.mem_singleton.1 mem <;>
      exact Column.faithful_of_fresh rfl
  obtain ⟨-, -, -, same, -, stays⟩ :=
    hcat_lengthens (f := (doors.foldl Workspace.step .empty).frame 0)
      (g := (doors.foldl Workspace.step .empty).frame 1) (h := notes) (m := 0) (n := 2) (p := 1) rfl rfl rfl
  have last : doors.foldl Workspace.step .empty ∈ Workspace.history doors := List.mem_of_getElem? (i := 2) rfl
  obtain ⟨kept, made⟩ := stays doors admitted _ last 0 1
  exact ⟨rfl, rfl, rfl, ⟨_, _, rfl, rfl, same _ _ rfl rfl, rfl⟩, admitted, rfl, kept 0 _ rfl, rfl, made rfl rfl _ rfl⟩

end Frame

end Tabular
