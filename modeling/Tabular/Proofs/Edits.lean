import Mathlib.Data.List.InsertIdx
import Tabular.Frame.Edit
import Tabular.Proofs.Rows

/-! What a change of a frame comes to. One that is refused shows nothing: names, types and cells are what
they were. Nor does it cost the frame its stamp, except that a write to a single column may. A frame that
shows something else has lost its stamp. Its columns are made of those it had and those handed over. -/

namespace Tabular

namespace Column

theorem fresh_of_scalars {t : CellType} {name : String} {values : List Scalar} {c : Column}
    (made : ofScalars t name values = .ok c) : c.storage = .fresh := by
  rw [ofScalars, bind_eq_ok_iff] at made
  obtain ⟨s, read, same⟩ := made
  cases same
  rw [Series.ofScalars, bind_eq_ok_iff] at read
  obtain ⟨cells, -, same⟩ := read
  cases same
  rfl

theorem fresh_of_infer {name : String} {values : List Scalar} {c : Column}
    (made : infer name values = .ok c) : c.storage = .fresh := by
  rw [infer, bind_eq_ok_iff] at made
  obtain ⟨t, -, made⟩ := made
  exact fresh_of_scalars made

theorem fresh_of_take {c d : Column} {rows : List Nat} (taken : c.take rows = .ok d) :
    d.storage = .fresh := by
  rw [take, bind_eq_ok_iff] at taken
  obtain ⟨cells, -, same⟩ := taken
  cases same
  rfl

end Column

namespace Frame

/-- A refusal shows nothing, a frame that shows something else has lost its stamp, and the columns are
made of those of the frame and those `given`. -/
structure Tracked {α : Type} (f : Frame) (given : List Column) (o : Outcome Frame α) : Prop where
  refused : ∀ err, o.1 = .error err → o.2.contents = f.contents
  stamped : o.2.stamp? = none ∨ o.2.contents = f.contents ∧ o.2.stamp? = f.stamp?
  derived : ∀ c ∈ o.2.columns, c.Derived (· ∈ f.columns ++ given)

/-- Besides, a refusal leaves the stamp. -/
structure Safe {α : Type} (f : Frame) (given : List Column) (o : Outcome Frame α) : Prop
    extends f.Tracked given o where
  keeps : ∀ err, o.1 = .error err → o.2.stamp? = f.stamp?

section Outcomes

variable {α β : Type} {f : Frame} {given : List Column}

theorem derived_self (f : Frame) (given : List Column) :
    ∀ c ∈ f.columns, c.Derived (· ∈ f.columns ++ given) :=
  fun _ mem => .source (List.mem_append_left given mem)

theorem safe_same {o : Outcome Frame α} (same : o.2 = f) : f.Safe given o := by
  obtain ⟨answer, after⟩ := o
  obtain rfl : after = f := same
  exact ⟨⟨fun _ _ => rfl, .inr ⟨rfl, rfl⟩, after.derived_self given⟩, fun _ _ => rfl⟩

theorem safe_renewal {a : α} {columns : List Column}
    (derived : ∀ c ∈ columns, c.Derived (· ∈ f.columns ++ given)) :
    f.Safe given (.ok a, ⟨columns, none⟩) :=
  ⟨⟨nofun, .inl rfl, derived⟩, nofun⟩

theorem Tracked.map {o : Outcome Frame α} {g : α → β} (tracked : f.Tracked given o) :
    f.Tracked given (o.1.map g, o.2) :=
  ⟨fun err refused => tracked.refused err (map_eq_error_iff.1 refused), tracked.stamped,
    tracked.derived⟩

theorem Safe.map {o : Outcome Frame α} {g : α → β} (safe : f.Safe given o) :
    f.Safe given (o.1.map g, o.2) :=
  ⟨safe.toTracked.map, fun err refused => safe.keeps err (map_eq_error_iff.1 refused)⟩

theorem atEnd_safe {change : Nat → Outcome Frame α}
    (safe : ∀ rows, HasRows f.columns rows → f.Safe given (change rows)) :
    f.Safe given (f.atEnd change) := by
  rw [atEnd]
  split
  · next rows sized => exact safe rows (size_eq_ok_iff.1 sized)
  · exact safe_same rfl

end Outcomes

section Columns

variable (f : Frame)

theorem populate_safe (columns : List Column) : f.Safe columns (f.populate columns) := by
  rw [populate]
  split
  · exact safe_renewal fun c mem => .source (List.mem_append_right _ mem)
  · exact safe_same rfl

theorem insertColumn_safe (position : Nat) {c : Column} {given : List Column}
    (derived : c.Derived (· ∈ f.columns ++ given)) : f.Safe given (f.insertColumn position c) := by
  rw [insertColumn]
  split
  · refine safe_renewal fun d mem => ?_
    rcases List.eq_or_mem_of_mem_insertIdx mem with rfl | mem
    · exact derived
    · exact f.derived_self given d mem
  · exact safe_same rfl

theorem removeColumn_safe (i : Nat) : f.Safe [] (f.removeColumn i) := by
  rw [removeColumn]
  split
  · exact safe_renewal fun c mem => f.derived_self [] c (List.mem_of_mem_eraseIdx mem)
  · exact safe_same rfl

theorem derived_replaceColumn (i : Nat) {b : Column} {given : List Column}
    (derived : b.Derived (· ∈ f.columns ++ given)) :
    ∀ c ∈ (f.replaceColumn i b).columns, c.Derived (· ∈ f.columns ++ given) := by
  intro c mem
  rcases List.mem_or_eq_of_mem_set mem with mem | rfl
  · exact f.derived_self given c mem
  · exact derived

theorem allowMissing_safe (t : CellType) (i : Nat) : f.Safe [] (f.allowMissing t i) := by
  rw [allowMissing]
  split
  · exact safe_renewal (f.derived_replaceColumn i (.fresh rfl))
  · exact safe_same rfl

theorem disallowMissing_safe (t : CellType) (i : Nat) : f.Safe [] (f.disallowMissing t i) := by
  rw [disallowMissing]
  split
  · next s made =>
    obtain ⟨u, -, filled⟩ := bind_eq_ok_iff.1 made
    rw [Series.disallowMissing, bind_eq_ok_iff] at filled
    obtain ⟨fill, -, same⟩ := filled
    cases same
    exact safe_renewal (f.derived_replaceColumn i (.fresh rfl))
  · exact safe_same rfl

theorem contents_replaceColumn {i : Nat} {b c : Column} (found : f.column i = .ok b)
    (same : c.contents = b.contents) : (f.replaceColumn i c).contents = f.contents := by
  rw [column] at found
  split at found
  · next d there =>
    cases found
    obtain ⟨inside, rfl⟩ := List.getElem?_eq_some_iff.1 there
    rw [contents, replaceColumn, List.map_set, same, ← List.getElem_map Column.contents,
      List.set_getElem_self]
    · rfl
    · simpa using inside
  · cases found

theorem writeColumn_tracked {α : Type} (i : Nat) {given : List Column}
    {change : Column → Outcome Column α}
    (quiet : ∀ c err, (change c).1 = .error err → (change c).2.contents = c.contents)
    (derived : ∀ c, c.Derived (· ∈ f.columns ++ given) →
      (change c).2.Derived (· ∈ f.columns ++ given)) :
    f.Tracked given (f.writeColumn i change) := by
  rw [writeColumn]
  split
  · next c found =>
    have own := f.derived_self given c (mem_of_column found)
    refine ⟨fun err refused => ?_, .inl rfl, f.derived_replaceColumn i (derived c own)⟩
    exact f.contents_replaceColumn found (quiet c err refused)
  · exact Safe.toTracked (safe_same rfl)

theorem writeColumn_elementary {α : Type} (i : Nat) {change : Column → Outcome Column α}
    (elementary : ∀ c : Column, c.Elementary (change c)) : f.Tracked [] (f.writeColumn i change) :=
  f.writeColumn_tracked i (fun c _ refused => (elementary c).contents_of_error refused)
    fun c derived => derived.change (elementary c)

theorem writeSeries_tracked (t : CellType) (i : Nat) (e : Buffer.Edit (Cell t)) :
    f.Tracked [] (f.writeSeries t i (·.edit e)) := by
  refine f.writeColumn_elementary i fun c => ?_
  split
  · next s found =>
    obtain rfl := Column.seriesAs?_eq_some_iff.1 found
    exact Column.edit_elementary ⟨t, s⟩ e
  · exact .refusal _

theorem assign_tracked (t : CellType) (i : Nat) (s : Series t) :
    f.Tracked [⟨t, s⟩] (f.writeSeries t i fun _ => (.ok (), s)) := by
  refine f.writeColumn_tracked i (fun c err refused => ?_) fun c derived => ?_
  · split at refused
    · cases refused
    · rfl
  · split
    · exact .source (List.mem_append_right _ List.mem_cons_self)
    · exact derived

end Columns

section Rows

variable (f : Frame)

theorem lockstepInsert_safe {pos count : Nat} {insert : Nat → Column → Outcome Column Unit}
    (inserts : Inserts pos count insert) : f.Safe [] (f.lockstepInsert pos count insert) := by
  rw [lockstepInsert]
  split
  · exact safe_same rfl
  · next rows sized =>
    have has := size_eq_ok_iff.1 sized
    have derived := insertEach_derived (fun c => (c.erase pos (pos + count)).2)
      inserts.elementary (fun c derived => derived.change (c.erase_elementary _ _))
      (f.derived_self []) 0
    split
    · exact safe_same rfl
    · next inside =>
      split
      · next err columns ran =>
        have long : ∀ c ∈ f.columns, pos ≤ c.length := fun c mem => by
          rw [has.length c mem]
          exact Nat.not_lt.1 inside
        have shown := insertEach_refused inserts long ran
        rw [ran] at derived
        exact ⟨⟨fun _ _ => shown, .inr ⟨shown, rfl⟩, derived⟩, fun _ _ => rfl⟩
      · next columns ran =>
        rw [ran] at derived
        exact safe_renewal derived

theorem length_of_single {α : Type} {x : Except Error α} {cells : List α}
    (single : x.map ([·]) = .ok cells) : cells.length = 1 := by
  obtain ⟨a, -, rfl⟩ := map_eq_ok_iff.1 single
  rfl

theorem insertRow_safe (pos : Nat) (values : List Scalar) : f.Safe [] (f.insertRow pos values) := by
  rw [insertRow]
  split
  · exact safe_same rfl
  · refine f.lockstepInsert_safe ⟨fun i c => ?_, fun i c reaches => ?_⟩
    · split
      · exact c.insertScalar_elementary pos _
      · exact c.insertDefault_elementary pos 1
    · split
      · next v _ => exact ⟨_, c.insertScalar_spec reaches v, fun _ => length_of_single⟩
      · exact ⟨_, c.insertDefault_spec reaches 1, fun _ => length_of_single⟩

theorem insertRowFrom_safe (pos : Nat) (source : Frame) (row : Nat) :
    f.Safe [] (f.insertRowFrom pos source row) := by
  rw [insertRowFrom]
  split
  · exact safe_same rfl
  · refine f.lockstepInsert_safe ⟨fun i c => ?_, fun i c reaches => ?_⟩
    · split
      · exact c.insertFrom_elementary pos _ row
      · exact .refusal _
    · split
      · next s _ => exact ⟨_, c.insertFrom_spec reaches s row, fun _ => length_of_single⟩
      · next err _ => exact ⟨.error err, ⟨rfl, rfl⟩, nofun⟩

theorem insertRowWithin_safe (pos row : Nat) : f.Safe [] (f.insertRowWithin pos row) := by
  refine f.lockstepInsert_safe ⟨fun _ c => c.insertWithin_elementary pos row (row + 1),
    fun _ c reaches => ⟨_, c.insertWithin_spec reaches (Nat.le_succ row), fun cells some => ?_⟩⟩
  split at some
  · next inside =>
    cases some
    exact (Buffer.length_slice inside).trans (Nat.add_sub_cancel_left row 1)
  · cases some

theorem insertDefaultRows_safe (pos count : Nat) : f.Safe [] (f.insertDefaultRows pos count) := by
  refine f.lockstepInsert_safe ⟨fun _ c => c.insertDefault_elementary pos count,
    fun _ c reaches => ⟨_, c.insertDefault_spec reaches count, fun cells some => ?_⟩⟩
  split at some
  · next zero =>
    cases some
    exact zero.symm
  · obtain ⟨x, -, rfl⟩ := map_eq_ok_iff.1 some
    exact List.length_replicate

theorem eraseRows_safe (first last : Nat) : f.Safe [] (f.eraseRows first last) := by
  refine atEnd_safe fun rows has => ?_
  have erased (ordered : first ≤ last) (inside : last ≤ rows) := eraseRows_ok has ordered inside
  rw [eraseRows, atEnd, size_eq_ok_iff.2 has] at erased
  split
  · exact safe_same rfl
  · next ordered =>
    split
    · exact safe_same rfl
    · next inside =>
      simp only [if_neg ordered, if_neg inside] at erased
      rw [erased (Nat.not_lt.1 ordered) (Nat.not_lt.1 inside)]
      exact safe_renewal (derived_erase (f.derived_self []))

theorem popRow_safe : f.Safe [] f.popRow := by
  refine atEnd_safe fun rows has => ?_
  split
  · exact safe_same rfl
  · split
    · exact safe_same rfl
    · exact (f.eraseRows_safe _ _).map

theorem sortBy_safe (descending : Bool) (keys : List Nat) : f.Safe [] (f.sortBy descending keys) := by
  refine atEnd_safe fun rows has => ?_
  split
  · next columns sorted =>
    obtain ⟨cells, -, taken⟩ := bind_eq_ok_iff.1 sorted
    refine safe_renewal fun c mem => ?_
    obtain ⟨b, -, made⟩ := exists_of_mem_mapM taken mem
    exact .fresh (Column.fresh_of_take made)
  · exact safe_same rfl

theorem retain_safe (condition : Expr) : f.Safe [] (f.retain condition) := by
  rw [retain]
  split
  · next mask ran =>
    -- The mask has a truth value for every row, so that no run can lie beyond the rows.
    have has := size_eq_ok_iff.1 (length_mask ran)
    obtain ⟨⟨n, accepted⟩, stamp, derived⟩ := removeRuns_ok mask has (Nat.le_refl _)
    have kept := derived _ (f.derived_self [])
    refine ⟨⟨fun err refused => ?_, ?_, kept⟩, fun err refused => ?_⟩
    · rw [accepted] at refused
      cases refused
    · rcases stamp with same | lost
      · exact .inr ⟨by rw [same], by rw [same]⟩
      · exact .inl lost
    · rw [accepted] at refused
      cases refused
  · exact safe_same rfl

theorem deriveWith_safe {make : List Scalar → Except Error Column}
    (fresh : ∀ values c, make values = .ok c → c.storage = .fresh) (e : Expr)
    (placement : Placement) : f.Safe [] (f.deriveWith make e placement) := by
  rw [deriveWith]
  split
  · next c made =>
    obtain ⟨values, -, made⟩ := bind_eq_ok_iff.1 made
    cases placement <;> exact f.insertColumn_safe _ (.fresh (fresh values c made))
  · exact safe_same rfl

end Rows

namespace Edit

def writes : Edit → Bool
  | series .. => true
  | assign .. => true
  | column .. => true
  | set .. => true
  | _ => false

def columns : Edit → List Column
  | populate columns => columns
  | addColumn c => [c]
  | prependColumn c => [c]
  | insertColumn _ c => [c]
  | assign t _ s => [⟨t, s⟩]
  | _ => []

theorem run_safe {e : Edit} (apart : e.writes = false) (frames : Nat → Frame) (f : Frame) :
    f.Safe e.columns (e.run frames f) := by
  have handed (c : Column) : c.Derived (· ∈ f.columns ++ [c]) :=
    .source (List.mem_append_right _ List.mem_cons_self)
  cases e with
  | populate columns => exact (f.populate_safe columns).map
  | addColumn c => exact (f.insertColumn_safe f.width (handed c)).map
  | prependColumn c => exact (f.insertColumn_safe 0 (handed c)).map
  | insertColumn position c => exact (f.insertColumn_safe position (handed c)).map
  | removeColumn i => exact (f.removeColumn_safe i).map
  | allowMissing t i => exact (f.allowMissing_safe t i).map
  | disallowMissing t i => exact (f.disallowMissing_safe t i).map
  | series | assign | column | set => cases apart
  | pushRow values => exact (atEnd_safe fun rows _ => f.insertRow_safe rows values).map
  | insertRow pos values => exact (f.insertRow_safe pos values).map
  | pushRowFrom source row =>
    exact (atEnd_safe fun rows _ => f.insertRowFrom_safe rows (frames source) row).map
  | insertRowFrom pos source row => exact (f.insertRowFrom_safe pos (frames source) row).map
  | insertRowWithin pos row => exact (f.insertRowWithin_safe pos row).map
  | insertDefaultRows pos count => exact (f.insertDefaultRows_safe pos count).map
  | eraseRows first last => exact (f.eraseRows_safe first last).map
  | popRow => exact f.popRow_safe.map
  | sort keys => exact (f.sortBy_safe false keys).map
  | reverseSort keys => exact (f.sortBy_safe true keys).map
  | retain condition => exact (f.retain_safe condition).map
  | derive name e placement =>
    exact (f.deriveWith_safe (fun _ _ => Column.fresh_of_infer) e placement).map
  | deriveAs t name e placement =>
    exact (f.deriveWith_safe (fun _ _ => Column.fresh_of_scalars) e placement).map

theorem run_tracked (e : Edit) (frames : Nat → Frame) (f : Frame) :
    f.Tracked e.columns (e.run frames f) := by
  cases e with
  | series t i e => exact (f.writeSeries_tracked t i e).map
  | assign t i s => exact (f.assign_tracked t i s).map
  | column i e => exact (f.writeColumn_elementary i (·.run_elementary e)).map
  | set row i value => exact (f.writeColumn_elementary i (·.setScalar_elementary row value)).map
  | _ => exact (run_safe rfl frames f).toTracked

end Edit

/-- A change of a frame that is refused, whatever the frame and however far it got, leaves the names,
types and cells of all columns as they were. So does it leave the stamp, save that a write to a single
column may cost the frame its stamp even then. -/
theorem refused_unchanged {frames : Nat → Frame} {f after : Frame} {e : Edit} {err : Error}
    (refused : e.run frames f = (.error err, after)) :
    after.contents = f.contents ∧ (e.writes = false → after.stamp? = f.stamp?) := by
  have tracked := (e.run_tracked frames f).refused err (by rw [refused])
  rw [refused] at tracked
  refine ⟨tracked, fun apart => ?_⟩
  have kept := (Edit.run_safe apart frames f).keeps err (by rw [refused])
  rw [refused] at kept
  exact kept

private def switches : Frame :=
  ⟨[.ofList .bool "on" [true, false], .ofList .text "label" ["left", "right"]], some 7⟩

theorem refused_unchanged_insertRow :
    let o := Edit.run (fun _ => .empty) switches (.insertRow 1 [.bool true, .bool true])
    o.1 = .error (.cannotHold .text .bool) ∧ o.2.contents = switches.contents ∧ o.2.stamp? = some 7 := by
  have refused : (Edit.run (fun _ => .empty) switches (.insertRow 1 [.bool true, .bool true])).1 =
      .error (.cannotHold .text .bool) := rfl
  obtain ⟨shown, stamp⟩ := refused_unchanged (Prod.ext refused rfl)
  exact ⟨refused, shown, stamp rfl⟩

end Frame

end Tabular
