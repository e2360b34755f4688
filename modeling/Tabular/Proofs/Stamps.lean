import Mathlib.Data.List.Perm.Basic
import Tabular.Proofs.Copies
import Tabular.Proofs.Heap
import Tabular.Workspace

/-! Frames with the same stamp show the same. The blocks of a workspace are accounted for by its frames,
so that a write in place is seen by the frame written to and by no other. Of every stamp issued a record
is kept of what it was issued for; a command adds to the record and changes nothing in it. An index
whose stamp is that of a frame was built of just what the frame shows. -/

namespace Tabular

def Column.Faithful (heap : Heap Elements) (c : Column) : Prop := heap.Faithful (c.storage, c.elements)

namespace Column

variable {heap : Heap Elements}

theorem faithful_of_fresh {c : Column} (new : c.storage = .fresh) : c.Faithful heap := by
  intro id home
  rw [new] at home
  cases home

theorem Faithful.change {α : Type} {c : Column} {o : Outcome Column α} (faithful : c.Faithful heap)
    (elementary : c.Elementary o) : o.2.Faithful heap := by
  cases elementary with
  | refusal _ => exact faithful
  | idle _ => exact faithful
  | rename _ _ => exact faithful
  | edit e _ =>
    intro id home
    obtain ⟨before, same⟩ := Series.edit_of_home home
    have elements : (c.edit e).2.elements = c.elements := congrArg (Elements.mk c.type) same
    rw [elements]
    exact faithful id before

theorem Derived.faithful {source : Column → Prop} {c : Column} (derived : c.Derived source)
    (sources : ∀ b, source b → b.Faithful heap) : c.Faithful heap := by
  induction derived with
  | source given => exact sources _ given
  | fresh new => exact faithful_of_fresh new
  | change _ elementary ih => exact ih.change elementary

end Column

def Holding.blocks (h : Holding) : List Nat := h.columns.map Handle.block

namespace Workspace

section Loading

variable {v w : Workspace}

theorem load_faithful (w : Workspace) (h : Holding) : ∀ c ∈ (w.load h).columns, c.Faithful w.heap := by
  intro c mem id home
  obtain ⟨handle, -, found⟩ := List.mem_filterMap.1 mem
  obtain ⟨elements, held, rfl⟩ := Option.map_eq_some_iff.1 found
  cases home
  exact held

theorem frame_faithful (w : Workspace) (i : Nat) : ∀ c ∈ (w.frame i).columns, c.Faithful w.heap := by
  rw [frame, frame?]
  cases w.frames[i]? with
  | none => exact nofun
  | some h => exact w.load_faithful h

theorem load_congr {h : Holding} (same : ∀ id ∈ h.blocks, w.heap.content? id = v.heap.content? id) :
    w.load h = v.load h := by
  have columns : h.columns.filterMap w.column? = h.columns.filterMap v.column? :=
    List.filterMap_congr fun handle mem => by
      rw [column?, column?, same handle.block (List.mem_map_of_mem mem)]
  rw [load, load, columns]

def handles (columns : List Column) (ids : List Nat) : List Handle :=
  List.zipWith (fun (c : Column) id => ⟨c.name, id⟩) columns ids

theorem blocks_handles {columns : List Column} {ids : List Nat} (same : ids.length = columns.length) :
    (handles columns ids).map Handle.block = ids := by
  have second : (columns.zip ids).map Prod.snd = ids := List.map_snd_zip (Nat.le_of_eq same)
  rw [List.zip_eq_zipWith, List.map_zipWith] at second
  rw [handles, List.map_zipWith]
  exact second

theorem copies_load {columns : List Column} {ids : List Nat} {stamp : Nat}
    (held : List.Forall₂ (fun id (c : Column) => w.heap.content? id = some c.elements) ids columns) :
    (w.load ⟨handles columns ids, stamp⟩).columns.map Column.copy = columns.map Column.copy := by
  induction held with
  | nil => rfl
  | @cons id c ids columns head _ ih =>
    have found : w.column? ⟨c.name, id⟩ = some ⟨c.type, ⟨c.name, c.buffer, .block id⟩⟩ := by
      rw [column?, head]
      rfl
    simp only [load, handles, List.zipWith_cons_cons, List.filterMap_cons_some found, List.map_cons] at ih ⊢
    rw [ih]
    rfl

end Loading

/-- What became of a workspace in which a frame was laid to rest next to other frames. -/
structure Settled (w : Workspace) (others : List Nat) (f : Frame) (h : Holding) (after : Workspace) :
    Prop where
  account : after.heap.Accounted (h.blocks ++ others)
  copies : (after.load h).columns.map Column.copy = f.columns.map Column.copy
  keeps : ∀ id ∈ others, after.heap.content? id = w.heap.content? id
  stamp : h.stamp = f.stamp?.getD w.nextStamp
  next : after.nextStamp = if f.stamp?.isSome then w.nextStamp else w.nextStamp + 1

theorem Settled.shows {w after : Workspace} {others : List Nat} {f : Frame} {h : Holding}
    (settled : w.Settled others f h after) : (after.load h).contents = f.contents :=
  Frame.contents_eq_of_copies settled.copies

theorem settle_eq (w : Workspace) (letGo : List Nat) (f : Frame) :
    let exchanged := w.heap.exchange letGo (f.columns.map fun c => (c.storage, c.elements))
    w.settle letGo f =
      (⟨handles f.columns exchanged.1, f.stamp?.getD w.nextStamp⟩,
        { w with
          heap := exchanged.2
          nextStamp := if f.stamp?.isSome then w.nextStamp else w.nextStamp + 1 }) := by
  rw [settle]
  cases f.stamp? <;> rfl

@[simp] theorem frames_settle (w : Workspace) (letGo : List Nat) (f : Frame) :
    (w.settle letGo f).2.frames = w.frames := by
  rw [settle_eq]

@[simp] theorem indices_settle (w : Workspace) (letGo : List Nat) (f : Frame) :
    (w.settle letGo f).2.indices = w.indices := by
  rw [settle_eq]

theorem settle_spec {w : Workspace} {letGo others : List Nat} {f : Frame}
    (account : w.heap.Accounted (letGo ++ others)) (faithful : ∀ c ∈ f.columns, c.Faithful w.heap) :
    w.Settled others f (w.settle letGo f).1 (w.settle letGo f).2 := by
  obtain ⟨counted, holds, keeps⟩ := Heap.exchange_spec
    (f.columns.map fun c => (c.storage, c.elements)) account fun v mem => by
      obtain ⟨c, inside, rfl⟩ := List.mem_map.1 mem
      exact faithful c inside
  have held := List.forall₂_map_right_iff.1 holds
  rw [settle_eq]
  refine ⟨?_, copies_load held, keeps, rfl, rfl⟩
  rw [Holding.blocks, blocks_handles held.length_eq]
  exact counted

/-- What each stamp below the next one was issued for. Frames show what is recorded for their stamps, and
an index with a stamp was built of a frame that showed what is recorded for it. -/
structure Recorded (w : Workspace) (record : Nat → List Contents) : Prop where
  account : w.heap.Accounted (w.frames.flatMap Holding.blocks)
  shows : ∀ h ∈ w.frames, h.stamp < w.nextStamp ∧ (w.load h).contents = record h.stamp
  indexes : ∀ index ∈ w.indices, ∀ k, index.stamp? = some k → k < w.nextStamp ∧
    ∃ f : Frame, f.stamp? = some k ∧ f.contents = record k ∧
      GroupIndex.build f index.columns = .ok index

def Stamped (w : Workspace) (record : Nat → List Contents) (f : Frame) : Prop :=
  ∀ k, f.stamp? = some k → k < w.nextStamp ∧ f.contents = record k

def Extends (w : Workspace) (record later : Nat → List Contents) : Prop :=
  ∀ k < w.nextStamp, later k = record k

section Records

variable {w after : Workspace} {record later : Nat → List Contents}

theorem Recorded.congr (recorded : w.Recorded record) (agrees : w.Extends record later) :
    w.Recorded later := by
  refine ⟨recorded.account, fun h mem => ?_, fun index mem k stamp => ?_⟩
  · obtain ⟨below, shown⟩ := recorded.shows h mem
    exact ⟨below, by rw [shown, agrees _ below]⟩
  · obtain ⟨below, f, stamped, shown, built⟩ := recorded.indexes index mem k stamp
    exact ⟨below, f, stamped, by rw [shown, agrees k below], built⟩

theorem Recorded.stamped_frame (recorded : w.Recorded record) (i : Nat) :
    w.Stamped record (w.frame i) := by
  intro k stamp
  rw [frame, frame?] at stamp ⊢
  cases found : w.frames[i]? with
  | none => rw [found] at stamp; cases stamp
  | some h =>
    rw [found] at stamp
    cases stamp
    exact recorded.shows h (List.mem_of_getElem? found)

theorem Settled.recorded {others : List Nat} {f : Frame} {h : Holding}
    (settled : w.Settled others f h after) (stamped : w.Stamped record f) :
    ∃ later, w.Extends record later ∧ w.nextStamp ≤ after.nextStamp ∧ h.stamp < after.nextStamp ∧
      f.contents = later h.stamp := by
  have stamp := settled.stamp
  have next := settled.next
  cases marked : f.stamp? with
  | some k =>
    obtain ⟨below, shown⟩ := stamped k marked
    rw [marked] at stamp next
    exact ⟨record, fun _ _ => rfl, Nat.le_of_eq next.symm, by rw [stamp, next]; exact below,
      by rw [stamp]; exact shown⟩
  | none =>
    rw [marked] at stamp next
    refine ⟨Function.update record w.nextStamp f.contents, fun k below => ?_, ?_, ?_, ?_⟩
    · exact Function.update_of_ne (Nat.ne_of_lt below) _ _
    · rw [next]; exact Nat.le_succ _
    · rw [stamp, next]; exact Nat.lt_succ_self _
    · rw [stamp]; exact (Function.update_self w.nextStamp f.contents record).symm

/-- A frame is laid to rest in exchange for the blocks `letGo`, next to the frames `rest`. -/
theorem Recorded.settle (recorded : w.Recorded record) {f : Frame} (letGo : List Nat)
    (rest frames : List Holding)
    (parts : (w.frames.flatMap Holding.blocks).Perm (letGo ++ rest.flatMap Holding.blocks))
    (stay : ∀ h ∈ rest, h ∈ w.frames) (kept : frames.Perm ((w.settle letGo f).1 :: rest))
    (faithful : ∀ c ∈ f.columns, c.Faithful w.heap) (stamped : w.Stamped record f) :
    ∃ later, w.Extends record later ∧ w.nextStamp ≤ (w.settle letGo f).2.nextStamp ∧
      Recorded { (w.settle letGo f).2 with frames } later := by
  have settled := settle_spec (recorded.account.of_count_eq fun id => parts.count_eq id) faithful
  obtain ⟨later, agrees, grows, below, shown⟩ := settled.recorded stamped
  refine ⟨later, agrees, grows, ?_, fun h mem => ?_, fun index mem k stamp => ?_⟩
  · exact settled.account.of_count_eq fun id => (kept.flatMap_right Holding.blocks).symm.count_eq id
  · rcases List.mem_cons.1 (kept.mem_iff.1 mem) with rfl | mem
    · exact ⟨below, settled.shows.trans shown⟩
    · obtain ⟨old, before⟩ := recorded.shows h (stay h mem)
      have same : (w.settle letGo f).2.load h = w.load h :=
        load_congr fun id named => settled.keeps id (List.mem_flatMap.2 ⟨h, mem, named⟩)
      refine ⟨Nat.lt_of_lt_of_le old grows, ?_⟩
      rw [agrees _ old, ← before, ← same]
      rfl
  · have listed : index ∈ w.indices := w.indices_settle letGo f ▸ mem
    obtain ⟨old, g, marked, before, built⟩ := recorded.indexes index listed k stamp
    exact ⟨Nat.lt_of_lt_of_le old grows, g, marked, before.trans (agrees k old).symm, built⟩

theorem Recorded.add (recorded : w.Recorded record) {f : Frame}
    (faithful : ∀ c ∈ f.columns, c.Faithful w.heap) (stamped : w.Stamped record f) :
    ∃ later, w.Extends record later ∧ w.nextStamp ≤ (w.add f).nextStamp ∧ (w.add f).Recorded later := by
  refine recorded.settle [] w.frames ((w.settle [] f).2.frames ++ [(w.settle [] f).1])
    (List.Perm.refl _) (fun _ mem => mem) ?_ faithful stamped
  rw [frames_settle]
  exact List.perm_append_comm

theorem blocks_eraseIdx_perm {frames : List Holding} {i : Nat} (inside : i < frames.length) :
    (frames.flatMap Holding.blocks).Perm
      (frames[i].blocks ++ (frames.eraseIdx i).flatMap Holding.blocks) :=
  ((List.getElem_cons_eraseIdx_perm inside).symm).flatMap_right Holding.blocks

theorem Recorded.store (recorded : w.Recorded record) {i : Nat} {f : Frame}
    (faithful : ∀ c ∈ f.columns, c.Faithful w.heap) (stamped : w.Stamped record f) :
    ∃ later, w.Extends record later ∧ w.nextStamp ≤ (w.store i f).nextStamp ∧
      (w.store i f).Recorded later := by
  rw [Workspace.store]
  split
  · next old found =>
    obtain ⟨inside, rfl⟩ := List.getElem?_eq_some_iff.1 found
    let settled := w.settle w.frames[i].blocks f
    refine recorded.settle w.frames[i].blocks (w.frames.eraseIdx i) (settled.2.frames.set i settled.1)
      (blocks_eraseIdx_perm inside) (fun _ mem => List.mem_of_mem_eraseIdx mem) ?_ faithful stamped
    rw [frames_settle]
    exact List.set_perm_cons_eraseIdx inside _
  · exact ⟨record, fun _ _ => rfl, Nat.le_refl _, recorded⟩

def Command.columns : Command → List Column
  | .edit _ e => e.columns
  | .build b => b.columns
  | .drop _ => []
  | .index .. => []

/-- What a command hands over is in the blocks it says it is in, if in any. -/
def Admits (w : Workspace) (c : Command) : Prop := ∀ b ∈ c.columns, b.Faithful w.heap

theorem Recorded.edit (recorded : w.Recorded record) {i : Nat} {e : Frame.Edit}
    (handed : ∀ b ∈ e.columns, b.Faithful w.heap) :
    ∃ later, w.Extends record later ∧ w.nextStamp ≤ (w.edit i e).2.nextStamp ∧
      (w.edit i e).2.Recorded later := by
  have tracked := e.run_tracked w.frame (w.frame i)
  refine recorded.store (f := (e.run w.frame (w.frame i)).2)
    (fun c mem => (tracked.derived c mem).faithful fun b given => ?_) ?_
  · rcases List.mem_append.1 given with own | given
    · exact w.frame_faithful i b own
    · exact handed b given
  · intro k stamp
    rcases tracked.stamped with lost | ⟨shown, same⟩
    · rw [lost] at stamp
      cases stamp
    · rw [same] at stamp
      rw [shown]
      exact recorded.stamped_frame i k stamp

theorem faithful_of_run {b : Frame.Build} (handed : ∀ c ∈ b.columns, c.Faithful w.heap) {f : Frame}
    (ran : b.run w.frame (fun i => w.indices[i]?) = .ok f) : ∀ c ∈ f.columns, c.Faithful w.heap := by
  intro c mem
  rcases Frame.Build.run_made ran with made | ⟨i, rfl⟩
  · refine (made.derived c mem).faithful fun d given => ?_
    rcases given with given | ⟨i, own⟩
    · exact handed d given
    · exact w.frame_faithful i d own
  · exact w.frame_faithful i c mem

theorem Recorded.build (recorded : w.Recorded record) {b : Frame.Build}
    (handed : ∀ c ∈ b.columns, c.Faithful w.heap) :
    ∃ later, w.Extends record later ∧ w.nextStamp ≤ (w.build b).2.nextStamp ∧
      (w.build b).2.Recorded later := by
  rw [Workspace.build]
  split
  · next f ran =>
    refine recorded.add (faithful_of_run handed ran) ?_
    rcases Frame.Build.run_made ran with made | ⟨i, rfl⟩
    · intro k stamp
      rw [made.stamp] at stamp
      cases stamp
    · exact recorded.stamped_frame i
  · exact ⟨record, fun _ _ => rfl, Nat.le_refl _, recorded⟩

theorem Recorded.addIndex (recorded : w.Recorded record) {i : Nat} {keys : List Nat} :
    (w.addIndex i keys).2.Recorded record := by
  rw [Workspace.addIndex]
  split
  · next g built =>
    obtain ⟨columns, stamp⟩ := GroupIndex.columns_build built
    refine ⟨recorded.account, recorded.shows, fun index mem k marked => ?_⟩
    rcases List.mem_append.1 mem with mem | mem
    · exact recorded.indexes index mem k marked
    · obtain rfl := List.mem_singleton.1 mem
      rw [stamp] at marked
      obtain ⟨below, shown⟩ := recorded.stamped_frame i k marked
      exact ⟨below, w.frame i, marked, shown, by rw [columns]; exact built⟩
  · exact recorded

theorem Recorded.drop (recorded : w.Recorded record) (i : Nat) : (w.drop i).Recorded record := by
  rw [Workspace.drop]
  split
  · next old found =>
    obtain ⟨inside, rfl⟩ := List.getElem?_eq_some_iff.1 found
    have account := recorded.account.of_count_eq fun id => (blocks_eraseIdx_perm inside).count_eq id
    refine ⟨account.releaseAll, fun h mem => ?_, recorded.indexes⟩
    obtain ⟨below, shown⟩ := recorded.shows h (List.mem_of_mem_eraseIdx mem)
    exact ⟨below, by rw [← shown, load_congr fun id _ => Heap.content?_releaseAll _ _ id]⟩
  · exact recorded

/-- A command adds to the record at most. -/
theorem Recorded.step (recorded : w.Recorded record) {c : Command} (admitted : w.Admits c) :
    ∃ later, w.Extends record later ∧ w.nextStamp ≤ (w.step c).nextStamp ∧
      (w.step c).Recorded later := by
  cases c with
  | edit i e => exact recorded.edit admitted
  | build b => exact recorded.build admitted
  | drop i =>
    have same : (w.drop i).nextStamp = w.nextStamp := by
      rw [Workspace.drop]
      split <;> rfl
    exact ⟨record, fun _ _ => rfl, Nat.le_of_eq same.symm, recorded.drop i⟩
  | index i keys =>
    have same : (w.addIndex i keys).2.nextStamp = w.nextStamp := by
      rw [Workspace.addIndex]
      split <;> rfl
    exact ⟨record, fun _ _ => rfl, Nat.le_of_eq same.symm, recorded.addIndex⟩

end Records

/-- A history in which every command hands over what it can hand over. -/
def AdmitsAll : Workspace → List Command → Prop
  | _, [] => True
  | w, c :: cs => w.Admits c ∧ AdmitsAll (w.step c) cs

theorem Recorded.history {w : Workspace} {record : Nat → List Contents} (recorded : w.Recorded record)
    {commands : List Command} (admitted : w.AdmitsAll commands) :
    ∃ later, w.Extends record later ∧ ∀ v ∈ commands.scanl Workspace.step w, v.Recorded later := by
  induction commands generalizing w record with
  | nil => exact ⟨record, fun _ _ => rfl, by simpa using recorded⟩
  | cons c cs ih =>
    obtain ⟨next, agrees, grows, recorded'⟩ := recorded.step admitted.1
    obtain ⟨later, agrees', always⟩ := ih recorded' admitted.2
    have agree : w.Extends record later := fun k below => by
      rw [agrees' k (Nat.lt_of_lt_of_le below grows), agrees k below]
    refine ⟨later, agree, fun v mem => ?_⟩
    rw [List.scanl_cons] at mem
    rcases List.mem_cons.1 mem with rfl | mem
    · exact recorded.congr agree
    · exact always v mem

theorem recorded_empty (record : Nat → List Contents) : empty.Recorded record :=
  ⟨Heap.Accounted.empty, nofun, nofun⟩

/-- The states of a workspace that begins without frames, before the commands and after each. -/
def history (commands : List Command) : List Workspace := commands.scanl step empty

/-- Whatever is done to any number of frames, refused or not: two frames with the same stamp, in one state
or in two, show the same names, types and cells. So an index that is not found stale aggregates as one
that is built of the frame afresh. -/
theorem stamps_identify {commands : List Command} (admitted : empty.AdmitsAll commands) :
    (∀ v ∈ history commands, ∀ w ∈ history commands, ∀ i j f g, v.frame? i = some f →
      w.frame? j = some g → f.stamp? = g.stamp? → f.contents = g.contents) ∧
    ∀ w ∈ history commands, ∀ index ∈ w.indices, ∀ i aggregations options,
      (∀ indexed current,
        index.aggregate (w.frame i) aggregations options ≠ .error (.staleIndex indexed current)) →
      ∃ fresh, GroupIndex.build (w.frame i) index.columns = .ok fresh ∧
        index.aggregate (w.frame i) aggregations options =
          fresh.aggregate (w.frame i) aggregations options := by
  obtain ⟨record, -, always⟩ := (recorded_empty fun _ => []).history admitted
  have shown {v : Workspace} (mem : v ∈ history commands) {i : Nat} {f : Frame}
      (found : v.frame? i = some f) : ∃ k, f.stamp? = some k ∧ f.contents = record k := by
    obtain ⟨h, there, rfl⟩ := Option.map_eq_some_iff.1 found
    exact ⟨h.stamp, rfl, ((always v mem).shows h (List.mem_of_getElem? there)).2⟩
  refine ⟨fun v memv w memw i j f g foundf foundg same => ?_, fun w mem index listed i as o fit => ?_⟩
  · obtain ⟨k, stampf, recf⟩ := shown memv foundf
    obtain ⟨l, stampg, recg⟩ := shown memw foundg
    rw [stampf, stampg] at same
    cases same
    rw [recf, recg]
  · have current : index.isCurrent (w.frame i) = true := by
      by_contra stale
      exact fit _ _ (by rw [GroupIndex.aggregate, if_neg stale])
    rw [GroupIndex.isCurrent, Bool.and_eq_true, beq_iff_eq] at current
    obtain ⟨some, same⟩ := current
    obtain ⟨k, stamp⟩ := Option.isSome_iff_exists.1 some
    obtain ⟨-, f, stamped, recorded, built⟩ := (always w mem).indexes index listed k stamp
    obtain ⟨-, now⟩ := (always w mem).stamped_frame i k (by rw [← same, stamp])
    refine ⟨index, ?_, rfl⟩
    rw [← built]
    exact GroupIndex.build_congr (now.trans recorded.symm) (by rw [← same, stamp, stamped]) _

private def shared : Column := ⟨.bool, ⟨"copy", .ofList [true, false, true], .block 0⟩⟩

private def sharing : List Command :=
  [.build (.ofColumns [.ofList .bool "on" [true, false, true]]), .index 0 [0], .build (.clone 0),
    .edit 0 (.addColumn shared), .edit 0 (.set 1 0 (.bool true))]

theorem stamps_identify_clone :
    let w := sharing.foldl step empty
    w.frames.map Holding.stamp = [3, 1] ∧
      ∀ index ∈ w.indices, ∃ fresh, GroupIndex.build (w.frame 1) index.columns = .ok fresh ∧
        index.aggregate (w.frame 1) [.count] {} = fresh.aggregate (w.frame 1) [.count] {} := by
  have admitted : empty.AdmitsAll sharing := by
    refine ⟨fun b mem => ?_, nofun, nofun, fun b mem => ?_, nofun, trivial⟩
    · obtain rfl := List.mem_singleton.1 mem
      exact Column.faithful_of_fresh rfl
    · obtain rfl := List.mem_singleton.1 mem
      rintro id ⟨⟩
      rfl
  refine ⟨rfl, fun index mem => ?_⟩
  have serves := (stamps_identify admitted).2 (sharing.foldl step empty)
    (List.mem_of_getElem? (i := 5) rfl) index mem 1 [.count] {}
  obtain rfl := List.mem_singleton.1 mem
  exact serves fun _ _ => nofun

end Workspace

end Tabular
