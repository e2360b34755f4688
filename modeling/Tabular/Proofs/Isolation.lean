import Tabular.Proofs.CopiedChanges
import Tabular.Proofs.Stamps

/-! Frames do not show that they share blocks. A workspace shows what it would show if no block had two owners
and every command made copies of all that it takes: so what is done to one frame is seen in no other, and
what is written to one column in no other column. Columns that are gathered row by row are in blocks of their
own from the start. -/

namespace Tabular

theorem map_set_of_eraseIdx {α β : Type} {g h : α → β} {as : List α} {i : Nat}
    (agree : ∀ a ∈ as.eraseIdx i, g a = h a) (b : α) : (as.set i b).map g = (as.map h).set i (g b) := by
  rw [List.map_set]
  refine List.ext_getElem? fun j => ?_
  by_cases same : i = j
  · rw [same, List.getElem?_set_self', List.getElem?_set_self', List.getElem?_map, List.getElem?_map]
    cases as[j]? <;> rfl
  · rw [List.getElem?_set_ne same, List.getElem?_set_ne same, List.getElem?_map, List.getElem?_map]
    cases there : as[j]? with
    | none => rfl
    | some a => exact congrArg some (agree a (List.mem_eraseIdx_iff_getElem?.2 ⟨j, Ne.symm same, there⟩))

/-- The column that a change is about, if it is about one column only. -/
def Frame.Edit.target? : Frame.Edit → Option Nat
  | .allowMissing _ i | .disallowMissing _ i | .series _ i _ | .assign _ i _ | .column i _ => some i
  | .set _ i _ => some i
  | _ => none

def Frame.Edit.Gathers : Frame.Edit → Prop
  | .sort _ | .reverseSort _ => True
  | _ => False

def Frame.Build.Gathers : Frame.Build → Prop
  | .takeRows .. | .takeRowsOrDefault .. | .filter .. | .groupBy .. | .aggregate .. | .join .. => True
  | _ => False

namespace Frame

section Targets

variable {f : Frame} {i j : Nat}

theorem getElem?_replaceColumn (c : Column) (other : j ≠ i) :
    (f.replaceColumn i c).contents[j]? = f.contents[j]? := by
  simp only [contents, replaceColumn, List.getElem?_map, List.getElem?_set_ne (Ne.symm other)]

theorem getElem?_writeColumn {α : Type} (change : Column → Outcome Column α) (other : j ≠ i) :
    (f.writeColumn i change).2.contents[j]? = f.contents[j]? := by
  rw [writeColumn]
  split
  · exact getElem?_replaceColumn _ other
  · rfl

theorem Edit.getElem?_of_target {e : Edit} (frames : Nat → Frame) (about : e.target? = some i)
    (other : j ≠ i) : (e.run frames f).2.contents[j]? = f.contents[j]? := by
  cases e <;> cases about
  case allowMissing t =>
    show (f.allowMissing t i).2.contents[j]? = _
    rw [Frame.allowMissing]
    split
    · exact getElem?_replaceColumn _ other
    · rfl
  case disallowMissing t =>
    show (f.disallowMissing t i).2.contents[j]? = _
    rw [Frame.disallowMissing]
    split
    · exact getElem?_replaceColumn _ other
    · rfl
  case series => exact getElem?_writeColumn _ other
  case assign => exact getElem?_writeColumn _ other
  case column => exact getElem?_writeColumn _ other
  case set => exact getElem?_writeColumn _ other

theorem Edit.target?_copy (e : Edit) : e.copy.target? = e.target? := by
  cases e <;> rfl

end Targets

end Frame

section Gathering

theorem Column.fresh_of_derived {c : Column} (derived : c.Derived fun _ => False) : c.storage = .fresh := by
  induction derived with
  | source given => exact given.elim
  | fresh new => exact new
  | @change _ c _ _ elementary ih =>
    cases elementary with
    | refusal _ => exact ih
    | idle _ => exact ih
    | rename _ _ => exact ih
    | edit e _ =>
      obtain ⟨t, name, buffer, storage⟩ := c
      obtain rfl : storage = .fresh := ih
      exact congrArg (fun o => o.2.storage) (edit_copy ⟨t, ⟨name, buffer, .fresh⟩⟩ e)

theorem Frame.Build.fresh_of_gathers {frames : Nat → Frame} {indices : Nat → Option GroupIndex} {b : Build}
    {f : Frame} (gathers : b.Gathers) (made : b.run frames indices = .ok f) :
    ∀ c ∈ f.columns, c.storage = .fresh := by
  have new : f.Made fun _ => False := by
    cases b with
    | takeRows => exact made_of_takeRows made
    | takeRowsOrDefault => exact made_of_takeRowsOrDefault made
    | filter =>
      obtain ⟨mask, -, made⟩ := bind_eq_ok_iff.1 made
      exact made_of_takeRows made
    | groupBy =>
      obtain ⟨index, -, made⟩ := bind_eq_ok_iff.1 made
      exact made_of_summarize made
    | aggregate _ index =>
      rw [run] at made
      split at made
      · rw [GroupIndex.aggregate] at made
        split at made
        · exact made_of_summarize made
        · cases made
      · cases made
    | join => exact made_of_join made
    | _ => exact gathers.elim
  exact fun c mem => Column.fresh_of_derived (new.derived c mem)

theorem Frame.fresh_of_sortBy {f g : Frame} {descending : Bool} {keys : List Nat}
    (sorted : f.sortBy descending keys = (.ok (), g)) : ∀ c ∈ g.columns, c.storage = .fresh := by
  rw [sortBy, atEnd] at sorted
  split at sorted
  · split at sorted
    · next columns gathered =>
      cases sorted
      obtain ⟨cells, -, gathered⟩ := bind_eq_ok_iff.1 gathered
      intro c mem
      obtain ⟨b, -, taken⟩ := exists_of_mem_mapM gathered mem
      exact Column.fresh_of_take taken
    · cases sorted
  · cases sorted

theorem Frame.Edit.fresh_of_gathers {frames : Nat → Frame} {e : Edit} {f : Frame} {reply : Reply}
    (gathers : e.Gathers) (changed : (e.run frames f).1 = .ok reply) :
    ∀ c ∈ (e.run frames f).2.columns, c.storage = .fresh := by
  have sorts (descending : Bool) (keys : List Nat) {r : Reply}
      (changed : (f.sortBy descending keys).1.map (fun _ => Reply.done) = .ok r) :
      ∀ c ∈ (f.sortBy descending keys).2.columns, c.storage = .fresh := by
    obtain ⟨_, done, -⟩ := map_eq_ok_iff.1 changed
    exact fresh_of_sortBy (Prod.ext done rfl)
  cases e with
  | sort keys => exact sorts false keys changed
  | reverseSort keys => exact sorts true keys changed
  | _ => exact gathers.elim

end Gathering

/-- Frames each of which has its elements for itself. -/
structure Replica where
  frames : List Frame
  indices : List GroupIndex
  nextStamp : Nat

namespace Replica

def empty : Replica := ⟨[], [], 1⟩

def frame (r : Replica) (i : Nat) : Frame := (r.frames[i]?).getD .empty

def stamp (r : Replica) (f : Frame) : Frame × Nat :=
  match f.stamp? with
  | some _ => (f, r.nextStamp)
  | none => ({ f with stamp? := some r.nextStamp }, r.nextStamp + 1)

def add (r : Replica) (f : Frame) : Replica :=
  ⟨r.frames ++ [(r.stamp f).1], r.indices, (r.stamp f).2⟩

def store (r : Replica) (i : Nat) (f : Frame) : Replica :=
  match r.frames[i]? with
  | some _ => ⟨r.frames.set i (r.stamp f).1, r.indices, (r.stamp f).2⟩
  | none => r

def edit (r : Replica) (i : Nat) (e : Frame.Edit) : Outcome Replica Frame.Reply :=
  let (answer, f) := e.copy.run (fun j => (r.frame j).copy) (r.frame i).copy
  (answer, r.store i f)

def build (r : Replica) (b : Frame.Build) : Outcome Replica Nat :=
  match b.copy.run (fun j => (r.frame j).copy) (fun i => r.indices[i]?) with
  | .ok f => (.ok r.frames.length, r.add f)
  | .error e => (.error e, r)

def addIndex (r : Replica) (i : Nat) (keys : List Nat) : Outcome Replica GroupIndex :=
  match GroupIndex.build (r.frame i).copy keys with
  | .ok g => (.ok g, { r with indices := r.indices ++ [g] })
  | .error e => (.error e, r)

def step (r : Replica) : Workspace.Command → Replica
  | .edit i e => (r.edit i e).2
  | .build b => (r.build b).2
  | .drop i => { r with frames := r.frames.eraseIdx i }
  | .index i keys => (r.addIndex i keys).2

def shown (r : Replica) : List (List Contents) := r.frames.map Frame.contents

end Replica

theorem Frame.copy_copy (f : Frame) : f.copy.copy = f.copy :=
  congrArg (Frame.mk · f.stamp?) (List.map_map (g := Column.copy))

namespace Workspace

def shown (w : Workspace) : List (List Contents) := w.frames.map fun h => (w.load h).contents

/-- The frames of a workspace with copies of their elements. -/
def replica (w : Workspace) : Replica := ⟨w.frames.map fun h => (w.load h).copy, w.indices, w.nextStamp⟩

section Replication

variable {w : Workspace} {record : Nat → List Contents}

theorem shown_replica (w : Workspace) : w.replica.shown = w.shown := by
  simp only [Replica.shown, replica, shown, List.map_map, Function.comp_def, Frame.contents_copy]

theorem copy_frame_replica (w : Workspace) (i : Nat) : (w.replica.frame i).copy = (w.frame i).copy := by
  rw [Replica.frame, replica, List.getElem?_map, frame, frame?]
  cases w.frames[i]? with
  | none => rfl
  | some h => exact (w.load h).copy_copy

theorem Settled.replica {others : List Nat} {f : Frame} {h : Holding} {after : Workspace}
    (settled : w.Settled others f h after) :
    ((after.load h).copy, after.nextStamp) = w.replica.stamp f.copy := by
  have loaded : (after.load h).copy = ⟨f.columns.map Column.copy, some h.stamp⟩ :=
    congrArg (Frame.mk · (some h.stamp)) settled.copies
  rw [loaded, settled.stamp, settled.next, Replica.stamp]
  obtain ⟨columns, stamp?⟩ := f
  cases stamp? <;> rfl

theorem Settled.copy_rest {rest : List Holding} {f : Frame} {h : Holding} {after : Workspace}
    (settled : w.Settled (rest.flatMap Holding.blocks) f h after) {g : Holding} (mem : g ∈ rest) :
    (after.load g).copy = (w.load g).copy := by
  rw [load_congr fun id named => settled.keeps id (List.mem_flatMap.2 ⟨g, mem, named⟩)]

theorem replica_add (account : w.heap.Accounted (w.frames.flatMap Holding.blocks)) {f : Frame}
    (faithful : ∀ c ∈ f.columns, c.Faithful w.heap) : (w.add f).replica = w.replica.add f.copy := by
  have settled : w.Settled (w.frames.flatMap Holding.blocks) f (w.settle [] f).1 (w.settle [] f).2 :=
    settle_spec account faithful
  have rest : w.frames.map (fun g => ((w.settle [] f).2.load g).copy) =
      w.frames.map fun g => (w.load g).copy := List.map_congr_left fun g => settled.copy_rest
  rw [Replica.add, ← settled.replica]
  show (⟨((w.settle [] f).2.frames ++ [(w.settle [] f).1]).map fun g => ((w.settle [] f).2.load g).copy,
    (w.settle [] f).2.indices, (w.settle [] f).2.nextStamp⟩ : Replica) = _
  rw [frames_settle, indices_settle, List.map_append, rest]
  rfl

theorem replica_store (account : w.heap.Accounted (w.frames.flatMap Holding.blocks)) (i : Nat) {f : Frame}
    (faithful : ∀ c ∈ f.columns, c.Faithful w.heap) : (w.store i f).replica = w.replica.store i f.copy := by
  have there : w.replica.frames[i]? = (w.frames[i]?).map fun h => (w.load h).copy := List.getElem?_map
  rw [store, Replica.store, there]
  cases found : w.frames[i]? with
  | none => rfl
  | some old =>
    obtain ⟨inside, rfl⟩ := List.getElem?_eq_some_iff.1 found
    let settled := w.settle w.frames[i].blocks f
    have spec : w.Settled ((w.frames.eraseIdx i).flatMap Holding.blocks) f settled.1 settled.2 :=
      settle_spec (account.of_count_eq fun id => (blocks_eraseIdx_perm inside).count_eq id) faithful
    have frames : (w.frames.set i settled.1).map (fun g => (settled.2.load g).copy) =
        (w.frames.map fun g => (w.load g).copy).set i (settled.2.load settled.1).copy :=
      map_set_of_eraseIdx (fun g => spec.copy_rest) settled.1
    rw [Option.map_some]
    dsimp only
    rw [← spec.replica]
    show (⟨(settled.2.frames.set i settled.1).map fun g => (settled.2.load g).copy,
      settled.2.indices, settled.2.nextStamp⟩ : Replica) = _
    rw [frames_settle, indices_settle, frames]
    rfl

theorem edit_replica (recorded : w.Recorded record) {i : Nat} {e : Frame.Edit}
    (handed : ∀ b ∈ e.columns, b.Faithful w.heap) :
    w.replica.edit i e = ((w.edit i e).1.map Frame.Reply.copy, (w.edit i e).2.replica) := by
  have tracked := e.run_tracked w.frame (w.frame i)
  have same := e.run_copy w.frame (w.frame i)
  have stored := replica_store recorded.account i (f := (e.run w.frame (w.frame i)).2) fun c mem =>
    (tracked.derived c mem).faithful fun b given => (List.mem_append.1 given).elim
      (w.frame_faithful i b) (handed b)
  simp only [Replica.edit, copy_frame_replica, same]
  exact congrArg (Prod.mk _) stored.symm

theorem build_replica (recorded : w.Recorded record) {b : Frame.Build}
    (handed : ∀ c ∈ b.columns, c.Faithful w.heap) :
    w.replica.build b = ((w.build b).1, (w.build b).2.replica) := by
  have same := b.run_copy w.frame (fun i => w.indices[i]?)
  have indices : w.replica.indices = w.indices := rfl
  simp only [Replica.build, copy_frame_replica, indices, same, build]
  cases ran : b.run w.frame fun i => w.indices[i]? with
  | error e => rfl
  | ok f =>
    have added : (w.add f).replica = w.replica.add f.copy :=
      replica_add recorded.account (faithful_of_run handed ran)
    have counted : w.replica.frames.length = w.frames.length := List.length_map _
    simp only [Except.map, counted, added]

theorem addIndex_replica (w : Workspace) (i : Nat) (keys : List Nat) :
    w.replica.addIndex i keys = ((w.addIndex i keys).1, (w.addIndex i keys).2.replica) := by
  have same : GroupIndex.build (w.frame i).copy keys = GroupIndex.build (w.frame i) keys :=
    GroupIndex.build_congr (w.frame i).contents_copy rfl keys
  rw [Replica.addIndex, copy_frame_replica, same, addIndex]
  cases GroupIndex.build (w.frame i) keys <;> rfl

theorem replica_drop (w : Workspace) (i : Nat) :
    (w.drop i).replica = { w.replica with frames := w.replica.frames.eraseIdx i } := by
  rw [drop]
  split
  · next old found =>
    have rest : (fun h => (load { w with heap := w.heap.releaseAll old.blocks } h).copy) =
        fun h => (w.load h).copy := funext fun h => by
      rw [load_congr fun id _ => Heap.content?_releaseAll _ _ id]
    show (⟨(w.frames.eraseIdx i).map _, w.indices, w.nextStamp⟩ : Replica) = _
    rw [← List.eraseIdx_map]
    exact congrArg (fun g => (⟨(w.frames.map g).eraseIdx i, w.indices, w.nextStamp⟩ : Replica)) rest
  · next beyond =>
    have outside : w.replica.frames.length ≤ i := by
      rw [replica, List.length_map]
      exact List.getElem?_eq_none_iff.1 beyond
    rw [List.eraseIdx_of_length_le outside]

/-- A command that shares blocks comes to what it comes to on copies. -/
theorem replica_step (recorded : w.Recorded record) {c : Command} (admitted : w.Admits c) :
    (w.step c).replica = w.replica.step c := by
  cases c with
  | edit i e => exact (congrArg Prod.snd (edit_replica recorded admitted)).symm
  | build b => exact (congrArg Prod.snd (build_replica recorded admitted)).symm
  | drop i => exact w.replica_drop i
  | index i keys => exact (congrArg Prod.snd (w.addIndex_replica i keys)).symm

/-- What shows after a command, if it did nothing to anything but what it is about. -/
def Command.Confined (before after : List (List Contents)) : Command → Prop
  | .edit i e => after.length = before.length ∧ (∀ j ≠ i, after[j]? = before[j]?) ∧
      ∀ k, e.target? = some k → ∀ x y, before[i]? = some x → after[i]? = some y → ∀ j ≠ k, y[j]? = x[j]?
  | .build _ => ∃ made, after = before ++ made
  | .drop i => after = before.eraseIdx i
  | .index .. => after = before

theorem contents_stamp (r : Replica) (f : Frame) : (r.stamp f).1.contents = f.contents := by
  rw [Replica.stamp]
  split <;> rfl

theorem shown_store (r : Replica) (i : Nat) (f : Frame) : (r.store i f).shown = r.shown.set i f.contents := by
  rw [Replica.store]
  split
  · exact List.map_set.trans (congrArg _ (contents_stamp r f))
  · next beyond =>
    have outside : r.shown.length ≤ i := by
      rw [Replica.shown, List.length_map]
      exact List.getElem?_eq_none_iff.1 beyond
    exact (List.set_eq_of_length_le outside).symm

/-- Without shared blocks a command does nothing to anything but what it is about. -/
theorem confined_step (r : Replica) (c : Command) : c.Confined r.shown (r.step c).shown := by
  cases c with
  | edit i e =>
    let f := (e.copy.run (fun j => (r.frame j).copy) (r.frame i).copy).2
    have changed : (r.step (.edit i e)).shown = r.shown.set i f.contents := shown_store r i f
    rw [changed]
    refine ⟨List.length_set, fun j other => List.getElem?_set_ne (Ne.symm other), ?_⟩
    intro k about x y before after j other
    have inside : i < r.shown.length := (List.getElem?_eq_some_iff.1 before).1
    rw [List.getElem?_set_self inside, Option.some.injEq] at after
    rw [← e.target?_copy] at about
    have was : (r.frame i).copy.contents = x := by
      rw [Replica.shown, List.getElem?_map] at before
      obtain ⟨g, there, rfl⟩ := Option.map_eq_some_iff.1 before
      rw [Frame.contents_copy, Replica.frame, there, Option.getD_some]
    rw [← after, ← was]
    exact Frame.Edit.getElem?_of_target _ about other
  | build b =>
    show ∃ made, (r.build b).2.shown = r.shown ++ made
    rw [Replica.build]
    split
    · next f _ => exact ⟨[(r.stamp f).1.contents], List.map_append⟩
    · exact ⟨[], (List.append_nil _).symm⟩
  | drop i => exact (List.eraseIdx_map ..).symm
  | index i keys =>
    show (r.addIndex i keys).2.shown = r.shown
    rw [Replica.addIndex]
    split <;> rfl

theorem history_replica {w : Workspace} {record : Nat → List Contents} (recorded : w.Recorded record)
    {commands : List Command} (admitted : w.AdmitsAll commands) :
    (commands.scanl step w).map replica = commands.scanl Replica.step w.replica := by
  induction commands generalizing w record with
  | nil => simp
  | cons c cs ih =>
    obtain ⟨later, -, -, recorded'⟩ := recorded.step admitted.1
    rw [List.scanl_cons, List.scanl_cons, List.map_cons, ih recorded' admitted.2,
      replica_step recorded admitted.1]

/-- The columns of a frame are in blocks of their own, in which there was no column before. -/
structure Apart (w : Workspace) (h : Holding) : Prop where
  distinct : h.blocks.Nodup
  unused : ∀ id ∈ h.blocks, w.heap.content? id = none
  unshared : ∀ other ∈ w.frames, h.blocks.Disjoint other.blocks

theorem apart_settle (account : w.heap.Accounted (w.frames.flatMap Holding.blocks)) (letGo : List Nat)
    {f : Frame} (new : ∀ c ∈ f.columns, c.storage = .fresh) : w.Apart (w.settle letGo f).1 := by
  let values := f.columns.map fun c => (c.storage, c.elements)
  have unplaced : ∀ v ∈ values, v.1 = .fresh := fun v mem => by
    obtain ⟨c, inside, rfl⟩ := List.mem_map.1 mem
    exact new c inside
  have ids := Heap.exchange_of_fresh letGo w.heap unplaced
  have blocks : (w.settle letGo f).1.blocks = List.range' w.heap.blocks.length f.columns.length := by
    rw [List.length_map] at ids
    rw [settle_eq, Holding.blocks, blocks_handles (by rw [ids, List.length_range']), ids]
  have beyond {id : Nat} (mem : id ∈ (w.settle letGo f).1.blocks) : w.heap.blocks.length ≤ id := by
    rw [blocks] at mem
    exact (List.mem_range'_1.1 mem).1
  refine ⟨by rw [blocks]; exact List.nodup_range', fun id mem => ?_, fun other there id mem named => ?_⟩
  · rw [Heap.content?, List.getElem?_eq_none (beyond mem), Option.map_none]
  · have held := account.held (List.mem_flatMap.2 ⟨other, there, named⟩)
    exact Nat.lt_irrefl _ (Nat.lt_of_lt_of_le (w.heap.lt_length_of_held id held) (beyond mem))

/-- What a command makes that gathers its columns row by row. -/
inductive Gathered (w : Workspace) : Holding → Prop
  | build {b : Frame.Build} {n : Nat} {after : Workspace} {h : Holding} (gathers : b.Gathers)
      (built : w.build b = (.ok n, after)) (there : after.frames[n]? = some h) : Gathered w h
  | edit {i : Nat} {e : Frame.Edit} {reply : Frame.Reply} {after : Workspace} {h : Holding}
      (gathers : e.Gathers) (changed : w.edit i e = (.ok reply, after)) (there : after.frames[i]? = some h) :
      Gathered w h

theorem Gathered.apart {h : Holding} (gathered : w.Gathered h) (recorded : w.Recorded record) : w.Apart h := by
  cases gathered with
  | @build b n after _ gathers built there =>
    rw [Workspace.build] at built
    split at built
    · next f ran =>
      cases built
      have made : (w.add f).frames = w.frames ++ [(w.settle [] f).1] :=
        congrArg (· ++ [(w.settle [] f).1]) (w.frames_settle [] f)
      rw [made, List.getElem?_concat_length] at there
      cases there
      exact apart_settle recorded.account [] (Frame.Build.fresh_of_gathers gathers ran)
    · cases built
  | @edit i e reply after _ gathers changed there =>
    have answer : (e.run w.frame (w.frame i)).1 = .ok reply := congrArg Prod.fst changed
    have stored : w.store i (e.run w.frame (w.frame i)).2 = after := congrArg Prod.snd changed
    have new := Frame.Edit.fresh_of_gathers gathers answer
    rw [← stored, Workspace.store] at there
    split at there
    · next old found =>
      obtain ⟨inside, -⟩ := List.getElem?_eq_some_iff.1 found
      dsimp only at there
      rw [frames_settle, List.getElem?_set_self inside] at there
      cases there
      exact apart_settle recorded.account _ new
    · next beyond =>
      rw [there] at beyond
      cases beyond

end Replication

/-- Whatever is done to any number of frames, refused or not, all frames show at all times what they would show
if every command copied the columns it takes. A command changes nothing but the frame it is about, and in
this frame nothing but the column, if it is about one column. What is gathered row by row shares no block. -/
theorem frames_isolated {commands : List Command} (admitted : empty.AdmitsAll commands) :
    (history commands).map shown = (commands.scanl Replica.step .empty).map Replica.shown ∧
    ∀ w ∈ history commands,
      (∀ c, w.Admits c → c.Confined w.shown (w.step c).shown) ∧ ∀ h, w.Gathered h → w.Apart h := by
  have first : empty.Recorded fun _ => [] := recorded_empty _
  obtain ⟨record, -, always⟩ := first.history admitted
  have copied : (history commands).map replica = commands.scanl Replica.step .empty :=
    history_replica first admitted
  refine ⟨?_, fun w mem => ⟨fun c admits => ?_, fun h gathered => gathered.apart (always w mem)⟩⟩
  · rw [← copied, List.map_map]
    exact List.map_congr_left fun w _ => w.shown_replica.symm
  · have alone := confined_step w.replica c
    rwa [← replica_step (always w mem) admits, shown_replica, shown_replica] at alone

private def selecting : List Command :=
  [.build (.ofColumns [.ofList .text "guest" ["ann", "bob"]]), .build (.select 0 [0, 0]),
    .edit 1 (.set 0 1 (.utf8 "cy")), .edit 1 (.set 7 0 (.utf8 "dee"))]

theorem frames_isolated_selection :
    let w := selecting.foldl step empty
    let guests (names : List String) : Contents := ⟨"guest", .text, names⟩
    empty.AdmitsAll selecting ∧
      (history selecting).map (fun w => w.frames.map Holding.blocks) =
        [[], [[0]], [[0], [0, 0]], [[0], [0, 1]], [[0], [0, 1]]] ∧
      (selecting.foldl Replica.step .empty).shown =
        [[guests ["ann", "bob"]], [guests ["ann", "bob"], guests ["cy", "bob"]]] ∧
      (history selecting).map shown = (selecting.scanl Replica.step .empty).map Replica.shown ∧
      ∃ taken, taken.blocks = [2, 3] ∧ w.Apart taken := by
  have admitted : empty.AdmitsAll selecting := by
    refine ⟨fun b mem => ?_, nofun, nofun, nofun, trivial⟩
    obtain rfl := List.mem_singleton.1 mem
    exact Column.faithful_of_fresh rfl
  obtain ⟨copied, always⟩ := frames_isolated admitted
  have gathered : (selecting.foldl step empty).Gathered ⟨[⟨"guest", 2⟩, ⟨"guest", 3⟩], 5⟩ :=
    .build (b := .takeRows 1 [1, 0]) trivial rfl rfl
  have last : selecting.foldl step empty ∈ history selecting := List.mem_of_getElem? (i := 4) rfl
  exact ⟨admitted, rfl, rfl, copied, _, rfl, (always _ last).2 _ gathered⟩

end Workspace

end Tabular
