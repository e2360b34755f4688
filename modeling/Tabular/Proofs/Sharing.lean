import Tabular.Proofs.Series
import Tabular.Series.Session

/-! Series that share buffers cannot be told from series that do not. The plain machine below copies
the elements whenever a series is cloned; a session answers every command as the plain machine does and
shows the same names, elements and capacities after it. Its owner counts are exact throughout, and a
change that asks for a buffer gets it to itself. -/

namespace Tabular

open Buffer (Edit Reply)

structure Copy (t : CellType) where
  name : String
  buffer : Buffer (Cell t)

structure Copies (t : CellType) where
  slots : List (Option (Copy t))

def answers {σ κ ρ : Type} (step : σ → κ → ρ × σ) : σ → List κ → List (ρ × σ)
  | _, [] => []
  | s, c :: cs => step s c :: answers step (step s c).2 cs

variable {t : CellType}

namespace Copy

def edit (c : Copy t) (e : Edit (Cell t)) : Outcome (Copy t) (Reply (Cell t)) :=
  match e.run (Cell.default t) c.buffer with
  | .ok (reply, buffer) => (.ok reply, { c with buffer })
  | .error err => (.error err, c)

end Copy

namespace Copies

def copy? (s : Copies t) (i : Nat) : Option (Copy t) := (s.slots[i]?).join

def put (s : Copies t) (i : Nat) (c? : Option (Copy t)) : Copies t := ⟨s.slots.set i c?⟩

/-- The commands of a session, where a clone is a deep copy and so is what is assigned. -/
def step (s : Copies t) : Session.Command t → Except Error (Reply (Cell t)) × Copies t
  | .clone i =>
    match s.copy? i with
    | some c => (.ok (.count s.slots.length), ⟨s.slots ++ [some c]⟩)
    | none => (.ok .done, s)
  | .drop i => (.ok .done, s.put i none)
  | .rename i name =>
    match s.copy? i with
    | some c => (.ok .done, s.put i (some { c with name }))
    | none => (.ok .done, s)
  | .edit i e =>
    match s.copy? i with
    | some c => let (reply, c) := c.edit e; (reply, s.put i (some c))
    | none => (.ok .done, s)
  | .assign i source =>
    match s.copy? source with
    | some c => (.ok .done, s.put i (some c))
    | none => (.ok .done, s)

end Copies

namespace Session

def blocksOf (slots : List (Option Handle)) : List Nat := slots.filterMap (·.map Handle.block)

/-- The owners of every block are the slots that name it. -/
def Sound (s : Session t) : Prop := s.heap.Accounted (blocksOf s.slots)

def copyOf? (heap : Heap (Buffer (Cell t))) (h : Handle) : Option (Copy t) :=
  (heap.content? h.block).map (⟨h.name, ·⟩)

/-- What the slots show of their series. -/
def copies (s : Session t) : Copies t := ⟨s.slots.map (·.bind (copyOf? s.heap))⟩

def copyOfSeries (u : Series t) : Copy t := ⟨u.name, u.buffer⟩

theorem series?_eq (s : Session t) (i : Nat) :
    s.series? i = (s.handle? i).bind fun h =>
      (s.heap.content? h.block).map fun buffer => ⟨h.name, buffer, .block h.block⟩ := by
  rw [series?]
  cases s.handle? i with
  | none => rfl
  | some h => cases found : s.heap.content? h.block <;> simp [found]

theorem copy?_copies (s : Session t) (i : Nat) :
    s.copies.copy? i = (s.series? i).map copyOfSeries := by
  rw [series?_eq]
  simp only [Copies.copy?, copies, handle?, List.getElem?_map]
  cases s.slots[i]? with
  | none => rfl
  | some h? =>
    cases h? with
    | none => rfl
    | some h => simp [copyOf?, copyOfSeries, Function.comp_def]

theorem count_blocksOf_set {slots : List (Option Handle)} {i : Nat} (h : i < slots.length)
    (handle? : Option Handle) (j : Nat) :
    (blocksOf (slots.set i handle?)).count j =
      ((handle?.map Handle.block).toList ++ blocksOf (slots.set i none)).count j := by
  induction slots generalizing i with
  | nil => simp at h
  | cons slot slots ih =>
    cases i with
    | zero => cases handle? <;> simp [blocksOf]
    | succ i =>
      have rest := ih (by simpa using h)
      cases slot <;> simp [blocksOf, List.count_cons] at rest ⊢ <;> omega

theorem Sound.accounted_apart {s : Session t} (sound : s.Sound) {i : Nat} (h : i < s.slots.length) :
    s.heap.Accounted
      (((s.handle? i).map Handle.block).toList ++ blocksOf (s.slots.set i none)) := by
  refine Heap.Accounted.of_count_eq sound fun j => ?_
  have same : s.slots.set i (s.handle? i) = s.slots := by
    rw [handle?, List.getElem?_eq_getElem h]
    simp
  rw [← count_blocksOf_set h, same]

theorem map_copyOf?_congr {slots : List (Option Handle)} {h k : Heap (Buffer (Cell t))}
    (same : ∀ j ∈ blocksOf slots, k.content? j = h.content? j) :
    slots.map (·.bind (copyOf? k)) = slots.map (·.bind (copyOf? h)) := by
  refine List.map_congr_left fun slot mem => ?_
  cases slot with
  | none => rfl
  | some handle =>
    simp only [Option.bind_some, copyOf?]
    rw [same handle.block (List.mem_filterMap.2 ⟨some handle, mem, rfl⟩)]

/-- A series that is laid to rest in exchange for some handles, next to other handles. -/
theorem settle_spec {s : Session t} (letGo : List Nat) {others : List Nat} {u : Series t}
    (a : s.heap.Accounted (letGo ++ others)) (faithful : s.heap.Faithful (u.storage, u.buffer)) :
    ∃ id after, s.settle letGo u = (some ⟨u.name, id⟩, { s with heap := after }) ∧
      after.Accounted (id :: others) ∧ after.content? id = some u.buffer ∧
      (∀ j ∈ others, after.content? j = s.heap.content? j) ∧
      (u.storage.home? = none → after.owners id = 1) := by
  obtain ⟨account, holds, keeps⟩ := Heap.exchange_spec [(u.storage, u.buffer)] a (by
    simpa using faithful)
  obtain ⟨id, ids, held, nothing, alone⟩ := List.forall₂_cons_right_iff.1 holds
  cases nothing
  rw [alone] at account
  have settled : s.settle letGo u =
      ((s.heap.exchange letGo [(u.storage, u.buffer)]).1.head?.map (⟨u.name, ·⟩),
        { s with heap := (s.heap.exchange letGo [(u.storage, u.buffer)]).2 }) := rfl
  refine ⟨id, _, by rw [settled, alone]; rfl, account, held, keeps, fun away => ?_⟩
  obtain ⟨id', alone', sole⟩ := Heap.owners_exchange_new (u.storage, u.buffer) a away
  obtain rfl : id = id' := by simpa using alone.symm.trans alone'
  exact sole

theorem store_spec {s : Session t} (sound : s.Sound) {i : Nat} (h : i < s.slots.length)
    {u : Series t} (faithful : s.heap.Faithful (u.storage, u.buffer)) :
    (s.store i u).Sound ∧ (s.store i u).copies = s.copies.put i (some (copyOfSeries u)) ∧
      (u.storage.home? = none → (s.store i u).owners i = 1) := by
  obtain ⟨id, after, settled, account, held, keeps, alone⟩ :=
    settle_spec _ (sound.accounted_apart h) faithful
  have stored : s.store i u = ⟨after, s.slots.set i (some ⟨u.name, id⟩)⟩ := by
    rw [store, if_pos h, settled]
  have resting : (s.store i u).handle? i = some ⟨u.name, id⟩ := by
    rw [stored, handle?, List.getElem?_set_self h]
    rfl
  refine ⟨?_, ?_, fun away => ?_⟩
  · rw [Sound, stored]
    exact account.of_count_eq fun j => (count_blocksOf_set h (some ⟨u.name, id⟩) j).symm
  · have split : s.slots.set i (some ⟨u.name, id⟩) =
        (s.slots.set i none).set i (some ⟨u.name, id⟩) := (List.set_set _).symm
    simp only [stored, copies, Copies.put, Copies.mk.injEq]
    rw [split, List.map_set, map_copyOf?_congr keeps, List.map_set, List.set_set]
    simp [copyOf?, held, copyOfSeries]
  · rw [owners, resting]
    simpa [stored] using alone away

theorem add_spec {s : Session t} (sound : s.Sound) {u : Series t}
    (faithful : s.heap.Faithful (u.storage, u.buffer)) :
    (s.add u).1 = s.slots.length ∧ (s.add u).2.Sound ∧
      (s.add u).2.copies = ⟨s.copies.slots ++ [some (copyOfSeries u)]⟩ := by
  obtain ⟨id, after, settled, account, held, keeps, -⟩ :=
    settle_spec [] sound faithful
  have added : s.add u = (s.slots.length, ⟨after, s.slots ++ [some ⟨u.name, id⟩]⟩) := by
    rw [add, settled]
  refine ⟨by rw [added], ?_, ?_⟩
  · rw [Sound, added]
    refine account.of_count_eq fun j => ?_
    simp only [blocksOf, List.filterMap_append, List.count_append, List.count_cons]
    simp [List.count_singleton]
  · simp only [added, copies, List.map_append, map_copyOf?_congr keeps]
    simp [copyOf?, held, copyOfSeries]

theorem drop_spec {s : Session t} (sound : s.Sound) {i : Nat} {h : Handle}
    (found : s.handle? i = some h) :
    (s.step (.drop i)).2.Sound ∧ (s.step (.drop i)).2.copies = s.copies.put i none := by
  have inside : i < s.slots.length := by
    by_contra beyond
    rw [handle?, List.getElem?_eq_none (Nat.not_lt.1 beyond)] at found
    cases found
  have account := sound.accounted_apart inside
  rw [found] at account
  simp only [step, found, Sound, copies, Copies.put]
  refine ⟨account.release, ?_⟩
  rw [map_copyOf?_congr fun j _ => Heap.content?_release s.heap h.block j, List.map_set]
  rfl

theorem faithful_series {s : Session t} {i : Nat} {u : Series t} (found : s.series? i = some u) :
    s.heap.Faithful (u.storage, u.buffer) := by
  rw [series?_eq, Option.bind_eq_some_iff] at found
  obtain ⟨h, -, found⟩ := found
  obtain ⟨buffer, held, rfl⟩ := Option.map_eq_some_iff.1 found
  intro id home
  cases home
  exact held

theorem faithful_edit {heap : Heap (Buffer (Cell t))} {u : Series t} {e : Edit (Cell t)}
    (faithful : heap.Faithful (u.storage, u.buffer)) :
    heap.Faithful ((u.edit e).2.storage, (u.edit e).2.buffer) := by
  intro id home
  obtain ⟨before, same⟩ := Series.edit_of_home home
  rw [same]
  exact faithful id before

theorem handle?_of_series? {s : Session t} {i : Nat} {u : Series t} (found : s.series? i = some u) :
    i < s.slots.length := by
  by_contra beyond
  rw [series?_eq, handle?, List.getElem?_eq_none (Nat.not_lt.1 beyond)] at found
  cases found

theorem series?_of_handle? {s : Session t} (sound : s.Sound) {i : Nat} {h : Handle}
    (found : s.handle? i = some h) :
    ∃ buffer, s.series? i = some ⟨h.name, buffer, .block h.block⟩ := by
  have named : h.block ∈ blocksOf s.slots := by
    refine List.mem_filterMap.2 ⟨some h, ?_, rfl⟩
    rw [handle?, Option.join_eq_some_iff] at found
    exact List.mem_of_getElem? found
  obtain ⟨buffer, held⟩ := Option.isSome_iff_exists.1 (sound.held named)
  exact ⟨buffer, by rw [series?_eq, found, Option.bind_some, held, Option.map_some]⟩

theorem put_none_of_empty {s : Copies t} {i : Nat} (empty : s.copy? i = none) : s.put i none = s := by
  rw [Copies.put, Copies.mk.injEq]
  by_cases h : i < s.slots.length
  · rw [Copies.copy?, List.getElem?_eq_getElem h, Option.join_some] at empty
    rw [← empty, List.set_getElem_self]
  · exact List.set_eq_of_length_le (Nat.not_lt.1 h)

theorem edit_copyOfSeries (u : Series t) (e : Edit (Cell t)) :
    (copyOfSeries u).edit e = ((u.edit e).1, copyOfSeries (u.edit e).2) := by
  simp only [Copy.edit, Series.edit, copyOfSeries]
  cases e.run (Cell.default t) u.buffer <;> rfl

theorem rename_spec {s : Session t} (sound : s.Sound) {i : Nat} {h : Handle} {name : String}
    (found : s.handle? i = some h) :
    (s.step (.rename i name)).2.Sound ∧
      s.copies.step (.rename i name) =
        ((s.step (.rename i name)).1, (s.step (.rename i name)).2.copies) := by
  obtain ⟨buffer, seen⟩ := series?_of_handle? sound found
  have inside := handle?_of_series? seen
  have account := sound.accounted_apart inside
  rw [found] at account
  simp only [step, found, Copies.step, copy?_copies, seen, Option.map_some]
  refine ⟨account.of_count_eq fun j => (count_blocksOf_set inside (some { h with name }) j).symm, ?_⟩
  rw [series?_eq, found, Option.bind_some, Option.map_eq_some_iff] at seen
  obtain ⟨content, held, same⟩ := seen
  obtain rfl : content = buffer := by simpa using same
  simp [Copies.put, copies, List.map_set, copyOf?, held, copyOfSeries]

/-- Step by step, a session answers as the plain machine does and shows what the plain machine
holds. -/
theorem step_spec {s : Session t} (sound : s.Sound) (c : Command t) :
    (s.step c).2.Sound ∧ s.copies.step c = ((s.step c).1, (s.step c).2.copies) := by
  cases c with
  | clone i =>
    simp only [Copies.step, copy?_copies, step]
    cases found : s.series? i with
    | none => exact ⟨sound, rfl⟩
    | some u =>
      obtain ⟨slot, sound', shown⟩ := add_spec sound (faithful_series found)
      refine ⟨sound', ?_⟩
      simp only [Option.map_some, shown, slot]
      simp [copies]
  | drop i =>
    cases found : s.handle? i with
    | none =>
      have empty : s.copies.copy? i = none := by rw [copy?_copies, series?_eq, found]; rfl
      simp only [step, found, Copies.step, put_none_of_empty empty]
      exact ⟨sound, trivial⟩
    | some h =>
      obtain ⟨sound', shown⟩ := drop_spec sound found
      refine ⟨sound', ?_⟩
      rw [shown]
      simp only [step, found, Copies.step]
  | rename i name =>
    cases found : s.handle? i with
    | none =>
      simp only [step, found, Copies.step, copy?_copies, series?_eq, Option.bind_none,
        Option.map_none]
      exact ⟨sound, trivial⟩
    | some h => exact rename_spec sound found
  | edit i e =>
    simp only [Copies.step, copy?_copies, step]
    cases found : s.series? i with
    | none => exact ⟨sound, rfl⟩
    | some u =>
      obtain ⟨sound', shown, -⟩ := store_spec sound (handle?_of_series? found)
        (faithful_edit (e := e) (faithful_series found))
      refine ⟨sound', ?_⟩
      simp only [Option.map_some, edit_copyOfSeries, shown]
  | assign i source =>
    simp only [Copies.step, copy?_copies, step]
    cases found : s.series? source with
    | none => exact ⟨sound, rfl⟩
    | some u =>
      by_cases inside : i < s.slots.length
      · obtain ⟨sound', shown, -⟩ := store_spec sound inside (faithful_series found)
        refine ⟨sound', ?_⟩
        simp only [Option.map_some, shown]
      · have stays : s.store i u = s := by rw [store, if_neg inside]
        have put : s.copies.put i (some (copyOfSeries u)) = s.copies := by
          rw [Copies.put, List.set_eq_of_length_le (by simpa [copies] using inside)]
        simp only [stays, Option.map_some, put]
        exact ⟨sound, trivial⟩

def start (initial : List (Copy t)) : Session t :=
  initial.foldl (fun s c => (s.add ⟨c.name, c.buffer, .fresh⟩).2) (empty t)

theorem start_spec (initial : List (Copy t)) :
    (start initial).Sound ∧ (start initial).copies = ⟨initial.map some⟩ := by
  suffices extend : ∀ s : Session t, s.Sound →
      (initial.foldl (fun s c => (s.add ⟨c.name, c.buffer, .fresh⟩).2) s).Sound ∧
      (initial.foldl (fun s c => (s.add ⟨c.name, c.buffer, .fresh⟩).2) s).copies =
        ⟨s.copies.slots ++ initial.map some⟩ by
    simpa [start, empty, copies] using extend (empty t) Heap.Accounted.empty
  induction initial with
  | nil =>
    intro s sound
    simpa using sound
  | cons c cs ih =>
    intro s sound
    obtain ⟨-, sound', shown⟩ := add_spec sound (u := ⟨c.name, c.buffer, .fresh⟩) nofun
    obtain ⟨sound'', shown'⟩ := ih _ sound'
    refine ⟨sound'', ?_⟩
    simp only [List.foldl_cons, shown', shown, copyOfSeries]
    simp

def states (s : Session t) (commands : List (Command t)) : List (Session t) :=
  s :: (answers step s commands).map Prod.snd

theorem run_spec {s : Session t} (sound : s.Sound) (commands : List (Command t)) :
    (∀ u ∈ s.states commands, u.Sound) ∧
      (answers step s commands).map (fun a => (a.1, a.2.copies)) =
        answers Copies.step s.copies commands := by
  induction commands generalizing s with
  | nil => simpa [states, answers] using sound
  | cons c cs ih =>
    obtain ⟨sound', agrees⟩ := step_spec sound c
    obtain ⟨later, agree⟩ := ih sound'
    refine ⟨fun u mem => ?_, by simp only [answers, List.map_cons, agree, agrees]⟩
    rcases List.mem_cons.1 mem with rfl | mem
    · exact sound
    · exact later u mem

theorem owners_eq_countP {s : Session t} (sound : s.Sound) {i : Nat} {h : Handle}
    (found : s.handle? i = some h) :
    s.owners i = s.slots.countP (·.any (·.block == h.block)) := by
  have counted : s.owners i = s.heap.owners h.block := by simp only [owners, found]
  rw [counted, sound h.block, blocksOf, List.count, List.countP_filterMap]
  congr 1
  funext slot
  cases slot <;> rfl

theorem owners_edit {s : Session t} (sound : s.Sound) {i : Nat} {u : Series t} {e : Edit (Cell t)}
    (found : s.series? i = some u) (busy : ¬ e.Idle u.buffer) :
    (s.step (.edit i e)).2.owners i = 1 := by
  have away : (u.edit e).2.storage.home? = none := by
    rw [Series.storage_edit, Series.home?_storageAfter_of_not_idle busy]
  obtain ⟨-, -, alone⟩ := store_spec sound (handle?_of_series? found)
    (faithful_edit (e := e) (faithful_series found))
  simpa only [step, found] using alone away

/-- Sharing cannot be seen: whatever series a session begins with and whatever is done to them, the
answers are those of the machine in which every clone is a deep copy, and after every command so are
the names, elements and capacities. In every state on the way a slot's owners are counted exactly, and
a change of a buffer, unless it is idle, leaves the slot as the buffer's only owner even if the change
is refused. -/
theorem sharing_invisible (initial : List (Copy t)) (commands : List (Command t)) :
    (start initial).copies = ⟨initial.map some⟩ ∧
    (answers step (start initial) commands).map (fun a => (a.1, a.2.copies)) =
      answers Copies.step ⟨initial.map some⟩ commands ∧
    ∀ s ∈ (start initial).states commands,
      (∀ i h, s.handle? i = some h → s.owners i = s.slots.countP (·.any (·.block == h.block))) ∧
      ∀ i u e, s.series? i = some u → ¬ e.Idle u.buffer → (s.step (.edit i e)).2.owners i = 1 := by
  obtain ⟨sound, shown⟩ := start_spec initial
  obtain ⟨always, agree⟩ := run_spec sound commands
  refine ⟨shown, shown ▸ agree, fun s mem => ⟨fun i h found => ?_, fun i u e found busy => ?_⟩⟩
  · exact owners_eq_countP (always s mem) found
  · exact owners_edit (always s mem) found busy

private def flags : List (Copy .bool) := [⟨"flag", .ofList [true, false]⟩]

private def flagRun : List (Command .bool) := [.clone 0, .edit 0 (.set 0 false), .rename 1 "kept"]

theorem sharing_invisible_flags :
    let cloned := ((start flags).step (.clone 0)).2
    (answers Copies.step ⟨flags.map some⟩ flagRun).map (fun a => a.2.slots.map (·.map (·.buffer.items)))
        = [[some [true, false], some [true, false]], [some [false, false], some [true, false]],
          [some [false, false], some [true, false]]] ∧
      (answers step (start flags) flagRun).map (fun a => (a.1, a.2.copies)) =
        answers Copies.step ⟨flags.map some⟩ flagRun ∧
      cloned.owners 0 = 2 ∧ (cloned.step (.edit 0 (.set 0 false))).2.owners 0 = 1 := by
  obtain ⟨-, agree, always⟩ := sharing_invisible flags flagRun
  obtain ⟨counted, sole⟩ := always ((start flags).step (.clone 0)).2
    (List.mem_cons_of_mem _ List.mem_cons_self)
  exact ⟨rfl, agree, counted 0 ⟨"flag", 0⟩ rfl, sole 0 ⟨"flag", .ofList [true, false], .block 0⟩ _ rfl
    (by decide)⟩

end Session

end Tabular
