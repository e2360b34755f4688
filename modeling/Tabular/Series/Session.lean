import Tabular.Series.Basic

/-! Series of one element type that share their buffers until one of them is changed. Each slot of a
session owns one block of the heap, or one among several owners of it. -/

namespace Tabular

open Buffer (Edit Reply)

structure Handle where
  name : String
  block : Nat
  deriving DecidableEq, Repr

/-- The slots keep their numbers; a slot whose series was dropped is empty. -/
structure Session (t : CellType) where
  heap : Heap (Buffer (Cell t))
  slots : List (Option Handle)

namespace Session

variable {t : CellType}

def empty (t : CellType) : Session t := ⟨.empty, []⟩

def handle? (s : Session t) (i : Nat) : Option Handle := (s.slots[i]?).join

def series? (s : Session t) (i : Nat) : Option (Series t) := do
  let h ← s.handle? i
  return ⟨h.name, ← s.heap.content? h.block, .block h.block⟩

def owners (s : Session t) (i : Nat) : Nat :=
  match s.handle? i with
  | some h => s.heap.owners h.block
  | none => 0

def firstSharing? (s : Session t) (i : Nat) : Option Nat := do
  let h ← s.handle? i
  s.slots.findIdx? fun other => other.any (·.block == h.block)

def settle (s : Session t) (letGo : List Nat) (series : Series t) : Option Handle × Session t :=
  let (blocks, heap) := s.heap.exchange letGo [(series.storage, series.buffer)]
  ((blocks.head?).map (⟨series.name, ·⟩), { s with heap })

def add (s : Session t) (series : Series t) : Nat × Session t :=
  let (handle, s) := s.settle [] series
  (s.slots.length, { s with slots := s.slots ++ [handle] })

def store (s : Session t) (i : Nat) (series : Series t) : Session t :=
  if i < s.slots.length then
    let (handle, after) := s.settle ((s.handle? i).map Handle.block).toList series
    { after with slots := after.slots.set i handle }
  else s

inductive Command (t : CellType)
  | clone (slot : Nat)
  | drop (slot : Nat)
  | rename (slot : Nat) (name : String)
  | edit (slot : Nat) (e : Edit (Cell t))
  /-- Let a slot hold what another one holds. -/
  | assign (slot source : Nat)

/-- A copy shares the buffer of its source, and so does a slot that was assigned to. A command that
reads an empty slot does nothing. -/
def step (s : Session t) : Command t → Except Error (Reply (Cell t)) × Session t
  | .clone i =>
    match s.series? i with
    | some series => let (slot, s) := s.add series; (.ok (.count slot), s)
    | none => (.ok .done, s)
  | .drop i =>
    match s.handle? i with
    | some h => (.ok .done, { s with heap := s.heap.release h.block, slots := s.slots.set i none })
    | none => (.ok .done, s)
  | .rename i name =>
    match s.handle? i with
    | some h => (.ok .done, { s with slots := s.slots.set i (some { h with name }) })
    | none => (.ok .done, s)
  | .edit i e =>
    match s.series? i with
    | some series => let (reply, series) := series.edit e; (reply, s.store i series)
    | none => (.ok .done, s)
  | .assign i source =>
    match s.series? source with
    | some series => (.ok .done, s.store i series)
    | none => (.ok .done, s)

end Session

end Tabular
