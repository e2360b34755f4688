import Tabular.Frame.Build
import Tabular.Frame.Edit
import Tabular.Series.Session

/-! Frames at rest. Their columns own blocks of one heap, each block having as many owners as there
are columns that hold its elements, and every frame has a stamp. Frames with the same stamp have
the same columns. -/

namespace Tabular

structure Elements where
  type : CellType
  buffer : Buffer (Cell type)

def Column.elements (c : Column) : Elements := ⟨c.type, c.buffer⟩

structure Holding where
  columns : List Handle
  stamp : Nat
  deriving DecidableEq, Repr

structure Workspace where
  heap : Heap Elements
  frames : List Holding
  indices : List GroupIndex
  /-- Stamps below this one have been issued. -/
  nextStamp : Nat

namespace Workspace

def empty : Workspace := ⟨.empty, [], [], 1⟩

def column? (w : Workspace) (h : Handle) : Option Column :=
  (w.heap.content? h.block).map fun e => ⟨e.type, ⟨h.name, e.buffer, .block h.block⟩⟩

def load (w : Workspace) (h : Holding) : Frame := ⟨h.columns.filterMap w.column?, some h.stamp⟩

def frame? (w : Workspace) (i : Nat) : Option Frame := (w.frames[i]?).map w.load

/-- A number without a frame stands for one without columns. -/
def frame (w : Workspace) (i : Nat) : Frame := (w.frame? i).getD .empty

/-- Lay a frame to rest in exchange for blocks it lets go of, and issue a stamp if it changed. -/
def settle (w : Workspace) (letGo : List Nat) (f : Frame) : Holding × Workspace :=
  let (blocks, heap) := w.heap.exchange letGo (f.columns.map fun c => (c.storage, c.elements))
  let columns := List.zipWith (fun (c : Column) block => ⟨c.name, block⟩) f.columns blocks
  match f.stamp? with
  | some stamp => (⟨columns, stamp⟩, { w with heap })
  | none => (⟨columns, w.nextStamp⟩, { w with heap, nextStamp := w.nextStamp + 1 })

def add (w : Workspace) (f : Frame) : Workspace :=
  let (holding, after) := w.settle [] f
  { after with frames := after.frames ++ [holding] }

def store (w : Workspace) (i : Nat) (f : Frame) : Workspace :=
  match w.frames[i]? with
  | some old =>
    let (holding, after) := w.settle (old.columns.map Handle.block) f
    { after with frames := after.frames.set i holding }
  | none => w

/-- Let go of a frame. The frames after it move up by one. -/
def drop (w : Workspace) (i : Nat) : Workspace :=
  match w.frames[i]? with
  | some old =>
    { w with heap := w.heap.releaseAll (old.columns.map Handle.block), frames := w.frames.eraseIdx i }
  | none => w

inductive Command
  | edit (frame : Nat) (e : Frame.Edit)
  | build (b : Frame.Build)
  | drop (frame : Nat)
  /-- Index a frame by some columns. -/
  | index (frame : Nat) (keys : List Nat)

/-- Change one frame. A change that is refused may still have cost the frame its share in a block. -/
def edit (w : Workspace) (i : Nat) (e : Frame.Edit) : Outcome Workspace Frame.Reply :=
  let (answer, f) := e.run w.frame (w.frame i)
  (answer, w.store i f)

/-- Make a new frame, of which the number is returned. -/
def build (w : Workspace) (b : Frame.Build) : Outcome Workspace Nat :=
  match b.run w.frame (fun i => w.indices[i]?) with
  | .ok f => (.ok w.frames.length, w.add f)
  | .error e => (.error e, w)

def addIndex (w : Workspace) (i : Nat) (keys : List Nat) : Outcome Workspace GroupIndex :=
  match GroupIndex.build (w.frame i) keys with
  | .ok g => (.ok g, { w with indices := w.indices ++ [g] })
  | .error e => (.error e, w)

def step (w : Workspace) : Command → Workspace
  | .edit i e => (w.edit i e).2
  | .build b => (w.build b).2
  | .drop i => w.drop i
  | .index i keys => (w.addIndex i keys).2

end Workspace

end Tabular
