/-! Blocks of memory with several owners. A value read from a block remembers the block it came
from; when it is written back unchanged it becomes one more owner, and when it was changed the
block is overwritten only if nobody else owns it. -/

namespace Tabular

/-- Where a value held by an operation lives. -/
inductive Storage
  /-- In a block, as it was read from there. -/
  | block (id : Nat)
  /-- It was read from a block and changed since. -/
  | edited (id : Nat)
  /-- In no block yet. -/
  | fresh
  deriving DecidableEq, Repr, Inhabited

/-- Where a value lives once it has been changed. -/
def Storage.claimed : Storage → Storage
  | block id => edited id
  | edited id => edited id
  | fresh => fresh

structure Block (β : Type) where
  content : β
  owners : Nat
  deriving Repr

/-- The blocks by number. A block without owners is never read again. -/
structure Heap (β : Type) where
  blocks : List (Block β)
  deriving Repr

namespace Heap

variable {β : Type}

def empty : Heap β := ⟨[]⟩

def content? (h : Heap β) (id : Nat) : Option β := h.blocks[id]?.map Block.content

def owners (h : Heap β) (id : Nat) : Nat := (h.blocks[id]?.map Block.owners).getD 0

def alloc (h : Heap β) (content : β) : Nat × Heap β :=
  (h.blocks.length, ⟨h.blocks ++ [⟨content, 1⟩]⟩)

def retain (h : Heap β) (id : Nat) : Heap β :=
  ⟨h.blocks.modify id fun b => { b with owners := b.owners + 1 }⟩

def release (h : Heap β) (id : Nat) : Heap β :=
  ⟨h.blocks.modify id fun b => { b with owners := b.owners - 1 }⟩

def overwrite (h : Heap β) (id : Nat) (content : β) : Heap β :=
  ⟨h.blocks.modify id fun b => { b with content }⟩

def releaseAll (h : Heap β) (ids : List Nat) : Heap β := ids.foldl release h

/-- Every value that still lives in a block becomes an owner of it. -/
def retainAll (h : Heap β) (values : List (Storage × β)) : Heap β :=
  values.foldl (fun h v => match v.1 with | .block id => h.retain id | _ => h) h

/-- A block for one value, of which the value is then an owner. A changed value takes over the block
it was read from if that block's only owner is among the owners about to let go. -/
def place (letGo : List Nat) (h : Heap β) (value : Storage × β) : Nat × Heap β :=
  match value.1 with
  | .block id => (id, h)
  | .edited id =>
    if letGo.contains id && h.owners id == 1 then (id, (h.overwrite id value.2).retain id)
    else h.alloc value.2
  | .fresh => h.alloc value.2

def placeAll (letGo : List Nat) (h : Heap β) : List (Storage × β) → List Nat × Heap β
  | [] => ([], h)
  | v :: vs =>
    let (id, h) := place letGo h v
    let (ids, h) := placeAll letGo h vs
    (id :: ids, h)

def exchange (h : Heap β) (letGo : List Nat) (values : List (Storage × β)) : List Nat × Heap β :=
  let (ids, h) := placeAll letGo (h.retainAll values) values
  (ids, h.releaseAll letGo)

end Heap

end Tabular
