import Tabular.Buffer.Basic

/-! Changes of a buffer as values, so that a run of them can be spoken of. -/

namespace Tabular.Buffer

variable {α : Type}

inductive Edit (α : Type)
  | set (index : Nat) (value : α)
  /-- Overwrite the elements in place, by as many others. -/
  | write (change : List α → List α) (keeps : ∀ items, (change items).length = items.length)
  | reserve (n : Nat)
  | push (value : α)
  | pop
  | insert (hint pos : Nat) (values : List α)
  | insertWithin (pos first last : Nat)
  | erase (first last : Nat)
  | resize (n : Nat)
  /-- New places take `first` and then `rest`, again and again. -/
  | resizeWith (n : Nat) (first : α) (rest : List α)
  /-- Drop the elements and the block. -/
  | clear

def Edit.fill (value : α) : Edit α := .write (·.map fun _ => value) (by simp)

def Edit.reverse : Edit α := .write List.reverse (by simp)

inductive Reply (α : Type)
  | done
  | count (n : Nat)
  | popped (value? : Option α)
  deriving DecidableEq, Repr

/-- The elements of a nonempty list in turn, without end. -/
def cycle (first : α) (rest : List α) (i : Nat) : α :=
  ((first :: rest)[i % (rest.length + 1)]?).getD first

/-- A change that is refused leaves the buffer as it is. `default` is the element type's default. -/
def Edit.run (default : Except Error α) (b : Buffer α) :
    Edit α → Except Error (Reply α × Buffer α)
  | set i x => do return (.done, ← b.set i x)
  | write change _ => .ok (.done, { b with items := change b.items })
  | reserve n => .ok (.done, b.reserve n)
  | push x => .ok (.done, b.push x)
  | pop => let (x?, rest) := b.pop; .ok (.popped x?, rest)
  | insert hint pos values => do let (n, b) ← b.insert hint pos values; return (.count n, b)
  | insertWithin pos first last => do
    let (n, b) ← b.insertWithin pos first last; return (.count n, b)
  | erase first last => do let (n, b) ← b.erase first last; return (.count n, b)
  | resize n => do return (.done, ← b.resize default n)
  | resizeWith n first rest => .ok (.done, b.resizeWith n (cycle first rest))
  | clear => .ok (.done, Buffer.empty)

/-- Whether a change asks for the buffer's block to itself. It does so before it looks at its
arguments, save that a write beyond the end, a pop of nothing and room that is already there leave
the block alone; after `clear` there is no block to ask for. -/
def Edit.claims (b : Buffer α) : Edit α → Bool
  | set i _ => i < b.length
  | pop => !b.isEmpty
  | reserve n => b.capacity < n
  | clear => false
  | _ => true

end Tabular.Buffer
