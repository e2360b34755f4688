import Tabular.Error

/-! Growable arrays of elements. The capacity is the size of the block a buffer has asked for: zero,
or the least power of two that was large enough when the block last grew. Insertion appends at the
end, growing as needed, and then rotates the tail into place. -/

namespace Tabular

structure Buffer (α : Type) where
  items : List α
  capacity : Nat
  deriving DecidableEq, Repr, Inhabited

namespace Buffer

variable {α : Type}

def firstCapacity : Nat := 32

/-- The greatest size a machine word can state. -/
def wordLimit : Nat := UInt64.size - 1

/-- The least power of two that is not below `n`. -/
def powerAbove (n : Nat) : Nat := if n ≤ 1 then 1 else 1 <<< ((n - 1).log2 + 1)

def blockSize (n : Nat) : Nat := min wordLimit (powerAbove n)

def empty : Buffer α := ⟨[], 0⟩

def capacityFor (n : Nat) : Nat := if n = 0 then 0 else blockSize n

def withCapacity (n : Nat) : Buffer α := ⟨[], capacityFor n⟩

def ofList (items : List α) : Buffer α := ⟨items, capacityFor items.length⟩

def length (b : Buffer α) : Nat := b.items.length

def isEmpty (b : Buffer α) : Bool := b.items.isEmpty

def get (b : Buffer α) (i : Nat) : Except Error α :=
  match b.items[i]? with
  | some x => .ok x
  | none => .error (.indexOutOfRange i b.length)

def set (b : Buffer α) (i : Nat) (x : α) : Except Error (Buffer α) :=
  if i < b.length then .ok { b with items := b.items.set i x }
  else .error (.indexOutOfRange i b.length)

def reserve (b : Buffer α) (n : Nat) : Buffer α :=
  if n ≤ b.capacity then b
  else { b with capacity := blockSize (if b.capacity = 0 then max n firstCapacity else n) }

def push (b : Buffer α) (x : α) : Buffer α :=
  let b := b.reserve (b.length + 1)
  { b with items := b.items ++ [x] }

def pop (b : Buffer α) : Option α × Buffer α :=
  (b.items.getLast?, { b with items := b.items.dropLast })

def rotateTail (b : Buffer α) (pos count : Nat) : Buffer α :=
  { b with items := b.items.take pos ++ (b.items.drop pos).rotateRight count }

/-- Room for `hint` elements is made at once; further room as they arrive. -/
def append (b : Buffer α) (hint : Nat) (values : List α) : Buffer α :=
  values.foldl push (b.reserve (b.length + hint))

def collect (hint : Nat) (values : List α) : Buffer α := append empty hint values

def checkPosition (b : Buffer α) (pos : Nat) : Except Error Unit :=
  if pos ≤ b.length then .ok () else .error (.indexOutOfRange pos b.length)

def checkRange (b : Buffer α) (first last : Nat) : Except Error Unit :=
  if last < first then .error (.reversedRange first last)
  else if last ≤ b.length then .ok ()
  else .error (.indexOutOfRange last b.length)

/-- Insert elements before position `pos`; the result counts them. -/
def insert (b : Buffer α) (hint pos : Nat) (values : List α) : Except Error (Nat × Buffer α) := do
  b.checkPosition pos
  let grown := b.append hint values
  let count := grown.length - b.length
  return (count, grown.rotateTail pos count)

/-- Insert a copy of the elements from `first` up to `last` before position `pos`. They are read
before anything moves. -/
def insertWithin (b : Buffer α) (pos first last : Nat) : Except Error (Nat × Buffer α) := do
  b.checkPosition pos
  b.checkRange first last
  let count := last - first
  let roomy := b.reserve (b.length + count)
  let grown := { roomy with items := roomy.items ++ (roomy.items.drop first).take count }
  return (count, grown.rotateTail pos count)

def erase (b : Buffer α) (first last : Nat) : Except Error (Nat × Buffer α) := do
  b.checkRange first last
  return (last - first, { b with items := b.items.take first ++ b.items.drop last })

/-- Shorten to `n` elements, or grow to `n` with copies of the default, which is asked for only
then. -/
def resize (b : Buffer α) (default : Except Error α) (n : Nat) : Except Error (Buffer α) :=
  if n ≤ b.length then .ok { b with items := b.items.take n }
  else do
    let fill ← default
    let roomy := b.reserve n
    return { roomy with items := roomy.items ++ List.replicate (n - b.length) fill }

def resizeWith (b : Buffer α) (n : Nat) (fill : Nat → α) : Buffer α :=
  if n < b.length then { b with items := b.items.take n }
  else
    let roomy := b.reserve n
    { roomy with items := roomy.items ++ (List.range (n - b.length)).map fill }

def map {β : Type} (b : Buffer α) (f : α → β) : Buffer β := ofList (b.items.map f)

@[simp] theorem length_reserve (b : Buffer α) (n : Nat) : (b.reserve n).length = b.length := by
  unfold reserve length
  split <;> rfl

@[simp] theorem items_reserve (b : Buffer α) (n : Nat) : (b.reserve n).items = b.items := by
  unfold reserve
  split <;> rfl

@[simp] theorem items_push (b : Buffer α) (x : α) : (b.push x).items = b.items ++ [x] := by
  simp [push]

end Buffer

end Tabular
