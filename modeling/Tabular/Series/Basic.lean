import Tabular.Buffer.Edit
import Tabular.Cell.Basic
import Tabular.Heap

/-! Named columns of known element type. -/

namespace Tabular

open Buffer (Edit Reply)

/-- What a change answers, and the object it leaves, also when it is refused. -/
abbrev Outcome (σ α : Type) : Type := Except Error α × σ

def Outcome.result {σ α : Type} (o : Outcome σ α) : Except Error σ := o.1.map fun _ => o.2

structure Series (t : CellType) where
  name : String
  buffer : Buffer (Cell t)
  storage : Storage := .fresh

namespace Cell

def ofScalar (t : CellType) (s : Scalar) : Except Error (Cell t) :=
  match ofScalar? t s with
  | some c => .ok c
  | none => .error (.cannotHold t s.kind)

def toScalar (t : CellType) (c : Cell t) : Except Error Scalar :=
  match toScalar? t c with
  | some s => .ok s
  | none => .error (.noScalarForm t)

def default (t : CellType) : Except Error (Cell t) :=
  match default? t with
  | some c => .ok c
  | none => .error (.noDefault t)

end Cell

namespace Series

variable {t : CellType}

def ofList (name : String) (items : List (Cell t)) : Series t := ⟨name, .ofList items, .fresh⟩

def withCapacity (t : CellType) (name : String) (n : Nat) : Series t :=
  ⟨name, .withCapacity n, .fresh⟩

def ofScalars (t : CellType) (name : String) (values : List Scalar) : Except Error (Series t) := do
  return ofList name (← values.mapM (Cell.ofScalar t))

def length (s : Series t) : Nat := s.buffer.length

def get (s : Series t) (i : Nat) : Except Error (Cell t) := s.buffer.get i

def rename (s : Series t) (name : String) : Series t := { s with name }

/-- The storage of a series after a change. -/
def storageAfter (s : Series t) (e : Edit (Cell t)) : Storage :=
  match e with
  | .clear => .fresh
  | e => if e.claims s.buffer then s.storage.claimed else s.storage

/-- Change a series. The elements stay as they are if the change is refused, but by then the series
may have taken a block of its own. -/
def edit (s : Series t) (e : Edit (Cell t)) : Outcome (Series t) (Reply (Cell t)) :=
  match e.run (Cell.default t) s.buffer with
  | .ok (reply, buffer) => (.ok reply, { s with buffer, storage := s.storageAfter e })
  | .error err => (.error err, { s with storage := s.storageAfter e })

def equals (s u : Series t) : Bool :=
  s.name == u.name && s.length == u.length &&
    (s.buffer.items.zip u.buffer.items).all fun (a, b) => Cell.equals t a b

def allowMissing (s : Series t) : Series (.missing t) :=
  ofList (t := .missing t) s.name (s.buffer.items.map some)

/-- The elements present, and the default in place of the missing ones. -/
def disallowMissing (s : Series (.missing t)) : Except Error (Series t) := do
  let fill ← Cell.default t
  return ofList s.name (s.buffer.items.map fun (c : Option (Cell t)) => c.getD fill)

def render (s : Series t) : List String := s.buffer.items.map (Cell.render t)

/-- The first of the smallest elements and the first of the greatest; an element without a place in
the order replaces nothing. -/
def minmax (s : Series t) : Except Error (Cell t × Cell t) :=
  match s.buffer.items with
  | [] =>
    match Cell.default? t with
    | some c => .ok (c, c)
    | none => .error (.noExtremes t)
  | first :: rest =>
    .ok (rest.foldl (fun (low, high) c =>
      (if Cell.compare? t c low == some .lt then c else low,
       if Cell.compare? t c high == some .gt then c else high)) (first, first))

end Series

end Tabular
