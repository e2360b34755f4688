import Tabular.Proofs.Groups

/-! Buckets kept with a table of their slots. A key that was met has its slot in the table, so that the
bucket of a row is found without a search. The slots are where a search of the buckets ends, and they stay
there: a row added to a bucket leaves its key, and a new bucket is the last. So the table answers as the
search does. -/

namespace Tabular

/-- Buckets, and for each key that was met the slot of its bucket. -/
structure SlotTable where
  buckets : List Bucket
  slots : Std.HashMap (List Key) Nat

def Bucket.addRow (row : Nat) (b : Bucket) : Bucket := { b with rows := b.rows ++ [row] }

namespace SlotTable

def empty : SlotTable := ⟨[], ∅⟩

def insert (t : SlotTable) (key : List Scalar) (row : Nat) : SlotTable :=
  match t.slots[key.map Scalar.key]? with
  | some slot => { t with buckets := t.buckets.modify slot (Bucket.addRow row) }
  | none => ⟨t.buckets ++ [⟨key, [row]⟩], t.slots.insert (key.map Scalar.key) t.buckets.length⟩

def build (f : Frame) (keys : List Nat) : Except Error SlotTable := do
  if keys.isEmpty then throw .noKeys
  let rows ← f.size
  let columns ← keys.mapM f.column
  (List.range rows).foldlM (fun t row => do return t.insert (← columns.mapM (·.scalarAt row)) row) empty

def get? (t : SlotTable) (key : List Scalar) : Option Bucket :=
  t.slots[key.map Scalar.key]?.bind (t.buckets[·]?)

/-- A key is in the table just if it has a bucket, and with the slot of that bucket. -/
def Sound (t : SlotTable) : Prop := ∀ k : List Key, t.slots[k]? = t.buckets.findIdx? fun b => b.keys = k

theorem findIdx?_modify {α : Type} {p : α → Bool} {change : α → α} (same : ∀ x, p (change x) = p x)
    (xs : List α) (i : Nat) : (xs.modify i change).findIdx? p = xs.findIdx? p := by
  induction xs generalizing i with
  | nil => cases i <;> rfl
  | cons x xs ih => cases i <;> simp [List.findIdx?_cons, same, ih]

theorem findIdx?_bind {α : Type} (p : α → Bool) (xs : List α) :
    (xs.findIdx? p).bind (xs[·]?) = xs.find? p := by
  induction xs with
  | nil => rfl
  | cons x xs ih =>
    rw [List.findIdx?_cons, List.find?_cons]
    cases p x with
    | true => rfl
    | false => exact (Option.bind_map ..).trans ih

theorem insertRow_eq (key : List Scalar) (row : Nat) (buckets : List Bucket) :
    GroupIndex.insertRow key row buckets =
      match buckets.findIdx? fun b => b.keys = key.map Scalar.key with
      | some slot => buckets.modify slot (Bucket.addRow row)
      | none => buckets ++ [⟨key, [row]⟩] := by
  induction buckets with
  | nil => rfl
  | cons b bs ih =>
    rw [GroupIndex.insertRow, List.findIdx?_cons]
    by_cases same : b.keys = key.map Scalar.key
    · simp [same, Bucket.addRow]
    · rw [if_neg same, ih]
      cases bs.findIdx? fun b => b.keys = key.map Scalar.key <;> simp [same]

section Steps

variable {t : SlotTable}

theorem buckets_insert (sound : t.Sound) (key : List Scalar) (row : Nat) :
    (t.insert key row).buckets = GroupIndex.insertRow key row t.buckets := by
  rw [insert, insertRow_eq, ← sound]
  cases t.slots[key.map Scalar.key]? <;> rfl

theorem Sound.insert (sound : t.Sound) (key : List Scalar) (row : Nat) : (t.insert key row).Sound := by
  intro k
  rw [SlotTable.insert]
  cases met : t.slots[key.map Scalar.key]? with
  | some slot =>
    have kept (b : Bucket) : decide ((b.addRow row).keys = k) = decide (b.keys = k) := rfl
    exact (sound k).trans (findIdx?_modify kept t.buckets slot).symm
  | none =>
    have new := (sound _).symm.trans met
    simp only [Std.HashMap.getElem?_insert, List.findIdx?_append, sound k]
    by_cases same : key.map Scalar.key = k
    · subst same
      have here : (⟨key, [row]⟩ : Bucket).keys = key.map Scalar.key := rfl
      simp [new, here]
    · have other : (⟨key, [row]⟩ : Bucket).keys ≠ k := same
      simp [same, other]

theorem foldl_insert (sound : t.Sound) (rows : List (List Scalar × Nat)) :
    (rows.foldl (fun t r => t.insert r.1 r.2) t).buckets =
      rows.foldl (fun buckets r => GroupIndex.insertRow r.1 r.2 buckets) t.buckets ∧
    (rows.foldl (fun t r => t.insert r.1 r.2) t).Sound := by
  induction rows generalizing t with
  | nil => exact ⟨rfl, sound⟩
  | cons r rows ih =>
    have next := ih (sound.insert r.1 r.2)
    rw [buckets_insert sound] at next
    exact next

theorem get?_eq (sound : t.Sound) (key : List Scalar) :
    t.get? key = t.buckets.find? fun b => b.keys = key.map Scalar.key := by
  rw [get?, sound, findIdx?_bind]

end Steps

theorem sound_empty : empty.Sound := fun _ => Std.HashMap.getElem?_empty

/-- A table of slots is built just if an index is, and has its buckets and its answers. -/
theorem build_refines (f : Frame) (keys : List Nat) :
    match GroupIndex.build f keys with
    | .ok index => ∃ t, build f keys = .ok t ∧ t.buckets = index.buckets ∧
        ∀ key, t.get? key = index.get? key
    | .error err => build f keys = .error err := by
  rw [GroupIndex.build, build]
  cases keys.isEmpty with
  | true => rfl
  | false =>
    cases f.size with
    | error err => rfl
    | ok rows =>
      cases keys.mapM f.column with
      | error err => rfl
      | ok columns =>
        simp only [Bool.false_eq_true, if_false, ok_bind, foldlM_eq_mapM]
        cases read : (List.range rows).mapM fun row => columns.mapM (·.scalarAt row) with
        | error err => rfl
        | ok cells =>
          obtain ⟨buckets, sound⟩ := foldl_insert sound_empty (cells.zip (List.range rows))
          refine ⟨_, rfl, buckets, fun key => ?_⟩
          rw [get?_eq sound, buckets]
          rfl

end SlotTable

end Tabular
