import Mathlib.Data.Bool.Count
import Mathlib.Data.List.Zip
import Tabular.Proofs.Gather
import Tabular.Proofs.RowLists

/-! Rows kept in a new frame and rows kept in place. A mask says of every place whether it is kept. To
gather the kept places and to erase the runs between them, from the last run to the first, leaves the
same of every column, and so the same rows. -/

namespace Tabular

section Lists

variable {α : Type} {mask : List Bool} {xs : List α}

def kept (mask : List Bool) (xs : List α) : List α := ((xs.zip mask).filter Prod.snd).map Prod.fst

@[simp] theorem kept_nil (xs : List α) : kept [] xs = [] := by simp [kept]

@[simp] theorem kept_cons (b : Bool) (mask : List Bool) (x : α) (xs : List α) :
    kept (b :: mask) (x :: xs) = if b then x :: kept mask xs else kept mask xs := by
  cases b <;> simp [kept]

theorem kept_map {β : Type} (g : α → β) (mask : List Bool) (xs : List α) :
    kept mask (xs.map g) = (kept mask xs).map g := by
  simp only [kept, List.zip_map_left, List.filter_map, List.map_map]
  rfl

theorem kept_append {mask' : List Bool} {ys : List α} (counted : xs.length = mask.length) :
    kept (mask ++ mask') (xs ++ ys) = kept mask xs ++ kept mask' ys := by
  simp [kept, List.zip_append counted]

theorem kept_replicate_false (n : Nat) (xs : List α) : kept (List.replicate n false) xs = [] := by
  induction n generalizing xs with
  | zero => exact kept_nil xs
  | succ n ih =>
    cases xs with
    | nil => rfl
    | cons x xs => simpa [List.replicate_succ] using ih xs

theorem placewise_kept (mask : List Bool) :
    Placewise mask.length (mask.count true) fun xs => kept mask xs where
  zipWith g xs ys long long' := by
    induction mask generalizing xs ys with
    | nil => simp
    | cons b mask ih =>
      obtain ⟨x, xs, rfl⟩ := List.exists_cons_of_length_eq_add_one long
      obtain ⟨y, ys, rfl⟩ := List.exists_cons_of_length_eq_add_one long'
      have rest := ih xs ys (by simpa using long) (by simpa using long')
      cases b <;> simp [rest]
  replicate x := by
    induction mask with
    | nil => rfl
    | cons b mask ih => cases b <;> simp [List.replicate_succ, ih]

theorem length_kept (counted : xs.length = mask.length) : (kept mask xs).length = mask.count true := by
  induction mask generalizing xs with
  | nil => simp
  | cons b mask ih =>
    obtain ⟨x, xs, rfl⟩ := List.exists_cons_of_length_eq_add_one counted
    have rest : (kept mask xs).length = mask.count true := ih (by simpa using counted)
    cases b <;> simp [rest]

/-- What is left when all places before `last` that are not kept are gone. -/
def swept (mask : List Bool) (last : Nat) (xs : List α) : List α :=
  kept (mask.take last) (xs.take last) ++ xs.drop last

@[simp] theorem swept_zero (mask : List Bool) (xs : List α) : swept mask 0 xs = xs := by simp [swept]

theorem swept_length (counted : xs.length = mask.length) : swept mask mask.length xs = kept mask xs := by
  rw [swept, List.take_length, ← counted, List.take_length, List.drop_length, List.append_nil]

theorem swept_succ {n : Nat} (keeps : mask[n]? = some true) (inside : n < xs.length) :
    swept mask (n + 1) xs = swept mask n xs := by
  obtain ⟨within, value⟩ := List.getElem?_eq_some_iff.1 keeps
  have before : (xs.take n).length = (mask.take n).length := by
    simp only [List.length_take]
    omega
  rw [swept, swept, List.take_succ_eq_append_getElem within, List.take_succ_eq_append_getElem inside,
    kept_append before, List.drop_eq_getElem_cons inside, value]
  simp

theorem swept_erase {first last : Nat} (ordered : first ≤ last) (inside : last ≤ xs.length)
    (within : last ≤ mask.length)
    (goes : mask.take last = mask.take first ++ List.replicate (last - first) false) :
    swept mask first (xs.take first ++ xs.drop last) = swept mask last xs := by
  have before : (xs.take first).length = (mask.take first).length := by
    simp only [List.length_take]
    omega
  have split : xs.take last = xs.take first ++ (xs.take last).drop first := by
    conv_lhs => rw [← List.take_append_drop first (xs.take last), List.take_take, Nat.min_eq_left ordered]
  have length : (xs.take first).length = first := by
    rw [List.length_take]
    omega
  rw [swept, swept, goes, split, kept_append before, kept_replicate_false, List.append_nil,
    List.take_left' length, List.drop_left' length]

end Lists

namespace Frame

section Masks

variable {mask : List Bool}

theorem keptRows_eq (mask : List Bool) : keptRows mask = kept mask (List.range mask.length) := by
  rw [keptRows, kept, List.zipIdx_eq_zip_range', ← List.range_eq_range', ← List.zip_swap,
    List.filter_map, List.map_map]
  rfl

theorem map_getElem?_keptRows {α : Type} {xs : List α} (counted : xs.length = mask.length) :
    (keptRows mask).map (xs[·]?) = (kept mask xs).map some := by
  have places : (List.range xs.length).map (xs[·]?) = (Buffer.slice xs 0 xs.length).map some := by
    rw [List.range_eq_range']
    exact map_getElem?_range' (Nat.le_refl xs.length)
  have whole : Buffer.slice xs 0 xs.length = xs := by simp [Buffer.slice]
  rw [whole] at places
  rw [keptRows_eq, ← counted, ← kept_map, places, kept_map]

theorem take_runStart {n : Nat} (within : n ≤ mask.length) :
    mask.take n = mask.take (runStart mask n) ++ List.replicate (n - runStart mask n) false := by
  induction n with
  | zero => rfl
  | succ n ih =>
    have below := runStart_le mask n
    unfold runStart
    split
    · simp
    · next goes =>
      have inside : n < mask.length := within
      have value : mask[n] = false := by simpa [inside] using goes
      have longer : n + 1 - runStart mask n = n - runStart mask n + 1 := by omega
      rw [List.take_succ_eq_append_getElem inside, ih (by omega), value, longer, List.replicate_succ',
        List.append_assoc]

end Masks

end Frame

namespace Contents

def sweep (mask : List Bool) (last : Nat) (x : Contents) : Contents :=
  { x with cells := swept mask last x.cells }

theorem sweep_succ (x : Contents) {mask : List Bool} {n : Nat} (keeps : mask[n]? = some true)
    (inside : n < x.length) : x.sweep mask (n + 1) = x.sweep mask n :=
  congrArg (Contents.mk x.name x.type) (swept_succ keeps inside)

theorem sweep_erase (x : Contents) {mask : List Bool} {first last : Nat} (ordered : first ≤ last)
    (inside : last ≤ x.length) (within : last ≤ mask.length)
    (goes : mask.take last = mask.take first ++ List.replicate (last - first) false) :
    (x.erase first last).sweep mask first = x.sweep mask last :=
  congrArg (Contents.mk x.name x.type) (swept_erase ordered inside within goes)

def keep (mask : List Bool) (x : Contents) : Contents := { x with cells := kept mask x.cells }

theorem data_keep (mask : List Bool) (x : Contents) : (x.keep mask).data = kept mask x.data :=
  (kept_map (Datum.mk x.type) mask x.cells).symm

end Contents

namespace Frame

section Sweeps

variable {f : Frame} {n : Nat} {mask : List Bool}

/-- Runs erased from the last to the first leave what is kept. -/
theorem removeRuns_spec {last : Nat} (has : HasRows f.columns n) (inside : last ≤ n)
    (within : last ≤ mask.length) :
    ∃ after, f.removeRuns mask last = (.ok ((mask.take last).count false), after) ∧
      after.contents = f.contents.map (Contents.sweep mask last) := by
  induction last using Nat.strongRecOn generalizing f n with
  | _ last ih =>
    cases last with
    | zero =>
      refine ⟨f, by rw [removeRuns]; rfl, ?_⟩
      have same : Contents.sweep mask 0 = id := funext fun x => by simp [Contents.sweep]
      rw [same, List.map_id]
    | succ k =>
      rw [removeRuns]
      split
      · next keeps =>
        obtain ⟨after, ran, shown⟩ := ih k (Nat.lt_succ_self k) has (by omega) (by omega)
        obtain ⟨_, value⟩ := List.getElem?_eq_some_iff.1 keeps
        refine ⟨after, ?_, ?_⟩
        · rw [ran, List.take_succ_eq_append_getElem within, value]
          simp
        · rw [shown]
          refine List.map_congr_left fun x mem => (x.sweep_succ keeps ?_).symm
          rw [has.contents x mem]
          exact inside
      · next goes =>
        have below := runStart_le mask k
        have start : runStart mask (k + 1) = runStart mask k := by rw [runStart, if_neg goes]
        have run := take_runStart within
        rw [start] at run
        have ordered := Nat.le_succ_of_le below
        obtain ⟨g, erased, shown, left⟩ := eraseRows_spec has ordered inside
        obtain ⟨after, ran, shown'⟩ := ih (runStart mask k) (by omega) left (by omega) (by omega)
        simp only [erased, ran]
        refine ⟨after, ?_, ?_⟩
        · rw [run, List.count_append, List.count_replicate_self, Nat.add_comm]
          rfl
        · rw [shown', shown, List.map_map]
          refine List.map_congr_left fun x mem => x.sweep_erase ordered ?_ within run
          rw [has.contents x mem]
          exact inside

/-- `removeRuns` in no more than so many turns of its loop. -/
def removeRunsIn (mask : List Bool) : Nat → Frame → Nat → Option (Outcome Frame Nat)
  | _, f, 0 => some (.ok 0, f)
  | 0, _, _ + 1 => none
  | turns + 1, f, n + 1 =>
    if mask[n]? = some true then removeRunsIn mask turns f n
    else
      match f.eraseRows (runStart mask n) (n + 1) with
      | (.error e, f) => some (.error e, f)
      | (.ok count, f) =>
        (removeRunsIn mask turns f (runStart mask n)).map fun (answer, f) => (answer.map (count + ·), f)

theorem removeRunsIn_eq (f : Frame) (mask : List Bool) {turns last : Nat} (enough : last ≤ turns) :
    removeRunsIn mask turns f last = some (f.removeRuns mask last) := by
  induction turns generalizing f last with
  | zero =>
    rw [Nat.le_zero.1 enough, removeRuns]
    rfl
  | succ turns ih =>
    cases last with
    | zero =>
      rw [removeRuns]
      rfl
    | succ k =>
      have below := runStart_le mask k
      rw [removeRunsIn, removeRuns]
      split
      · exact ih f (by omega)
      · rcases erased : f.eraseRows (runStart mask k) (k + 1) with ⟨err | count, g⟩
        · simp only [erased]
        · have rest := ih g (show runStart mask k ≤ turns by omega)
          simp only [erased, rest, Option.map_some]

theorem takeRows_keptRows (has : HasRows f.columns n) (counted : mask.length = n) :
    ∃ made, f.takeRows (keptRows mask) = .ok made ∧ made.contents = f.contents.map (·.keep mask) ∧
      HasRows made.columns (mask.count true) := by
  have long (c : Column) (mem : c ∈ f.columns) : c.buffer.items.length = mask.length := by
    rw [counted]
    exact has.length c mem
  refine ⟨_, takeRows_of_forall has (fun c => kept mask c.buffer.items) fun c mem => ?_, ?_, ?_⟩
  · exact (map_getElem?_keptRows (long c mem)).symm
  · simp only [contents, List.map_map]
    rfl
  · refine has.map (fun c length => length_kept (length.trans counted.symm)) fun none => ?_
    rw [List.length_eq_zero_iff.1 (counted.trans none)]
    rfl

theorem rowList_of_keep {made : Frame} (has : HasRows f.columns n) (counted : mask.length = n)
    (shown : made.contents = f.contents.map (·.keep mask))
    (left : HasRows made.columns (mask.count true)) : made.rowList = kept mask f.rowList := by
  have data : made.contents.map Contents.data = (f.contents.map Contents.data).map (kept mask) := by
    rw [shown, List.map_map, List.map_map]
    exact List.map_congr_left fun x _ => x.data_keep mask
  subst counted
  rw [left.rowList, data, has.rowList]
  exact (placewise_kept mask).across has.data

end Sweeps

/-- A frame after the rows where a condition does not hold were removed in place, and the new frame of
those where it holds: they show the same, which is the rows of the old frame whose values count as true,
in their order. -/
structure Retains (f : Frame) (condition : Expr) (made after : Frame) (removed : Nat) : Prop where
  contents : after.contents = made.contents
  header : made.header = f.header
  rows : ∃ values, condition.apply f = .ok values ∧
    made.rowList = ((f.rowList.zip values).filter (·.2.truthy)).map Prod.fst
  counted : ∃ n m, f.size = .ok n ∧ made.size = .ok m ∧ n = m + removed

/-- To remove rows in place is refused just if it is refused to gather the others, for the same reason and
with nothing changed, and else comes to the same. No mask keeps the loop from ending: it turns no more
often than there are rows. -/
theorem retain_agrees_filter (f : Frame) (condition : Expr) :
    (match f.filter condition with
      | .error err => f.retain condition = (.error err, f)
      | .ok made => ∃ after removed, f.retain condition = (.ok removed, after) ∧
          f.Retains condition made after removed) ∧
    ∀ mask : List Bool, removeRunsIn mask mask.length f mask.length =
      some (f.removeRuns mask mask.length) := by
  refine ⟨?_, fun mask => removeRunsIn_eq f mask (Nat.le_refl _)⟩
  rw [filter, retain]
  cases masked : condition.mask f with
  | error err => rfl
  | ok mask =>
    have has := size_eq_ok_iff.1 (length_mask masked)
    obtain ⟨values, applied, same⟩ := bind_eq_ok_iff.1 masked
    cases same
    obtain ⟨made, taken, gathered, left⟩ := takeRows_keptRows has rfl
    obtain ⟨after, ran, erased⟩ := removeRuns_spec has (Nat.le_refl _) (Nat.le_refl _)
    rw [List.take_length] at ran
    simp only [ok_bind, taken]
    refine ⟨after, _, ran, ?_, ?_, ⟨values, applied, ?_⟩, _, _, size_eq_ok_iff.2 has,
      size_eq_ok_iff.2 left, (List.count_true_add_count_false _).symm⟩
    · rw [erased, gathered]
      refine List.map_congr_left fun x mem => ?_
      exact congrArg (Contents.mk x.name x.type) (swept_length (has.contents x mem))
    · rw [header, header, gathered, List.map_map]
      rfl
    · rw [rowList_of_keep has rfl gathered left, kept, List.zip_map_right, List.filter_map,
        List.map_map]
      rfl

end Frame

end Tabular
