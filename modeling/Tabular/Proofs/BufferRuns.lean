import Tabular.Proofs.Buffer
import Tabular.Proofs.Sharing

/-! Buffers refine lists. A change is carried out in steps on a block that stays as it is wherever the
steps stop: room is made, elements arrive one by one and may ask for more room, the tail is rotated. What
is left is what the same change of a plain list leaves, and a change that is refused has done nothing. -/

namespace Tabular.Buffer

variable {α : Type}

/-- Work on a buffer that may stop half way. What was done by then stays done. -/
abbrev Work (α β : Type) : Type := ExceptT Error (StateM (Buffer α)) β

namespace Work

variable {β γ : Type}

def demand (read : Buffer α → Except Error β) : Work α β := fun b => (read b, b)

def observe (f : Buffer α → β) : Work α β := fun b => (.ok (f b), b)

def change (f : Buffer α → Buffer α) : Work α Unit := fun b => (.ok (), f b)

def place (xs : List α) : Work α Unit := change fun b => { b with items := b.items ++ xs }

def takeIn : List α → Work α Unit
  | [] => return ()
  | x :: xs => do
    change fun b => b.reserve (b.length + 1)
    place [x]
    takeIn xs

def spliceIn (hint pos : Nat) (values : List α) : Work α Nat := do
  let before ← observe length
  change fun b => b.reserve (before + hint)
  takeIn values
  let after ← observe length
  change fun b => b.rotateTail pos (after - before)
  return after - before

def resizeWith (n : Nat) (fill : Nat → α) : Work α Unit := do
  let before ← observe length
  if n < before then
    change fun b => { b with items := b.items.take n }
  else
    change fun b => b.reserve n
    place ((List.range (n - before)).map fill)

@[simp] theorem pure_run (x : β) (b : Buffer α) : (pure x : Work α β) b = (.ok x, b) := rfl

@[simp] theorem observe_bind (f : Buffer α → β) (next : β → Work α γ) (b : Buffer α) :
    (observe f >>= next) b = next (f b) b := rfl

@[simp] theorem change_bind (f : Buffer α → Buffer α) (next : Unit → Work α γ) (b : Buffer α) :
    (change f >>= next) b = next () (f b) := rfl

theorem bind_of_ok {work : Work α β} {b after : Buffer α} {x : β} (ran : work b = (.ok x, after))
    (next : β → Work α γ) : (work >>= next) b = next x after := by
  show (ExceptT.bindCont next (work b).1) (work b).2 = next x after
  rw [ran]
  rfl

theorem demand_bind (read : Buffer α → Except Error β) (next : β → Work α γ) (b : Buffer α) :
    (demand read >>= next) b =
      match read b with
      | .ok x => next x b
      | .error err => (.error err, b) := by
  show (ExceptT.bindCont next (read b)) b = _
  cases read b <;> rfl

theorem takeIn_run (xs : List α) (b : Buffer α) : takeIn xs b = (.ok (), xs.foldl push b) := by
  induction xs generalizing b with
  | nil => rfl
  | cons x xs ih => simp only [takeIn, place, change_bind, ih, push, List.foldl_cons]

theorem length_append_sub (b : Buffer α) (hint : Nat) (values : List α) :
    (b.append hint values).length - b.length = values.length := by
  simp [length]

theorem spliceIn_run (hint pos : Nat) (values : List α) (b : Buffer α) :
    spliceIn hint pos values b =
      (.ok values.length, (b.append hint values).rotateTail pos values.length) := by
  have ran : takeIn values (b.reserve (b.length + hint)) = (.ok (), b.append hint values) :=
    takeIn_run values _
  simp only [spliceIn, observe_bind, change_bind, bind_of_ok ran, length_append_sub,
    pure_run]

theorem resizeWith_run (n : Nat) (fill : Nat → α) (b : Buffer α) :
    resizeWith n fill b = (.ok (), b.resizeWith n fill) := by
  rw [resizeWith, observe_bind, Buffer.resizeWith]
  split <;> rfl

end Work

open Work

def Edit.perform (default : Except Error α) : Edit α → Work α (Reply α)
  | set i x => do
    let _ ← demand (·.get i)
    change fun b => { b with items := b.items.set i x }
    return .done
  | write f _ => do
    change fun b => { b with items := f b.items }
    return .done
  | reserve n => do
    change (·.reserve n)
    return .done
  | push x => do
    let last ← observe length
    let _ ← spliceIn 1 last [x]
    return .done
  | pop => do
    let x? ← observe fun b => b.items.getLast?
    change fun b => { b with items := b.items.dropLast }
    return .popped x?
  | insert hint pos values => do
    demand (·.checkPosition pos)
    return .count (← spliceIn hint pos values)
  | insertWithin pos first last => do
    demand (·.checkPosition pos)
    demand (·.checkRange first last)
    change fun b => b.reserve (b.length + (last - first))
    change fun b => { b with items := b.items ++ slice b.items first last }
    change (·.rotateTail pos (last - first))
    return .count (last - first)
  | erase first last => do
    demand (·.checkRange first last)
    change fun b => { b with items := b.items.take first ++ b.items.drop last }
    return .count (last - first)
  | resize n => do
    let before ← observe length
    if n ≤ before then
      change fun b => { b with items := b.items.take n }
    else
      let fill ← demand fun _ => default
      change (·.reserve n)
      place (List.replicate (n - before) fill)
    return .done
  | resizeWith n first rest => do
    Work.resizeWith n (cycle first rest)
    return .done
  | clear => do
    change fun _ => empty
    return .done

theorem le_powerAbove (n : Nat) : n ≤ powerAbove n := by
  rw [powerAbove]
  split
  · assumption
  · have above := Nat.lt_log2_self (n := n - 1)
    rw [Nat.shiftLeft_eq]
    omega

theorem reserve_reserve (b : Buffer α) (n : Nat) : (b.reserve n).reserve n = b.reserve n := by
  by_cases roomy : n ≤ b.capacity
  · simp only [reserve, if_pos roomy]
  · obtain ⟨asked, more, made⟩ :
        ∃ asked, n ≤ asked ∧ b.reserve n = { b with capacity := blockSize asked } := by
      refine ⟨if b.capacity = 0 then max n firstCapacity else n, ?_, by rw [reserve, if_neg roomy]⟩
      split <;> omega
    have enough := le_powerAbove asked
    have enough' := le_powerAbove n
    rw [made, reserve]
    split
    · rfl
    · next tight =>
      simp only [blockSize] at tight
      have full : blockSize asked = wordLimit := Nat.min_eq_left (by omega)
      have full' : blockSize n = wordLimit := Nat.min_eq_left (by omega)
      have some : wordLimit ≠ 0 := by decide
      rw [full, if_neg some, full']

theorem spliceIn_single (x : α) (b : Buffer α) : spliceIn 1 b.length [x] b = (.ok 1, b.push x) := by
  have twice : b.append 1 [x] = b.push x := by
    simp only [append, List.foldl_cons, List.foldl_nil, push, length_reserve, reserve_reserve]
  have still : (b.push x).rotateTail b.length 1 = b.push x := by
    have items := items_rotateTail (b.push x) (items_push b x) (Nat.le_refl b.items.length)
    rw [List.take_length, List.drop_length, List.append_nil, ← items_push] at items
    exact congrArg (Buffer.mk · (b.push x).capacity) items
  rw [spliceIn_run, twice]
  exact congrArg _ still

/-- A change done step by step comes to what the change of the buffer as a whole does, and where it stops
it has done nothing. -/
theorem Edit.perform_eq (default : Except Error α) (e : Edit α) (b : Buffer α) :
    e.perform default b =
      match e.run default b with
      | .ok (reply, after) => (.ok reply, after)
      | .error err => (.error err, b) := by
  cases e with
  | set i x =>
    simp only [perform, demand_bind, change_bind, pure_run, run, Buffer.set, get]
    by_cases inside : i < b.length
    · have there : b.items[i]? = some b.items[i] := List.getElem?_eq_getElem inside
      rw [there, if_pos inside]
      rfl
    · have beyond : b.items[i]? = none := List.getElem?_eq_none (Nat.not_lt.1 inside)
      rw [beyond, if_neg inside]
      rfl
  | write f _ => rfl
  | reserve n => rfl
  | push x =>
    simp only [perform, observe_bind, bind_of_ok (spliceIn_single x b), pure_run, run]
  | pop => rfl
  | insert hint pos values =>
    simp only [perform, demand_bind, run, Buffer.insert]
    cases b.checkPosition pos with
    | error err => rfl
    | ok _ =>
      simp only [bind_of_ok (spliceIn_run hint pos values b), pure_run, length_append_sub]
      rfl
  | insertWithin pos first last =>
    simp only [perform, demand_bind, change_bind, pure_run, run, Buffer.insertWithin]
    cases b.checkPosition pos with
    | error err => rfl
    | ok _ =>
      cases b.checkRange first last with
      | error err => rfl
      | ok _ =>
        simp only [slice, items_reserve]
        rfl
  | erase first last =>
    simp only [perform, demand_bind, change_bind, pure_run, run, Buffer.erase]
    cases b.checkRange first last <;> rfl
  | resize n =>
    simp only [perform, observe_bind, run, Buffer.resize]
    split
    · rfl
    · simp only [bind_assoc, demand_bind, change_bind]
      cases default <;> rfl
  | resizeWith n first rest =>
    simp only [perform, bind_of_ok (resizeWith_run n _ b), pure_run, run]
  | clear => rfl

/-- The change of a plain list. -/
def Edit.onList (default : Except Error α) (xs : List α) : Edit α → Except Error (Reply α × List α)
  | set i x =>
    if i < xs.length then .ok (.done, xs.set i x) else .error (.indexOutOfRange i xs.length)
  | write f _ => .ok (.done, f xs)
  | reserve _ => .ok (.done, xs)
  | push x => .ok (.done, xs ++ [x])
  | pop => .ok (.popped xs.getLast?, xs.dropLast)
  | insert _ pos values =>
    if xs.length < pos then .error (.indexOutOfRange pos xs.length)
    else .ok (.count values.length, xs.take pos ++ values ++ xs.drop pos)
  | insertWithin pos first last =>
    if xs.length < pos then .error (.indexOutOfRange pos xs.length)
    else if last < first then .error (.reversedRange first last)
    else if xs.length < last then .error (.indexOutOfRange last xs.length)
    else .ok (.count (last - first), xs.take pos ++ slice xs first last ++ xs.drop pos)
  | erase first last =>
    if last < first then .error (.reversedRange first last)
    else if xs.length < last then .error (.indexOutOfRange last xs.length)
    else .ok (.count (last - first), xs.take first ++ xs.drop last)
  | resize n =>
    if n ≤ xs.length then .ok (.done, xs.take n)
    else default.map fun x => (.done, xs ++ List.replicate (n - xs.length) x)
  | resizeWith n first rest =>
    .ok (.done, xs.take n ++ (List.range (n - xs.length)).map (cycle first rest))
  | clear => .ok (.done, [])

theorem items_resizeWith (b : Buffer α) (n : Nat) (fill : Nat → α) :
    (b.resizeWith n fill).items =
      b.items.take n ++ (List.range (n - b.items.length)).map fill := by
  rw [resizeWith]
  split
  · next short =>
    have none : n - b.items.length = 0 := Nat.sub_eq_zero_of_le (Nat.le_of_lt short)
    simp [none]
  · next long =>
    have all : b.items.take n = b.items := List.take_of_length_le (Nat.not_lt.1 long)
    simp [all, length]

theorem checkPosition_of_lt {b : Buffer α} {pos : Nat} (beyond : b.length < pos) :
    b.checkPosition pos = .error (.indexOutOfRange pos b.length) := by
  rw [checkPosition, if_neg (Nat.not_le.2 beyond)]

theorem Edit.run_onList (default : Except Error α) (e : Edit α) (b : Buffer α) :
    (e.run default b).map (fun r => (r.1, r.2.items)) = e.onList default b.items := by
  cases e with
  | set i x =>
    by_cases inside : i < b.items.length
    · simp [run, onList, Buffer.set, length, inside, Except.map, bind, Except.bind, pure, Except.pure]
    · simp [run, onList, Buffer.set, length, inside, Except.map, bind, Except.bind]
  | write f _ => rfl
  | reserve n => simp [run, onList, Except.map]
  | push x => simp [run, onList, Except.map]
  | pop => rfl
  | insert hint pos values =>
    rw [onList]
    split
    · next beyond =>
      rw [run, Buffer.insert, checkPosition_of_lt beyond]
      rfl
    · next there =>
      rw [run, insert_of_le (Nat.not_lt.1 there)]
      rfl
  | insertWithin pos first last =>
    rw [onList]
    split
    · next beyond =>
      rw [run, Buffer.insertWithin, checkPosition_of_lt beyond]
      rfl
    · next there =>
      have there : pos ≤ b.length := Nat.not_lt.1 there
      split
      · next reversed =>
        rw [run, Buffer.insertWithin, checkPosition, if_pos there, checkRange, if_pos reversed]
        rfl
      · next ordered =>
        split
        · next short =>
          rw [run, insertWithin_of_lt there (Nat.not_lt.1 ordered) short]
          rfl
        · next inside =>
          rw [run, insertWithin_ok there (Nat.not_lt.1 ordered) (Nat.not_lt.1 inside)]
          rfl
  | erase first last =>
    rw [onList]
    split
    · next reversed =>
      rw [run, Buffer.erase, checkRange, if_pos reversed]
      rfl
    · next ordered =>
      split
      · next short =>
        have short : ¬last ≤ b.length := Nat.not_le.2 short
        rw [run, Buffer.erase, checkRange, if_neg ordered, if_neg short]
        rfl
      · next inside =>
        rw [run, erase_ok (Nat.not_lt.1 ordered) (Nat.not_lt.1 inside)]
        rfl
  | resize n =>
    rw [run, Buffer.resize, onList, length]
    split
    · rfl
    · cases default with
      | error err => rfl
      | ok x =>
        simp only [bind, Except.bind, Except.map, pure, Except.pure, items_reserve]
  | resizeWith n first rest => simp only [run, onList, Except.map, items_resizeWith]
  | clear => rfl

/-- The changes that a list of `n` elements does not have: they name a place past the end, or a range that is
reversed or past the end, or ask for more elements of a type without a default. -/
def Edit.Improper (default : Except Error α) (n : Nat) : Edit α → Prop
  | set i _ => n ≤ i
  | insert _ pos _ => n < pos
  | insertWithin pos first last => n < pos ∨ last < first ∨ n < last
  | erase first last => last < first ∨ n < last
  | resize m => n < m ∧ ∃ err, default = .error err
  | _ => False

theorem Edit.exists_error_iff (default : Except Error α) (e : Edit α) (xs : List α) :
    (∃ err, e.onList default xs = .error err) ↔ e.Improper default xs.length := by
  cases e with
  | set i x => by_cases inside : i < xs.length <;> simp [onList, Improper, inside]; omega
  | insert hint pos values => by_cases beyond : xs.length < pos <;> simp [onList, Improper, beyond]
  | insertWithin pos first last =>
    rw [onList, Improper]
    by_cases beyond : xs.length < pos
    · simp [beyond]
    · by_cases reversed : last < first
      · simp [beyond, reversed]
      · by_cases short : xs.length < last <;> simp [beyond, reversed, short]
  | erase first last =>
    rw [onList, Improper]
    by_cases reversed : last < first
    · simp [reversed]
    · by_cases short : xs.length < last <;> simp [reversed, short]
  | resize n =>
    rw [onList, Improper]
    by_cases fits : n ≤ xs.length
    · simp [fits, Nat.not_lt.2 fits]
    · cases default <;> simp [fits, Nat.not_le.1 fits, Except.map]
  | _ => simp [onList, Improper]

/-- What can be done with one buffer: a change, or a change of length where the new places take what `fill`
yields for them in turn. -/
inductive Operation (α : Type)
  | edit (e : Edit α)
  | resizeWith (n : Nat) (fill : Nat → α)

namespace Operation

variable (default : Except Error α)

def perform : Operation α → Work α (Reply α)
  | edit e => e.perform default
  | resizeWith n fill => do
    Work.resizeWith n fill
    return .done

def onList : Operation α → List α → Outcome (List α) (Reply α)
  | edit e, xs =>
    match e.onList default xs with
    | .ok (reply, ys) => (.ok reply, ys)
    | .error err => (.error err, xs)
  | resizeWith n fill, xs => (.ok .done, xs.take n ++ (List.range (n - xs.length)).map fill)

def Improper (n : Nat) : Operation α → Prop
  | edit e => e.Improper default n
  | resizeWith _ _ => False

theorem onList_items (op : Operation α) (b : Buffer α) :
    op.onList default b.items = ((op.perform default b).1, (op.perform default b).2.items) := by
  cases op with
  | edit e =>
    rw [perform, e.perform_eq, onList, ← e.run_onList]
    cases e.run default b <;> rfl
  | resizeWith n fill =>
    rw [perform, bind_of_ok (resizeWith_run n fill b), onList, ← items_resizeWith]
    rfl

theorem exists_error_iff (op : Operation α) (b : Buffer α) :
    (∃ err, (op.perform default b).1 = .error err) ↔ op.Improper default b.length := by
  cases op with
  | edit e =>
    rw [Improper, length, ← e.exists_error_iff, ← e.run_onList, perform, e.perform_eq]
    cases e.run default b <;> simp [Except.map]
  | resizeWith n fill =>
    rw [perform, bind_of_ok (resizeWith_run n fill b)]
    simp [Improper]

theorem unchanged_of_error {op : Operation α} {b : Buffer α} {err : Error}
    (refused : (op.perform default b).1 = .error err) : (op.perform default b).2 = b := by
  cases op with
  | edit e =>
    rw [perform, e.perform_eq] at refused ⊢
    cases ran : e.run default b with
    | ok r => simp [ran] at refused
    | error err => rfl
  | resizeWith n fill =>
    rw [perform, bind_of_ok (resizeWith_run n fill b)] at refused
    cases refused

end Operation

/-- Something done with one of several objects, which are named by number. A clone is one more of them. -/
inductive Command (α : Type)
  | operate (slot : Nat) (op : Operation α)
  | clone (slot : Nat)

def Command.step {σ : Type} (act : Operation α → σ → Outcome σ (Reply α)) (objects : List σ) :
    Command α → Outcome (List σ) (Reply α)
  | operate i op =>
    match objects[i]? with
    | some x => let (answer, x) := act op x; (answer, objects.set i x)
    | none => (.ok .done, objects)
  | clone i =>
    match objects[i]? with
    | some x => (.ok (.count objects.length), objects ++ [x])
    | none => (.ok .done, objects)

theorem Command.step_map {σ τ : Type} {view : σ → τ} {act : Operation α → σ → Outcome σ (Reply α)}
    {act' : Operation α → τ → Outcome τ (Reply α)}
    (agrees : ∀ op x, act' op (view x) = ((act op x).1, view (act op x).2)) (objects : List σ)
    (c : Command α) :
    c.step act' (objects.map view) = ((c.step act objects).1, (c.step act objects).2.map view) := by
  cases c with
  | operate i op =>
    simp only [step, List.getElem?_map]
    cases objects[i]? with
    | none => rfl
    | some x => simp [agrees, List.map_set]
  | clone i =>
    simp only [step, List.getElem?_map]
    cases objects[i]? <;> simp

theorem answers_map {σ τ κ ρ : Type} {view : σ → τ} {step : σ → κ → ρ × σ} {step' : τ → κ → ρ × τ}
    (agrees : ∀ s c, step' (view s) c = ((step s c).1, view (step s c).2)) (s : σ) (cs : List κ) :
    (answers step s cs).map (fun a => (a.1, view a.2)) = answers step' (view s) cs := by
  induction cs generalizing s with
  | nil => rfl
  | cons c cs ih => simp only [answers, List.map_cons, ih, agrees]

/-- Whatever is done with buffers, in steps that may stop half way, and with clones of them, gives the answers
and leaves the elements that the same commands give and leave with plain lists. What is done is refused just
if a list has no such change, and then the buffer is as it was, elements and capacity. The steps of a change
come to what `Edit.run` says of it as a whole. -/
theorem runs_refine_lists (default : Except Error α) (buffers : List (Buffer α))
    (commands : List (Command α)) :
    (answers (Command.step (Operation.perform default)) buffers commands).map
        (fun a => (a.1, a.2.map items)) =
      answers (Command.step (Operation.onList default)) (buffers.map items) commands ∧
    (∀ (op : Operation α) (b : Buffer α),
      ((∃ err, (op.perform default b).1 = .error err) ↔ op.Improper default b.length) ∧
      ∀ err, (op.perform default b).1 = .error err → (op.perform default b).2 = b) ∧
    ∀ (e : Edit α) (b : Buffer α),
      ((Operation.edit e).perform default b).1 = (e.run default b).map Prod.fst ∧
      ∀ reply after, e.run default b = .ok (reply, after) →
        ((Operation.edit e).perform default b).2 = after := by
  refine ⟨answers_map (fun s c => c.step_map (Operation.onList_items default) s) buffers commands,
    fun op b => ⟨op.exists_error_iff default b, fun err => Operation.unchanged_of_error default⟩,
    fun e b => ?_⟩
  rw [Operation.perform, e.perform_eq]
  cases e.run default b with
  | ok r => exact ⟨rfl, fun reply after ran => by cases ran; rfl⟩
  | error err => exact ⟨rfl, nofun⟩

/-- A range on both sides of the position is read as it was. -/
example : (((Operation.edit (.insertWithin 2 1 4)).perform (.ok 0) (ofList [0, 1, 2, 3, 4])).2).items =
    [0, 1, 1, 2, 3, 2, 3, 4] := rfl

end Tabular.Buffer
