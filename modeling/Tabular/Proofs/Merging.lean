import Mathlib.Algebra.Order.Ring.Int
import Mathlib.Data.Bool.Basic
import Mathlib.Data.String.Basic
import Mathlib.Order.WithBot
import Tabular.Group.Aggregate
import Tabular.Proofs.Inference

/-! Folds of cells that can be taken apart: what all cells come to is what the results for parts of them come
to, whichever parts are formed and in whatever order. Sums of integers are of this kind, and so are least and
greatest cells of a column, since cells of one kind have their places in a line. -/

namespace Tabular

def mergeAll {α : Type} (op : α → α → α) : List α → Option α
  | [] => none
  | x :: xs => some (xs.foldl op x)

/-- Among elements of some sort the order and the grouping of operands make no difference. -/
structure Merges {α : Type} (sort : α → Prop) (op : α → α → α) : Prop where
  closed : ∀ {a b}, sort a → sort b → sort (op a b)
  comm : ∀ {a b}, sort a → sort b → op a b = op b a
  assoc : ∀ {a b c}, sort a → sort b → sort c → op (op a b) c = op a (op b c)

namespace Merges

variable {α : Type} {sort : α → Prop} {op : α → α → α} {xs ys : List α} {a b : α}

theorem foldl_closed (merges : Merges sort op) (sorted : ∀ x ∈ xs, sort x) (first : sort a) :
    sort (xs.foldl op a) := by
  induction xs generalizing a with
  | nil => exact first
  | cons x xs ih =>
    obtain ⟨head, tail⟩ := List.forall_mem_cons.1 sorted
    exact ih tail (merges.closed first head)

theorem foldl_op (merges : Merges sort op) (sorted : ∀ x ∈ xs, sort x) (ha : sort a) (hb : sort b) :
    xs.foldl op (op a b) = op a (xs.foldl op b) := by
  induction xs generalizing b with
  | nil => rfl
  | cons x xs ih =>
    obtain ⟨head, tail⟩ := List.forall_mem_cons.1 sorted
    rw [List.foldl_cons, List.foldl_cons, merges.assoc ha hb head, ih tail (merges.closed hb head)]

theorem mergeAll_cons (merges : Merges sort op) (sorted : ∀ x ∈ xs, sort x) (ha : sort a) :
    mergeAll op (a :: xs) = Option.merge op (some a) (mergeAll op xs) := by
  cases xs with
  | nil => rfl
  | cons x xs =>
    obtain ⟨head, tail⟩ := List.forall_mem_cons.1 sorted
    exact congrArg some (merges.foldl_op tail ha head)

theorem closed_mergeAll (merges : Merges sort op) (sorted : ∀ x ∈ xs, sort x)
    (found : a ∈ mergeAll op xs) : sort a := by
  cases xs with
  | nil => cases found
  | cons x xs =>
    cases found
    obtain ⟨head, tail⟩ := List.forall_mem_cons.1 sorted
    exact merges.foldl_closed tail head

theorem mergeAll_perm (merges : Merges sort op) (sorted : ∀ x ∈ xs, sort x) (perm : xs.Perm ys) :
    mergeAll op xs = mergeAll op ys := by
  induction perm with
  | nil => rfl
  | cons x perm ih =>
    obtain ⟨head, tail⟩ := List.forall_mem_cons.1 sorted
    rw [merges.mergeAll_cons tail head, ih tail,
      merges.mergeAll_cons (fun y mem => tail y (perm.mem_iff.2 mem)) head]
  | swap x y xs =>
    obtain ⟨hy, rest⟩ := List.forall_mem_cons.1 sorted
    obtain ⟨hx, -⟩ := List.forall_mem_cons.1 rest
    exact congrArg (fun z => some (xs.foldl op z)) (merges.comm hy hx)
  | trans first _ ih ih' => exact (ih sorted).trans (ih' fun x mem => sorted x (first.mem_iff.2 mem))

theorem mergeAll_append (merges : Merges sort op) (left : ∀ x ∈ xs, sort x) (right : ∀ y ∈ ys, sort y) :
    mergeAll op (xs ++ ys) = Option.merge op (mergeAll op xs) (mergeAll op ys) := by
  induction xs with
  | nil => cases ys <;> rfl
  | cons x xs ih =>
    obtain ⟨head, tail⟩ := List.forall_mem_cons.1 left
    have both : ∀ z ∈ xs ++ ys, sort z := fun z mem => (List.mem_append.1 mem).elim (tail z) (right z)
    rw [List.cons_append, merges.mergeAll_cons both head, ih tail, merges.mergeAll_cons tail head]
    cases here : mergeAll op xs with
    | none => cases mergeAll op ys <;> rfl
    | some v =>
      cases there : mergeAll op ys with
      | none => rfl
      | some w =>
        exact congrArg some (merges.assoc head (merges.closed_mergeAll tail here)
          (merges.closed_mergeAll right there)).symm

theorem mergeAll_flatten (merges : Merges sort op) {parts : List (List α)}
    (sorted : ∀ part ∈ parts, ∀ x ∈ part, sort x) :
    mergeAll op (parts.filterMap (mergeAll op)) = mergeAll op parts.flatten := by
  induction parts with
  | nil => rfl
  | cons part parts ih =>
    obtain ⟨head, tail⟩ := List.forall_mem_cons.1 sorted
    have rest : ∀ x ∈ parts.flatten, sort x := fun x mem => by
      obtain ⟨part, inside, there⟩ := List.mem_flatten.1 mem
      exact tail part inside x there
    have merged : ∀ x ∈ parts.filterMap (mergeAll op), sort x := fun x mem => by
      obtain ⟨part, inside, found⟩ := List.mem_filterMap.1 mem
      exact merges.closed_mergeAll (tail part inside) found
    rw [List.flatten_cons, merges.mergeAll_append head rest, ← ih tail]
    cases found : mergeAll op part with
    | none =>
      rw [List.filterMap_cons_none found]
      cases mergeAll op (parts.filterMap (mergeAll op)) <;> rfl
    | some v =>
      rw [List.filterMap_cons_some found, merges.mergeAll_cons merged (merges.closed_mergeAll head found)]

end Merges

def Kind.Admits (k : Kind) (v : Scalar) : Prop := v = .absent ∨ v.kind = k

namespace Fold

def plus : Scalar → Scalar → Scalar
  | .int64 a, .int64 b => .int64 (a + b)
  | _, _ => .absent

theorem merges_plus : Merges (Kind.Admits .int64) plus where
  closed {a b} _ _ := by cases a <;> cases b <;> simp [plus, Kind.Admits, Scalar.kind]
  comm {a b} _ _ := by cases a <;> cases b <;> simp [plus, Int64.add_comm]
  assoc {a b c} _ _ _ := by cases a <;> cases b <;> cases c <;> simp [plus, Int64.add_assoc]

theorem add_eq_plus {a b : Scalar} (ha : Kind.int64.Admits a) (hb : Kind.int64.Admits b) :
    Arithmetic.add.apply a b = .ok (plus a b) := by
  cases a <;> cases b <;>
    simp_all [Kind.Admits, Scalar.kind, plus, Arithmetic.apply, Arithmetic.onInts, Except.map]

theorem foldlM_add {xs : List Scalar} {a : Scalar} (uniform : Uniform .int64 xs) (ha : Kind.int64.Admits a) :
    xs.foldlM (Arithmetic.add.apply · ·) a = .ok (xs.foldl plus a) := by
  induction xs generalizing a with
  | nil => rfl
  | cons x xs ih =>
    obtain ⟨head, tail⟩ := List.forall_mem_cons.1 uniform
    rw [List.foldlM_cons, add_eq_plus ha head, ok_bind, ih tail (merges_plus.closed ha head)]
    rfl

theorem total_eq {xs : List Scalar} (uniform : Uniform .int64 xs) :
    total xs = .ok ((mergeAll plus xs).getD .absent) := by
  cases xs with
  | nil => rfl
  | cons x xs =>
    obtain ⟨head, tail⟩ := List.forall_mem_cons.1 uniform
    exact foldlM_add tail head

theorem foldl_plus_ints (ns : List Int) (a : Int) :
    (ns.map fun n => Scalar.int64 (.ofInt n)).foldl plus (.int64 (.ofInt a)) =
      .int64 (.ofInt (a + ns.sum)) := by
  induction ns generalizing a with
  | nil => simp
  | cons n ns ih =>
    have next : plus (.int64 (Int64.ofInt a)) (.int64 (Int64.ofInt n)) = .int64 (Int64.ofInt (a + n)) := by
      rw [Int64.ofInt_add]
      rfl
    rw [List.map_cons, List.foldl_cons, next, ih, List.sum_cons, Int.add_assoc]

theorem ofCount_eq {n : Nat} (nonempty : n ≠ 0) (fits : n ≤ Int64.maxValue.toInt) :
    Scalar.ofCount n = (mergeAll plus (List.replicate n (.int64 1))).getD .absent := by
  obtain ⟨n, rfl⟩ := Nat.exists_eq_succ_of_ne_zero nonempty
  have ones := foldl_plus_ints (List.replicate n 1) 1
  rw [List.map_replicate, List.sum_replicate_int, Int.mul_one] at ones
  rw [Scalar.ofCount, min_eq_left fits, List.replicate_succ]
  show _ = (List.replicate n (Scalar.int64 1)).foldl plus (.int64 (Int64.ofInt 1))
  rw [Int.natCast_succ, Int.add_comm]
  exact ones.symm

end Fold

namespace Scalar

def better (wanted : Ordering) (best c : Scalar) : Scalar := if c.totalCompare best = wanted then c else best

theorem extreme_eq (wanted : Ordering) (xs : List Scalar) :
    Fold.extreme wanted xs = (mergeAll (better wanted) xs).getD .absent := by
  cases xs <;> rfl

theorem totalCompare_swap (a b : Scalar) : b.totalCompare a = (a.totalCompare b).swap := by
  cases a <;> cases b <;> simp only [totalCompare, Number.Binary64.totalCompare] <;>
    exact Std.OrientedCmp.eq_swap

theorem totalCompare_eq_gt_iff {a b : Scalar} : a.totalCompare b = .gt ↔ b.totalCompare a = .lt := by
  rw [totalCompare_swap b a, Ordering.swap_eq_gt]

/-- Scalars of some sort have places in a line, each its own, by which they are compared. -/
structure Lined {L : Type} [LinearOrder L] (sort : Scalar → Prop) (place : Scalar → L) : Prop where
  apart : ∀ {a b}, sort a → sort b → place a = place b → a = b
  before : ∀ {a b}, sort a → sort b → (a.totalCompare b = .lt ↔ place a < place b)

theorem merges_better {L : Type} [LinearOrder L] {sort : Scalar → Prop} {wanted : Ordering}
    (place : Scalar → L) (apart : ∀ {a b}, sort a → sort b → place a = place b → a = b)
    (wins : ∀ {a b}, sort a → sort b → (a.totalCompare b = wanted ↔ place a < place b)) :
    Merges sort (better wanted) := by
  have closed {a b : Scalar} (ha : sort a) (hb : sort b) : sort (better wanted a b) := by
    unfold better
    split
    · exact hb
    · exact ha
  have least {a b : Scalar} (ha : sort a) (hb : sort b) :
      place (better wanted a b) = min (place a) (place b) := by
    unfold better
    split
    · next won => rw [min_eq_right ((wins hb ha).1 won).le]
    · next lost => rw [min_eq_left (not_lt.1 fun below => lost ((wins hb ha).2 below))]
  refine ⟨closed, fun {a b} ha hb => ?_, fun {a b c} ha hb hc => ?_⟩
  · refine apart (closed ha hb) (closed hb ha) ?_
    rw [least ha hb, least hb ha, min_comm]
  · refine apart (closed (closed ha hb) hc) (closed ha (closed hb hc)) ?_
    rw [least (closed ha hb) hc, least ha hb, least ha (closed hb hc), least hb hc, min_assoc]

theorem totalRank_injective : Function.Injective Number.Binary64.totalRank := by
  rintro ⟨x⟩ ⟨y⟩ same
  have hx := x.toNat_lt
  have hy := y.toNat_lt
  have weight : Number.Format.double.signWeight = 2 ^ 63 := rfl
  simp only [Number.Binary64.totalRank, Number.Binary64.negative, Number.Binary64.magnitude, weight,
    decide_eq_true_eq] at same
  have words : x.toNat = y.toNat := by
    split at same <;> split at same <;> omega
  rw [UInt64.toNat_inj.1 words]

theorem totalCompare_absent {v : Scalar} (present : v ≠ .absent) :
    absent.totalCompare v = .lt ∧ v.totalCompare absent = .gt := by
  cases v with
  | absent => exact absurd rfl present
  | _ => exact ⟨rfl, rfl⟩

theorem exists_lined_of {T : Type} [LinearOrder T] {k : Kind} (value : Scalar → T)
    (apart : ∀ {a b}, a.kind = k → b.kind = k → value a = value b → a = b)
    (before : ∀ {a b}, a.kind = k → b.kind = k → (a.totalCompare b = .lt ↔ value a < value b)) :
    ∃ (L : Type) (_ : LinearOrder L) (place : Scalar → L), Lined k.Admits place := by
  refine ⟨WithBot T, inferInstance, fun v => if v = .absent then ⊥ else value v,
    fun {a b} ha hb => ?_, fun {a b} ha hb => ?_⟩
  · by_cases none : a = .absent <;> by_cases none' : b = .absent
    · exact fun _ => none.trans none'.symm
    · simp [none, none']
    · simp [none, none']
    · simpa [none, none'] using apart (ha.resolve_left none) (hb.resolve_left none')
  · by_cases none : a = .absent <;> by_cases none' : b = .absent
    · simp [none, none', totalCompare]
    · simp [none, none', totalCompare_absent none']
    · simp [none, none', totalCompare_absent none]
    · simpa [none, none'] using before (ha.resolve_left none) (hb.resolve_left none')

def numberPlace : Scalar → Int
  | int64 n => n.toInt
  | float64 x => x.totalRank
  | _ => 0

theorem exists_lined (k : Kind) :
    ∃ (L : Type) (_ : LinearOrder L) (place : Scalar → L), Lined k.Admits place := by
  cases k with
  | absent =>
    refine ⟨Unit, inferInstance, fun _ => (), fun {a b} ha hb _ => ?_, fun {a b} ha hb => ?_⟩
    · simp_all [Kind.Admits]
    · simp_all [Kind.Admits, totalCompare]
  | bool =>
    refine exists_lined_of truthy (fun {a b} ha hb => ?_) fun {a b} ha hb => ?_
    · cases a <;> cases ha
      cases b <;> cases hb
      exact congrArg Scalar.bool
    · cases a <;> cases ha
      cases b <;> cases hb
      exact compare_lt_iff_lt
  | int64 =>
    refine exists_lined_of numberPlace (fun {a b} ha hb => ?_) fun {a b} ha hb => ?_
    · cases a <;> cases ha
      cases b <;> cases hb
      exact fun same => congrArg Scalar.int64 (Int64.toInt_inj.1 same)
    · cases a <;> cases ha
      cases b <;> cases hb
      exact compare_lt_iff_lt
  | float64 =>
    refine exists_lined_of numberPlace (fun {a b} ha hb => ?_) fun {a b} ha hb => ?_
    · cases a <;> cases ha
      cases b <;> cases hb
      exact fun same => congrArg Scalar.float64 (totalRank_injective same)
    · cases a <;> cases ha
      cases b <;> cases hb
      exact compare_lt_iff_lt
  | utf8 =>
    refine exists_lined_of render (fun {a b} ha hb => ?_) fun {a b} ha hb => ?_
    · cases a <;> cases ha
      cases b <;> cases hb
      exact congrArg Scalar.utf8
    · cases a <;> cases ha
      cases b <;> cases hb
      exact compare_lt_iff_lt

theorem merges_least (k : Kind) : Merges k.Admits (better .lt) := by
  obtain ⟨L, order, place, lined⟩ := exists_lined k
  exact merges_better place lined.apart lined.before

theorem merges_greatest (k : Kind) : Merges k.Admits (better .gt) := by
  obtain ⟨L, order, place, lined⟩ := exists_lined k
  refine merges_better (OrderDual.toDual ∘ place) lined.apart fun ha hb => ?_
  rw [totalCompare_eq_gt_iff, lined.before hb ha]
  rfl

end Scalar

/-- A fold is a merge of all cells by this operation, if they are of this kind. -/
structure Fold.MergesBy (fold : Fold) (k : Kind) (op : Scalar → Scalar → Scalar) : Prop where
  merges : Merges k.Admits op
  reduces : ∀ {xs}, Uniform k xs → fold.reduce xs = .ok ((mergeAll op xs).getD .absent)

namespace Fold

theorem sum_mergesBy : sum.MergesBy .int64 plus := ⟨merges_plus, total_eq⟩

theorem min_mergesBy (k : Kind) : min.MergesBy k (Scalar.better .lt) :=
  ⟨Scalar.merges_least k, fun {xs} _ => congrArg Except.ok (Scalar.extreme_eq .lt xs)⟩

theorem max_mergesBy (k : Kind) : max.MergesBy k (Scalar.better .gt) :=
  ⟨Scalar.merges_greatest k, fun {xs} _ => congrArg Except.ok (Scalar.extreme_eq .gt xs)⟩

end Fold

end Tabular
