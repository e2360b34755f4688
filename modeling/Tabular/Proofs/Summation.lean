import Mathlib.Algebra.BigOperators.Group.List.Basic
import Mathlib.Data.List.FinRange
import Tabular.Series.Reduction

/-! Sums take every term once. Split over lanes or not, they ask for the terms at all places of a series, for each
once and from the first to the last, and for no others. Where addition is exact it makes no difference in which lane
a term ends up. -/

namespace Tabular

section Asking

variable {α β γ δ ι : Type}

/-- What is done with the terms at some places. Each is asked for once, in this order, and no others are. -/
def AsksFor (places : List Nat) (run : ∀ {m : Type → Type} [Monad m], (Nat → m α) → m β) : Prop :=
  ∃ total : List α → β, ∀ {m : Type → Type} [Monad m] [LawfulMonad m] (term : Nat → m α),
    run term = total <$> places.mapM term

/-- What is done with the terms at some places adds them to what is measured, which was `before`. -/
def Adds {m : Type → Type} [Monad m] [Add γ] [Zero γ] (places : List Nat) (term : Nat → m γ) (measure : β → γ)
    (before : γ) (run : m β) : Prop :=
  measure <$> run = (fun ys => before + ys.sum) <$> places.mapM term

theorem isSome_mapM {f : ι → Option α} {xs : List ι} (there : ∀ x ∈ xs, (f x).isSome) :
    (xs.mapM f).isSome := by
  induction xs with
  | nil => rfl
  | cons x xs ih =>
    obtain ⟨y, found⟩ := Option.isSome_iff_exists.1 (there x List.mem_cons_self)
    obtain ⟨ys, rest⟩ := Option.isSome_iff_exists.1 (ih fun x' mem => there x' (List.mem_cons_of_mem x mem))
    simp [List.mapM_cons, found, rest]

section Lawful

variable {m : Type → Type} [Monad m] [LawfulMonad m]

theorem mapM_bind_congr {xs : List ι} {f : ι → m α} {g h : List α → m β}
    (same : ∀ ys, ys.length = xs.length → g ys = h ys) : xs.mapM f >>= g = xs.mapM f >>= h := by
  induction xs generalizing g h with
  | nil => simpa using same [] rfl
  | cons x xs ih =>
    simp only [List.mapM_cons, bind_assoc, pure_bind]
    refine bind_congr fun y => ih fun ys long => same (y :: ys) ?_
    rw [List.length_cons, List.length_cons, long]

theorem foldlM_ask (step : β → ι → α → β) (place : ι → Nat) (term : Nat → m α) (xs : List ι) (b : β) :
    xs.foldlM (fun b x => return step b x (← term (place x))) b =
      (fun ys => (xs.zip ys).foldl (fun b p => step b p.1 p.2) b) <$> (xs.map place).mapM term := by
  induction xs generalizing b with
  | nil => simp
  | cons x xs ih =>
    simp only [List.foldlM_cons, List.map_cons, List.mapM_cons, bind_assoc, pure_bind, map_bind, ih]
    simp

namespace Adds

variable [AddMonoid γ] {places others : List Nat} {term : Nat → m γ} {measure : β → γ} {before : γ}

theorem foldlM {step : β → ι → γ → β} (adds : ∀ b x y, measure (step b x y) = measure b + y) (place : ι → Nat)
    (term : Nat → m γ) (xs : List ι) (b : β) :
    Adds (xs.map place) term measure (measure b)
      (xs.foldlM (fun b x => return step b x (← term (place x))) b) := by
  rw [Adds]
  induction xs generalizing b with
  | nil => simp
  | cons x xs ih =>
    simp only [List.foldlM_cons, List.map_cons, List.mapM_cons, bind_assoc, pure_bind, map_bind, map_pure, ih, adds]
    simp [add_assoc]

theorem pure (b : β) : Adds [] term measure (measure b) (Pure.pure b) := by
  simp [Adds]

theorem onto {run : m γ} (adds : Adds places term id before run) (c : γ) :
    Adds places term id (c + before) (run >>= fun total => Pure.pure (c + total)) := by
  unfold Adds at adds ⊢
  rw [id_map] at adds
  rw [id_map, adds]
  simp [add_assoc]

theorem bind {run : m β} {next : β → m δ} {measure' : δ → γ} (first : Adds places term measure before run)
    (rest : ∀ b, Adds others term measure' (measure b) (next b)) :
    Adds (places ++ others) term measure' before (run >>= next) := by
  unfold Adds at first rest ⊢
  calc measure' <$> (run >>= next)
      = measure <$> run >>= fun total => (fun ys => total + ys.sum) <$> others.mapM term := by
        simp only [map_bind, bind_map_left, rest]
    _ = places.mapM term >>= fun xs => (fun ys => before + xs.sum + ys.sum) <$> others.mapM term := by
        rw [first, bind_map_left]
    _ = (fun ys => before + ys.sum) <$> (places ++ others).mapM term := by
        rw [List.mapM_append]
        simp [add_assoc]

end Adds

end Lawful

namespace AsksFor

variable {places others : List Nat} {run run' : ∀ {m : Type → Type} [Monad m], (Nat → m α) → m β}

theorem congr (same : ∀ {m : Type → Type} [Monad m] (term : Nat → m α), run term = run' term) :
    AsksFor places run ↔ AsksFor places run' := by
  simp only [AsksFor, same]

theorem pure (b : β) : AsksFor (α := α) [] fun {m} _ _ => (Pure.pure b : m β) :=
  ⟨fun _ => b, fun _ => by simp⟩

theorem bind {next : β → ∀ {m : Type → Type} [Monad m], (Nat → m α) → m γ} (first : AsksFor places run)
    (rest : ∀ b, AsksFor others (next b)) :
    AsksFor (places ++ others) fun term => run term >>= fun b => next b term := by
  obtain ⟨total, ran⟩ := first
  choose after ran' using rest
  refine ⟨fun ys => after (total (ys.take places.length)) (ys.drop places.length), fun term => ?_⟩
  simp only [ran, ran', bind_map_left, List.mapM_append, map_bind, map_pure]
  -- As many answers belong to the first part as there are places, so that `take` and `drop` find both parts again.
  refine mapM_bind_congr fun ys long => ?_
  simp [← long]

theorem map (f : β → γ) (asks : AsksFor places run) :
    AsksFor places fun term => run term >>= fun b => Pure.pure (f b) := by
  have mapped := asks.bind fun b => .pure (f b)
  rwa [List.append_nil] at mapped

theorem foldlM (step : β → ι → α → β) (place : ι → Nat) (xs : List ι) (b : β) :
    AsksFor (xs.map place) fun term => xs.foldlM (fun b x => return step b x (← term (place x))) b :=
  ⟨_, fun term => foldlM_ask step place term xs b⟩

theorem isSome (asks : AsksFor places run) {term : Nat → Option α} (there : ∀ i ∈ places, (term i).isSome) :
    (run term).isSome := by
  obtain ⟨total, ran⟩ := asks
  simp only [ran, Option.map_eq_map, Option.isSome_map, isSome_mapM there]

end AsksFor

end Asking

namespace Summing

section Places

theorem map_finRange_add (base n : Nat) : (List.finRange n).map (base + ·.val) = List.range' base n :=
  List.ext_getElem (by simp) (by simp)

theorem lanes_mul_succ (base turns : Nat) : base + lanes * (turns + 1) = base + lanes + lanes * turns := by
  rw [Nat.mul_succ]
  omega

theorem range'_lanes_mul_succ (base turns : Nat) : List.range' base (lanes * (turns + 1)) =
    List.range' base lanes ++ List.range' (base + lanes) (lanes * turns) := by
  rw [List.range'_append_1, Nat.mul_succ, Nat.add_comm]

theorem range_eq_append (len : Nat) : List.range len =
    List.range' 0 (lanes * (len / lanes)) ++ List.range' (lanes * (len / lanes)) (len - lanes * (len / lanes)) := by
  have parts := List.range'_append_1 (s := 0) (m := lanes * (len / lanes)) (n := len - lanes * (len / lanes))
  rw [Nat.zero_add, Nat.add_sub_cancel' (Nat.mul_div_le len lanes)] at parts
  rw [List.range_eq_range', parts]

end Places

variable {α : Type} (s : Summing α)

section Loop

variable {m : Type → Type} [Monad m] {full base turns : Nat}

theorem addBlocks_of_le (done : full ≤ base) (acc : Vector α lanes) (term : Nat → m α) :
    s.addBlocks full base acc term = pure acc := by
  rw [addBlocks, if_neg (Nat.not_lt.2 done)]

theorem addBlocks_succ (base turns : Nat) (acc : Vector α lanes) (term : Nat → m α) :
    s.addBlocks (base + lanes * (turns + 1)) base acc term = s.addBlock base acc term >>= fun acc =>
      s.addBlocks (base + lanes + lanes * turns) (base + lanes) acc term := by
  have more : base < base + lanes * (turns + 1) := Nat.lt_add_of_pos_right (Nat.mul_pos (by decide) turns.succ_pos)
  rw [addBlocks, if_pos more, lanes_mul_succ]

def addBlocksIn (full : Nat) : Nat → Nat → Vector α lanes → (Nat → m α) → m (Option (Vector α lanes))
  | turns, base, acc, term =>
    if base < full then
      match turns with
      | 0 => return none
      | turns + 1 => do addBlocksIn full turns (base + lanes) (← s.addBlock base acc term) term
    else return some acc

theorem addBlocksIn_eq [LawfulMonad m] (enough : full ≤ base + lanes * turns) (acc : Vector α lanes)
    (term : Nat → m α) : s.addBlocksIn full turns base acc term = some <$> s.addBlocks full base acc term := by
  induction turns generalizing base acc with
  | zero =>
    have done : ¬ base < full := Nat.not_lt.2 enough
    rw [addBlocksIn, addBlocks, if_neg done, if_neg done, map_pure]
  | succ turns ih =>
    rw [addBlocksIn, addBlocks]
    split
    · rw [map_bind]
      refine bind_congr fun acc => ih ?_ acc
      rwa [← lanes_mul_succ]
    · rw [map_pure]

end Loop

section Asks

theorem asks_plainOver (places : List Nat) : AsksFor places (s.plainOver places) := by
  have asks := AsksFor.foldlM (fun total _ x => s.add total x) id places s.start
  rwa [List.map_id] at asks

theorem asks_addBlock (base : Nat) (acc : Vector α lanes) :
    AsksFor (List.range' base lanes) (s.addBlock base acc) := by
  have asks := AsksFor.foldlM (fun acc (lane : Fin lanes) x => acc.set lane (s.add acc[lane] x))
    (base + ·.val) (List.finRange lanes) acc
  rwa [map_finRange_add] at asks

theorem asks_addBlocks (turns base : Nat) (acc : Vector α lanes) :
    AsksFor (List.range' base (lanes * turns)) (s.addBlocks (base + lanes * turns) base acc) := by
  induction turns generalizing base acc with
  | zero => exact (AsksFor.congr (s.addBlocks_of_le (Nat.le_refl base) acc)).2 (.pure acc)
  | succ turns ih =>
    rw [range'_lanes_mul_succ]
    exact (AsksFor.congr (s.addBlocks_succ base turns acc)).2 ((s.asks_addBlock base acc).bind (ih (base + lanes)))

theorem asks_laneSum (len : Nat) : AsksFor (List.range len) (s.laneSum len) := by
  have blocks := s.asks_addBlocks (len / lanes) 0 (.replicate lanes s.laneStart)
  have rest := s.asks_plainOver (List.range' (lanes * (len / lanes)) (len - lanes * (len / lanes)))
  have asks := blocks.bind fun acc => rest.map (s.add (s.plain acc.toList))
  rw [Nat.zero_add, ← range_eq_append, Nat.mul_div_self_eq_mod_sub_self] at asks
  exact asks

theorem asks_sum (split : Bool) (len : Nat) : AsksFor (List.range len) (s.sum split len) := by
  cases split with
  | false => exact s.asks_plainOver (List.range len)
  | true => exact s.asks_laneSum len

end Asks

/-- Addition that is not rounded. -/
def exact (α : Type) [AddCommMonoid α] : Summing α := ⟨(· + ·), 0, 0⟩

section Exact

variable [AddCommMonoid α] {m : Type → Type} [Monad m] [LawfulMonad m]

def held (acc : Vector α lanes) : α := acc.toList.sum

theorem held_set (acc : Vector α lanes) {lane : Nat} (inside : lane < lanes) (x : α) :
    held (acc.set lane (acc[lane] + x) inside) = held acc + x := by
  have below : lane < acc.toList.length := by rwa [Vector.length_toList]
  have parts : held acc = (acc.toList.take lane).sum + (acc[lane] + (acc.toList.drop (lane + 1)).sum) := by
    have cell : acc[lane] = acc.toList[lane] := rfl
    rw [← List.sum_cons, ← List.sum_append, cell, List.getElem_cons_drop, List.take_append_drop, held]
  rw [held, Vector.toList_set, List.sum_set, if_pos below, parts]
  ac_rfl

theorem adds_plainOver (places : List Nat) (term : Nat → m α) :
    Adds places term id 0 ((exact α).plainOver places term) := by
  have adds : Adds (places.map id) term id 0 ((exact α).plainOver places term) :=
    Adds.foldlM (fun _ _ _ => rfl) id term places 0
  rwa [List.map_id] at adds

theorem adds_addBlock (base : Nat) (acc : Vector α lanes) (term : Nat → m α) :
    Adds (List.range' base lanes) term held (held acc) ((exact α).addBlock base acc term) := by
  have adds := Adds.foldlM (fun acc (lane : Fin lanes) => held_set acc lane.isLt) (base + ·.val) term
    (List.finRange lanes) acc
  rwa [map_finRange_add] at adds

theorem adds_addBlocks (turns base : Nat) (acc : Vector α lanes) (term : Nat → m α) :
    Adds (List.range' base (lanes * turns)) term held (held acc)
      ((exact α).addBlocks (base + lanes * turns) base acc term) := by
  induction turns generalizing base acc with
  | zero =>
    rw [Nat.mul_zero, Nat.add_zero, addBlocks_of_le _ (Nat.le_refl base)]
    exact .pure acc
  | succ turns ih =>
    rw [range'_lanes_mul_succ, addBlocks_succ]
    exact (adds_addBlock base acc term).bind (ih (base + lanes))

theorem plain_exact (terms : List α) : (exact α).plain terms = terms.sum := List.sum_eq_foldl.symm

theorem adds_rest (places : List Nat) (acc : Vector α lanes) (term : Nat → m α) :
    Adds places term id (held acc) ((exact α).plainOver places term >>= fun tail =>
      pure ((exact α).add ((exact α).plain acc.toList) tail)) := by
  have adds := (adds_plainOver places term).onto (held acc)
  rw [add_zero] at adds
  rw [plain_exact]
  exact adds

theorem adds_laneSum (len : Nat) (term : Nat → m α) :
    Adds (List.range len) term id 0 ((exact α).laneSum len term) := by
  have start : held (.replicate lanes (exact α).laneStart) = 0 := by simp [held, exact]
  have blocks := adds_addBlocks (len / lanes) 0 (.replicate lanes (exact α).laneStart) term
  have adds := blocks.bind fun acc =>
    adds_rest (List.range' (lanes * (len / lanes)) (len - lanes * (len / lanes))) acc term
  rw [start, Nat.zero_add, ← range_eq_append, Nat.mul_div_self_eq_mod_sub_self] at adds
  exact adds

theorem sum_exact (split : Bool) (len : Nat) (term : Nat → m α) :
    (exact α).sum split len term = List.sum <$> (List.range len).mapM term := by
  have adds : Adds (List.range len) term id 0 ((exact α).sum split len term) := by
    cases split with
    | false => exact adds_plainOver (List.range len) term
    | true => exact adds_laneSum len term
  simpa only [Adds, id_map, zero_add] using adds

end Exact

/-- However many terms there are, their sum asks for each of them once and for nothing beyond the last, and the loop
over the blocks ends after no more turns than there are full blocks. Where addition is exact, the sum over lanes comes
to the sum from left to right. -/
theorem each_term_once {α : Type} (len : Nat) :
    (∀ [AddCommMonoid α] (term : Nat → α), Id.run ((exact α).laneSum len fun i => pure (term i)) =
      (List.range len).foldl (fun total i => total + term i) 0) ∧
    (∀ [AddCommMonoid α] (split : Bool) {m : Type → Type} [Monad m] [LawfulMonad m] (term : Nat → m α),
      (exact α).sum split len term = List.sum <$> (List.range len).mapM term) ∧
    (∀ (s : Summing α) (split : Bool), AsksFor (List.range len) (s.sum split len)) ∧
    (∀ (s : Summing α) (split : Bool) (term : Nat → Option α), (∀ i < len, (term i).isSome) →
      (s.sum split len term).isSome) ∧
    ∀ (s : Summing α) {m : Type → Type} [Monad m] [LawfulMonad m] (acc : Vector α lanes) (term : Nat → m α),
      s.addBlocksIn (len - len % lanes) (len / lanes) 0 acc term =
        some <$> s.addBlocks (len - len % lanes) 0 acc term := by
  refine ⟨fun {_} term => ?_, fun {_} split {m} _ _ term => sum_exact split len term,
    fun s split => s.asks_sum split len, fun s split term there => ?_, fun s {m} _ _ acc term => ?_⟩
  · have summed := sum_exact true len fun i => (pure (term i) : Id α)
    rw [List.mapM_pure, map_pure, List.sum_eq_foldl, List.foldl_map] at summed
    exact summed
  · exact (s.asks_sum split len).isSome fun i mem => there i (List.mem_range.1 mem)
  · refine s.addBlocksIn_eq ?_ acc term
    rw [Nat.zero_add, Nat.mul_div_self_eq_mod_sub_self]

theorem each_term_once_stairs :
    let heights : List Int := [17, 18, 17, 17, 16, 18, 17, 17, 19, 16, 18]
    (∀ i < 11, (heights[i]?).isSome) ∧
    (∀ split, (exact Int).sum split 11 (heights[·]?) = some 190) ∧
    ∀ (s : Summing Int) (split : Bool), (s.sum split 11 (heights[·]?)).isSome := by
  intro heights
  have there : ∀ i < 11, (heights[i]?).isSome := by decide
  obtain ⟨-, summed, -, enough, -⟩ := each_term_once (α := Int) 11
  exact ⟨there, fun split => summed split (heights[·]?), fun s split => enough s split (heights[·]?) there⟩

end Summing

namespace Numbers

variable {split : Bool} {len : Nat} {term : Nat → Option Number.Binary64}

theorem total_eq (there : ∀ i < len, (term i).isSome) :
    Summing.doubles.sum split len term = some (total split len term) := by
  have summed := (Summing.doubles.asks_sum split len).isSome fun i mem => there i (List.mem_range.1 mem)
  obtain ⟨x, found⟩ := Option.isSome_iff_exists.1 summed
  rw [total, found, Option.getD_some]

theorem sum_eq (ns : Numbers) : Summing.doubles.sum ns.type.splits ns.length ns.number? = some ns.sum :=
  total_eq fun i below => by
    have inside : i < ns.values.length := below
    simp [number?, inside]

end Numbers

end Tabular
