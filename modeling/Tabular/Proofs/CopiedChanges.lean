import Tabular.Proofs.Copies
import Tabular.Proofs.Summaries

/-! Whole operations on copied frames. Expressions, orders, indices and sums read what a frame shows, so that
every change of a frame and every way to make one comes to the same for copies, of which it leaves copies. -/

namespace Tabular

namespace Expr

theorem readColumn_copy (f : Frame) (w : Window) (index : Nat) (offset : Int) :
    readColumn f.copy w index offset = readColumn f w index offset := by
  rw [readColumn, readColumn, f.column_copy]
  cases f.column index <;> rfl

mutual

theorem evaluate_copy (f : Frame) (w : Window) : ∀ e : Expr, evaluate f.copy w e = evaluate f w e
  | constant value => by simp only [evaluate]
  | column index offset => by simp only [evaluate, readColumn_copy]
  | unary op operand => by simp only [evaluate, evaluate_copy f w operand]
  | binary op left right => by simp only [evaluate, evaluate_copy f w left, evaluate_copy f w right]
  | call name function arguments => by simp only [evaluate, evaluateAll_copy f w arguments]
  | rowNumber => by simp only [evaluate]
  | frameLength => by simp only [evaluate]

theorem evaluateAll_copy (f : Frame) (w : Window) :
    ∀ es : List Expr, evaluateAll f.copy w es = evaluateAll f w es
  | [] => by simp only [evaluateAll]
  | e :: es => by simp only [evaluateAll, evaluate_copy f w e, evaluateAll_copy f w es]

end

theorem apply_copy (e : Expr) (f : Frame) : e.apply f.copy = e.apply f := by
  simp only [apply, evaluateRange, f.size_copy, evaluate_copy]

theorem mask_copy (condition : Expr) (f : Frame) : condition.mask f.copy = condition.mask f := by
  rw [mask, mask, apply_copy]

end Expr

namespace Frame

theorem keyRows_copy (f : Frame) (rows : Nat) (keys : List Nat) :
    f.copy.keyRows rows keys = f.keyRows rows keys := by
  have each (i : Nat) : (f.copy.column i >>= (·.scalars rows)) = (f.column i >>= (·.scalars rows)) := by
    rw [column_copy]
    cases f.column i <;> rfl
  rw [keyRows, keyRows, funext each]

theorem sortBy_oblivious (descending : Bool) (keys : List Nat) : Oblivious (·.sortBy descending keys) := by
  refine atEnd_mirrors fun rows f => ?_
  rw [keyRows_copy]
  cases f.keyRows rows keys with
  | error e => rfl
  | ok cells =>
    simp only [Except.bind]
    rw [mapM_copy f fun c => c.take_copy _]
    cases f.columns.mapM (Column.take · (sortedOrder descending cells)) <;> rfl

theorem removeRuns_copy (f : Frame) (mask : List Bool) (last : Nat) :
    f.copy.removeRuns mask last = Prod.map id copy (f.removeRuns mask last) := by
  induction last using Nat.strongRecOn generalizing f with
  | _ last ih =>
    cases last with
    | zero =>
      rw [removeRuns, removeRuns]
      rfl
    | succ n =>
      rw [removeRuns, removeRuns]
      split
      · exact ih n (Nat.lt_succ_self n) f
      · have erased : f.copy.eraseRows (runStart mask n) (n + 1) = _ :=
          eraseRows_oblivious (runStart mask n) (n + 1) f
        simp only [erased]
        obtain ⟨answer, g⟩ := f.eraseRows (runStart mask n) (n + 1)
        cases answer with
        | error e => rfl
        | ok count =>
          simp only [Prod.map, id]
          rw [ih (runStart mask n) (Nat.lt_succ_of_le (runStart_le mask n)) g]
          rfl

theorem retain_oblivious (condition : Expr) : Oblivious (·.retain condition) := by
  intro f
  simp only [retain, condition.mask_copy]
  cases condition.mask f with
  | error e => rfl
  | ok mask => exact f.removeRuns_copy mask mask.length

theorem filter_copy (f : Frame) (condition : Expr) :
    f.copy.filter condition = (f.filter condition).map copy := by
  rw [filter, filter, condition.mask_copy]
  cases condition.mask f with
  | error e => rfl
  | ok mask => exact f.takeRows_copy (keptRows mask)

theorem deriveWith_oblivious {make : List Scalar → Except Error Column}
    (new : ∀ values c, make values = .ok c → c.storage = .fresh) (e : Expr) (placement : Placement) :
    Oblivious (·.deriveWith make e placement) := by
  intro f
  simp only [deriveWith, e.apply_copy]
  cases made : (e.apply f).bind make with
  | error err => rfl
  | ok c =>
    obtain ⟨values, -, made⟩ := bind_eq_ok_iff.1 made
    have same := Column.copy_of_fresh (new values c made)
    cases placement with
    | append =>
      have added := addColumn_mirrors c f
      rwa [same] at added
    | prepend =>
      have added := prependColumn_mirrors c f
      rwa [same] at added

theorem pad_copy (f : Frame) (rows target : Nat) : f.copy.pad rows target = (f.pad rows target).map copy := by
  rw [pad, pad, isEmpty_copy]
  split
  · rfl
  · exact (congrArg Outcome.result (insertDefaultRows_oblivious rows (target - rows) f)).trans
      (Outcome.result_map _ _)

theorem hcat_copy (f g : Frame) : f.copy.hcat g.copy = (f.hcat g).map copy := by
  simp only [hcat, size_copy, pad_copy]
  cases f.size with
  | error e => rfl
  | ok left =>
    cases g.size with
    | error e => rfl
    | ok right =>
      simp only [ok_bind]
      cases f.pad left right with
      | error e => rfl
      | ok f' =>
        cases g.pad right left with
        | error e => rfl
        | ok g' => exact congrArg (Except.ok ∘ (Frame.mk · none)) List.map_append.symm

theorem vcat_copy (f g : Frame) : f.copy.vcat g.copy = (f.vcat g).map copy := by
  have pairs : f.copy.columns.zip g.copy.columns =
      (f.columns.zip g.columns).map (Prod.map Column.copy Column.copy) := List.zip_map
  have each : (f.copy.columns.zip g.copy.columns).mapM (fun x => (x.1.extendFrom x.2).result) =
      ((f.columns.zip g.columns).mapM fun x : Column × Column => (x.1.extendFrom x.2).result).map
        (List.map Column.copy) := by
    rw [pairs, List.mapM_map, ← mapM_comp_map]
    refine congrArg (List.mapM · _) (funext fun ⟨c, source⟩ => ?_)
    exact (congrArg Outcome.result (Column.extendFrom_mirrors source c)).trans (Outcome.result_map _ _)
  simp only [vcat, isEmpty_copy, width_copy, size_copy, each]
  split
  · rfl
  · split
    · rfl
    · cases f.size with
      | error e => rfl
      | ok n =>
        cases g.size with
        | error e => rfl
        | ok m =>
          simp only [ok_bind]
          cases (f.columns.zip g.columns).mapM fun x : Column × Column => (x.1.extendFrom x.2).result <;> rfl

theorem join_copy (f : Frame) (leftKey : Nat) (g : Frame) (rightKey : Nat) (type : JoinType)
    (options : ScratchOptions) :
    f.copy.join leftKey g.copy rightKey type options = (f.join leftKey g rightKey type options).map copy := by
  have left := GroupIndex.build_congr f.contents_copy (f := f.copy) rfl [leftKey]
  have right := GroupIndex.build_congr g.contents_copy (f := g.copy) rfl [rightKey]
  rw [join, join, left, right]
  cases GroupIndex.build f [leftKey] with
  | error e => rfl
  | ok index =>
    cases GroupIndex.build g [rightKey] with
    | error e => rfl
    | ok index' =>
      simp only [ok_bind, gatherPairs, takeRows_copy, takeRowsOrDefault_copy]
      cases f.takeRows _ with
      | error e => rfl
      | ok taken =>
        cases g.takeRowsOrDefault _ with
        | error e => rfl
        | ok taken' => exact taken.hcat_copy taken'

end Frame

namespace GroupIndex

theorem values_copy (a : Aggregation Nat) (shared : Bool) (f : Frame) (buckets : List Bucket) :
    a.values shared f.copy buckets = a.values shared f buckets := by
  cases a with
  | count => rfl
  | fold op i =>
    have copied := f.column_copy i
    cases found : f.column i with
    | error e =>
      rw [Aggregation.values, Aggregation.values, copied, found]
      rfl
    | ok c =>
      rw [found] at copied
      rw [Aggregation.values_fold copied, Aggregation.values_fold found]
      rfl

theorem toColumn_copy (a : Aggregation Nat) (shared : Bool) (f : Frame) (buckets : List Bucket) :
    a.toColumn shared f.copy buckets = (a.toColumn shared f buckets).map Column.copy := by
  have named : a.name f.copy = a.name f := by
    cases a with
    | count => rfl
    | fold op i =>
      rw [Aggregation.name, Aggregation.name, f.column_copy]
      cases f.column i <;> rfl
  have same : a.toColumn shared f.copy buckets = a.toColumn shared f buckets := by
    rw [Aggregation.toColumn, values_copy, named, Aggregation.toColumn]
  rw [same]
  cases made : a.toColumn shared f buckets with
  | error e => rfl
  | ok c => exact congrArg Except.ok (Column.copy_of_fresh (Column.fresh_of_aggregation made)).symm

theorem summarize_copy (g : GroupIndex) (f : Frame) (aggregations : List (Aggregation Nat))
    (options : ScratchOptions) :
    g.summarize f.copy aggregations options = (g.summarize f aggregations options).map Frame.copy := by
  have keys (rows : List Nat) : g.columns.mapM (fun i => f.copy.column i >>= (·.take rows)) =
      (g.columns.mapM fun i => f.column i >>= (·.take rows)).map (List.map Column.copy) := by
    rw [← mapM_comp_map]
    refine congrArg (List.mapM · _) (funext fun i => ?_)
    rw [f.column_copy]
    cases f.column i with
    | error e => rfl
    | ok c => exact c.take_copy rows
  have others (shared : Bool) : aggregations.mapM (Aggregation.toColumn shared f.copy g.buckets) =
      (aggregations.mapM (Aggregation.toColumn shared f g.buckets)).map (List.map Column.copy) := by
    rw [← mapM_comp_map]
    exact congrArg (List.mapM · _) (funext fun a => toColumn_copy a shared f g.buckets)
  rw [summarize, summarize, keys, others]
  generalize (g.columns.mapM fun i => f.column i >>= (·.take (g.buckets.map fun b => b.rows.headD 0))) = taken?
  generalize aggregations.mapM (Aggregation.toColumn _ f g.buckets) = made?
  cases taken? with
  | error e => rfl
  | ok taken =>
    cases made? with
    | error e => rfl
    | ok made =>
      simp only [Except.map, ok_bind, ← List.map_append]
      exact Frame.ofColumns_copy (taken ++ made)

theorem aggregate_copy (g : GroupIndex) (f : Frame) (aggregations : List (Aggregation Nat))
    (options : ScratchOptions) :
    g.aggregate f.copy aggregations options = (g.aggregate f aggregations options).map Frame.copy := by
  have current : g.isCurrent f.copy = g.isCurrent f := rfl
  rw [aggregate, aggregate, current]
  split
  · exact g.summarize_copy f aggregations options
  · rfl

end GroupIndex

namespace Frame

theorem groupBy_copy (f : Frame) (keys : List Nat) (aggregations : List (Aggregation Nat))
    (options : ScratchOptions) :
    f.copy.groupBy keys aggregations options = (f.groupBy keys aggregations options).map copy := by
  rw [groupBy, groupBy, GroupIndex.build_congr f.contents_copy rfl]
  cases GroupIndex.build f keys with
  | error e => rfl
  | ok index => exact index.summarize_copy f aggregations options

def Edit.copy : Edit → Edit
  | .populate columns => .populate (columns.map Column.copy)
  | .addColumn c => .addColumn c.copy
  | .prependColumn c => .prependColumn c.copy
  | .insertColumn position c => .insertColumn position c.copy
  | .assign t i s => .assign t i s.copy
  | .column i e => .column i e.copy
  | e => e

def Reply.copy : Reply → Reply
  | .column c => .column c.copy
  | reply => reply

theorem answering_copy {α : Type} {reply : α → Reply} {o o' : Outcome Frame α}
    (plain : ∀ a, (reply a).copy = reply a) (same : o' = Prod.map id copy o) :
    answering reply o' = ((answering reply o).1.map Reply.copy, (answering reply o).2.copy) := by
  obtain ⟨answer, after⟩ := o
  rw [same]
  cases answer with
  | error e => rfl
  | ok a => exact congrArg (fun reply => (Except.ok reply, after.copy)) (plain a).symm

theorem Edit.run_copy (frames : Nat → Frame) (f : Frame) (e : Edit) :
    e.copy.run (fun i => (frames i).copy) f.copy =
      ((e.run frames f).1.map Reply.copy, (e.run frames f).2.copy) := by
  have done : ∀ a : Unit, Reply.done.copy = Reply.done := fun _ => rfl
  cases e with
  | populate columns => exact answering_copy done (populate_mirrors columns f)
  | addColumn c => exact answering_copy done (addColumn_mirrors c f)
  | prependColumn c => exact answering_copy done (prependColumn_mirrors c f)
  | insertColumn position c => exact answering_copy done (insertColumn_mirrors position c f)
  | removeColumn i =>
    simp only [copy, run, removeColumn_copy]
    obtain ⟨answer, after⟩ := f.removeColumn i
    cases answer <;> rfl
  | allowMissing t i => exact answering_copy done (allowMissing_oblivious t i f)
  | disallowMissing t i => exact answering_copy done (disallowMissing_oblivious t i f)
  | series t i e =>
    exact answering_copy (fun _ => rfl) (writeSeries_mirrors t i (fun s => s.edit_copy e) f)
  | assign t i s => exact answering_copy done (writeSeries_mirrors t i (fun _ => rfl) f)
  | column i e =>
    refine answering_copy (fun n? => ?_) (writeColumn_mirrors i e.run_mirrors f)
    cases n? <;> rfl
  | pushRow values => exact answering_copy done (pushRow_oblivious values f)
  | insertRow pos values => exact answering_copy done (insertRow_oblivious pos values f)
  | pushRowFrom source row => exact answering_copy done (pushRowFrom_mirrors (frames source) row f)
  | insertRowFrom pos source row =>
    exact answering_copy done (insertRowFrom_mirrors pos (frames source) row f)
  | insertRowWithin pos row => exact answering_copy done (insertRowWithin_oblivious pos row f)
  | insertDefaultRows pos count => exact answering_copy done (insertDefaultRows_oblivious pos count f)
  | eraseRows first last => exact answering_copy (fun _ => rfl) (eraseRows_oblivious first last f)
  | popRow => exact answering_copy (fun _ => rfl) (popRow_oblivious f)
  | set row i value =>
    exact answering_copy done (writeColumn_mirrors i (Column.oblivious_setScalar row value) f)
  | sort keys => exact answering_copy done (sortBy_oblivious false keys f)
  | reverseSort keys => exact answering_copy done (sortBy_oblivious true keys f)
  | retain condition => exact answering_copy (fun _ => rfl) (retain_oblivious condition f)
  | derive name e placement =>
    exact answering_copy done (deriveWith_oblivious (fun _ _ => Column.fresh_of_infer) e placement f)
  | deriveAs t name e placement =>
    exact answering_copy done (deriveWith_oblivious (fun _ _ => Column.fresh_of_scalars) e placement f)

def Build.copy : Build → Build
  | .ofColumns columns => .ofColumns (columns.map Column.copy)
  | .withColumn f c => .withColumn f c.copy
  | b => b

theorem Build.run_copy (frames : Nat → Frame) (indices : Nat → Option GroupIndex) (b : Build) :
    b.copy.run (fun i => (frames i).copy) indices = (b.run frames indices).map Frame.copy := by
  cases b with
  | ofColumns columns => exact ofColumns_copy columns
  | clone i => rfl
  | select i positions => exact (frames i).select_copy positions
  | withColumn i c =>
    exact (congrArg Outcome.result (addColumn_mirrors c (frames i))).trans (Outcome.result_map _ _)
  | takeRows i rows => exact (frames i).takeRows_copy rows
  | takeRowsOrDefault i rows => exact (frames i).takeRowsOrDefault_copy rows
  | hcat i j => exact (frames i).hcat_copy (frames j)
  | vcat i j => exact (frames i).vcat_copy (frames j)
  | filter i condition => exact (frames i).filter_copy condition
  | groupBy i keys aggregations options => exact (frames i).groupBy_copy keys aggregations options
  | aggregate i index aggregations options =>
    simp only [copy, run]
    cases indices index with
    | none => rfl
    | some g => exact g.aggregate_copy (frames i) aggregations options
  | join i leftKey j rightKey type options =>
    exact (frames i).join_copy leftKey (frames j) rightKey type options

end Frame

end Tabular
