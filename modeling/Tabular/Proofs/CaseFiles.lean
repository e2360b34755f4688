import Tabular.Case.Codec
import Tabular.Proofs.JsonParts

/-! Cases written down and read again. Each part is read as what it was written for, whether it is read straight
from the text or was put by before; the members of an operation are told from those of its case by their names.
Only a double that is not finite cannot be written, and none is ever read. -/

namespace Tabular

open Json Number

theorem word?_positionJson (n : UInt64) : (positionJson n).word? = some n := Json.word?_int n

theorem Number.Binary64.isFinite_of_ofJson? {j : Json} {x : Binary64} (exact : j.Exact)
    (read : Binary64.ofJson? j = some x) : x.isFinite = true := by
  cases exact with
  | float finite =>
    cases read
    exact finite
  | int low high =>
    cases read
    have least : Int64.minValue.toInt = -9223372036854775808 := rfl
    have size : UInt64.size = 18446744073709551616 := rfl
    exact Binary64.isFinite_ofInt (by omega)
  | _ => cases read

namespace Scalar

/-- A double that is not finite is the only scalar that cannot be written. -/
def Finite : Scalar → Prop
  | float64 x => x.isFinite = true
  | _ => True

instance : DecidablePred Finite
  | float64 x => inferInstanceAs (Decidable (x.isFinite = true))
  | absent => isTrue trivial
  | bool _ => isTrue trivial
  | int64 _ => isTrue trivial
  | utf8 _ => isTrue trivial

theorem ofJson?_toJson (delivery : Json.Delivery) {s : Scalar} (finite : s.Finite) :
    ofJson? delivery s.toJson = some s := by
  have apart : "kind" ≠ "value" := by decide
  have written (kind : Kind) (value : Json) :
      ofJson? delivery (.object [("kind", .text kind.name), ("value", value)]) =
        ofKind? kind.name (some value) := by
    rw [ofJson?, Json.tagged?_object apart]
    rfl
  cases s with
  | absent => rfl
  | bool b => exact written .bool (.bool b)
  | int64 n =>
    refine (written .int64 (.int n.toInt)).trans ?_
    exact congrArg (Option.map int64) (Json.signedWord?_int n)
  | float64 x =>
    have itself : x.toJson = .float x := if_pos finite
    rw [toJson, itself]
    exact written .float64 (.float x)
  | utf8 s => exact written .utf8 (.text s)

theorem putBy?_toJson (s : Scalar) : s.toJson.putBy? = some s.toJson := by
  cases s with
  | float64 x =>
    rw [toJson, Binary64.toJson]
    split <;> rfl
  | _ => rfl

theorem finite_of_ofJson? {delivery : Json.Delivery} {j : Json} {s : Scalar} (exact : j.Exact)
    (read : ofJson? delivery j = some s) : s.Finite := by
  obtain ⟨⟨kind, value?⟩, told, made⟩ := Option.bind_eq_some_iff.1 read
  cases s with
  | float64 x =>
    dsimp only at made
    unfold ofKind? at made
    split at made
    case h_4 =>
      obtain ⟨_, read, same⟩ := Option.map_eq_some_iff.1 made
      cases same
      obtain ⟨v, rfl, read⟩ := Option.bind_eq_some_iff.1 read
      exact Binary64.isFinite_of_ofJson? (Json.exact_tagged? exact told) read
    case h_6 => cases made
    all_goals
      obtain ⟨_, _, same⟩ := Option.map_eq_some_iff.1 made
      cases same
  | _ => trivial

end Scalar

namespace FixtureColumn

theorem ofJson?_toJson {c : FixtureColumn} (finite : ∀ s ∈ c.values, s.Finite) :
    ofJson? c.toJson = some c := by
  have values : (Json.list (c.values.map Scalar.toJson)).list? (Scalar.ofJson? .direct) = some c.values :=
    Json.list?_map fun s mem => Scalar.ofJson?_toJson .direct (finite s mem)
  have apart : "name" ≠ "values" := by decide
  simp [ofJson?, toJson, Json.pair?_object apart, values, Json.text?]

theorem finite_of_ofJson? {j : Json} {c : FixtureColumn} (exact : j.Exact) (read : ofJson? j = some c) :
    ∀ s ∈ c.values, s.Finite := by
  obtain ⟨⟨name, values⟩, parts, read⟩ := Option.bind_eq_some_iff.1 read
  obtain ⟨_, -, read⟩ := Option.bind_eq_some_iff.1 read
  obtain ⟨scalars, listed, same⟩ := Option.bind_eq_some_iff.1 read
  cases same
  intro s mem
  obtain ⟨i, exact, made⟩ := Json.exists_of_list? (Json.exact_pair? exact parts).2 listed s mem
  exact Scalar.finite_of_ofJson? exact made

end FixtureColumn

namespace Fixture

def scalars (x : Fixture) : List Scalar := x.columns.flatMap FixtureColumn.values

theorem ofJson?_toJson {x : Fixture} (finite : ∀ s ∈ x.scalars, s.Finite) : ofJson? x.toJson = some x := by
  have columns : (Json.list (x.columns.map FixtureColumn.toJson)).list? FixtureColumn.ofJson? =
      some x.columns :=
    Json.list?_map fun c inside => FixtureColumn.ofJson?_toJson fun s mem =>
      finite s (List.mem_flatMap.2 ⟨c, inside, mem⟩)
  simp [ofJson?, toJson, Json.single?, Json.required?, Json.member?, columns]

theorem finite_of_ofJson? {j : Json} {x : Fixture} (exact : j.Exact) (read : ofJson? j = some x) :
    ∀ s ∈ x.scalars, s.Finite := by
  obtain ⟨columns, part, read⟩ := Option.bind_eq_some_iff.1 read
  obtain ⟨cs, listed, same⟩ := Option.bind_eq_some_iff.1 read
  cases same
  intro s mem
  obtain ⟨c, inside, mem⟩ := List.mem_flatMap.1 mem
  obtain ⟨i, exact, made⟩ := Json.exists_of_list? (Json.exact_single? exact part) listed c inside
  exact FixtureColumn.finite_of_ofJson? exact made s mem

end Fixture

namespace Aggregation

theorem ofJson?_toJson (a : Aggregation UInt64) : ofJson? a.toJson = some a := by
  cases a with
  | count => rfl
  | fold op column =>
    have apart : "op" ≠ "column" := by decide
    have named : op.name ≠ "count" := by cases op <;> decide
    simp [ofJson?, toJson, Json.tagged?_object apart, named, Fold.ofName?_name, word?_positionJson]

end Aggregation

namespace Operation

def scalars : Operation → List Scalar
  | filter _ _ value => [value]
  | _ => []

theorem ofMembers?_toMembers {op : Operation} (finite : ∀ s ∈ op.scalars, s.Finite) :
    ofMembers? op.keyword op.toMembers = some op := by
  have positions (ns : List UInt64) : (Json.list (ns.map positionJson)).list? Json.word? = some ns :=
    Json.list?_map fun n _ => word?_positionJson n
  cases op with
  | filter column op value =>
    have read := Scalar.ofJson?_toJson .putBy (finite value List.mem_cons_self)
    simp [ofMembers?, keyword, toMembers, Json.required?, Json.member?, word?_positionJson,
      BinaryOp.ofJson?_toJson, read]
  | shift column offset name =>
    simp [ofMembers?, keyword, toMembers, Json.required?, Json.member?, word?_positionJson,
      Json.signedWord?_int, Json.text?]
  | sort keys descending =>
    simp [ofMembers?, keyword, toMembers, Json.required?, Json.member?, positions, descending?, Json.bool?]
  | groupBy keys aggregations =>
    have read := Json.list?_map fun (a : Aggregation UInt64) (_ : a ∈ aggregations) => a.ofJson?_toJson
    simp [ofMembers?, keyword, toMembers, Json.required?, Json.member?, positions, read]
  | join leftKey rightKey type =>
    have named : (Json.text type.keyword).name? = some type.keyword := rfl
    simp [ofMembers?, keyword, toMembers, Json.required?, Json.member?, word?_positionJson, named,
      JoinType.ofKeyword?_keyword]
  | hcat => rfl
  | vcat => rfl

theorem finite_of_ofMembers? {keyword : String} {members : List (String × Json)} {op : Operation}
    (exact : ∀ m ∈ members, m.2.Exact) (read : ofMembers? keyword members = some op) :
    ∀ s ∈ op.scalars, s.Finite := by
  cases op with
  | filter column o value =>
    unfold ofMembers? at read
    split at read
    case h_1 =>
      -- The column and the operator come before the value.
      obtain ⟨_, -, read⟩ := Option.bind_eq_some_iff.1 read
      obtain ⟨_, -, read⟩ := Option.bind_eq_some_iff.1 read
      obtain ⟨_, -, read⟩ := Option.bind_eq_some_iff.1 read
      obtain ⟨_, -, read⟩ := Option.bind_eq_some_iff.1 read
      obtain ⟨j, there, read⟩ := Option.bind_eq_some_iff.1 read
      obtain ⟨v, made, same⟩ := Option.bind_eq_some_iff.1 read
      cases same
      exact List.forall_mem_singleton.2 (Scalar.finite_of_ofJson? (Json.exact_required? exact there) made)
    all_goals simp [Option.bind_eq_some_iff] at read
  | _ => exact nofun

theorem putBy?_toMembers (op : Operation) : ∀ m ∈ op.toMembers, m.2.putBy? = some m.2 := by
  have positions (ns : List UInt64) :
      (Json.list (ns.map positionJson)).putBy? = some (.list (ns.map positionJson)) :=
    Json.putBy?_list fun j mem => by
      obtain ⟨n, -, rfl⟩ := List.mem_map.1 mem
      rfl
  cases op with
  | filter column op value => simp [toMembers, Json.putBy?, positionJson, BinaryOp.toJson, value.putBy?_toJson]
  | shift column offset name => simp [toMembers, Json.putBy?, positionJson]
  | sort keys descending =>
    have flag : (Json.bool descending).putBy? = some (.bool descending) := rfl
    simp [toMembers, positions, flag]
  | groupBy keys aggregations =>
    have kept : (Json.list (aggregations.map Aggregation.toJson)).putBy? =
        some (.list (aggregations.map Aggregation.toJson)) :=
      Json.putBy?_list fun j mem => by
        obtain ⟨a, -, rfl⟩ := List.mem_map.1 mem
        cases a <;> rfl
    simp [toMembers, positions, kept]
  | join leftKey rightKey type => simp [toMembers, Json.putBy?, positionJson]
  | hcat => exact nofun
  | vcat => exact nofun

theorem names_toMembers (op : Operation) : ∀ m ∈ op.toMembers, m.1 ∉ Case.tag :: Case.ownMembers := by
  cases op <;> simp [toMembers, Case.tag, Case.ownMembers]

end Operation

namespace Case

def scalars (c : Case) : List Scalar :=
  c.operation.scalars ++ ([c.frame] ++ c.right?.toList ++ c.expected?.toList).flatMap Fixture.scalars

def telling (op : Operation) : List (String × Json) := (tag, text op.keyword) :: op.toMembers

theorem names_telling (op : Operation) : ∀ m ∈ telling op, m.1 ∉ ownMembers := by
  have untaken : tag ∉ ownMembers := by decide
  exact List.forall_mem_cons.2 ⟨untaken, fun m mem inside =>
    op.names_toMembers m mem (List.mem_cons_of_mem _ inside)⟩

theorem operation?_telling {op : Operation} (finite : ∀ s ∈ op.scalars, s.Finite)
    {before after : List (String × Json)} (own : ∀ m ∈ before ++ after, m.1 ∈ ownMembers) :
    operation? (before ++ telling op ++ after) = some op := by
  have none {ms : List (String × Json)} (own : ∀ m ∈ ms, m.1 ∈ ownMembers) :
      ms.filter (fun m => m.1 ∉ ownMembers) = [] :=
    List.filter_eq_nil_iff.2 fun m mem => by simpa using own m mem
  have left : (before ++ telling op ++ after).filter (fun m => m.1 ∉ ownMembers) = telling op := by
    have own := List.forall_mem_append.1 own
    rw [List.filter_append, List.filter_append, none own.1, none own.2, List.append_nil, List.nil_append]
    exact List.filter_eq_self.2 fun m mem => decide_eq_true (names_telling op m mem)
  have kept : putMembersBy? (telling op) = some (telling op) :=
    putMembersBy?_of_forall (List.forall_mem_cons.2 ⟨rfl, op.putBy?_toMembers⟩)
  have others : ∀ m ∈ op.toMembers, m.1 ≠ tag := fun m mem same =>
    op.names_toMembers m mem (same ▸ List.mem_cons_self)
  -- Of the members that are left only the first has the name of the tag.
  have told : required? (telling op) tag = some (text op.keyword) := by
    have alone := member?_middle others [(tag, text op.keyword)] []
    rw [List.append_nil] at alone
    exact congrArg Option.join alone
  have members : (telling op).filter (fun m => m.1 ≠ tag) = op.toMembers := by
    rw [telling, List.filter_cons_of_neg (by simp)]
    exact List.filter_eq_self.2 fun m mem => decide_eq_true (others m mem)
  simp only [operation?, left, kept, told, members, Option.bind_eq_bind, Option.bind_some, label?]
  exact Operation.ofMembers?_toMembers finite

theorem ofJson?_toJson {c : Case} (finite : ∀ s ∈ c.scalars, s.Finite) : ofJson? c.toJson = some c := by
  let before : List (String × Json) := [("case_id", .text c.id)]
  let after : List (String × Json) :=
    [("frame", c.frame.toJson), ("right", orNull Fixture.toJson c.right?),
      ("expected", orNull Fixture.toJson c.expected?),
      ("expected_error_contains", orNull text c.expectedError?)]
  let members := before ++ telling c.operation ++ after
  have own {name : String} (mem : name ∈ ownMembers) : member? members name = member? (before ++ after) name :=
    member?_middle (fun m inside same => names_telling c.operation m inside (same ▸ mem)) before after
  have id : required? members "case_id" = some (.text c.id) := congrArg Option.join (own (by decide))
  have operation : operation? members = some c.operation := by
    have names : (before ++ after).map Prod.fst = ownMembers := rfl
    exact operation?_telling (fun s mem => finite s (List.mem_append_left _ mem)) fun m mem =>
      names ▸ List.mem_map_of_mem mem
  have fixture : ∀ x ∈ [c.frame] ++ c.right?.toList ++ c.expected?.toList, Fixture.ofJson? x.toJson = some x :=
    fun x inside => Fixture.ofJson?_toJson fun s mem =>
      finite s (List.mem_append_right _ (List.mem_flatMap.2 ⟨x, inside, mem⟩))
  have frame : required? members "frame" = some c.frame.toJson := congrArg Option.join (own (by decide))
  have right : optional? members "right" Fixture.ofJson? = some c.right? :=
    (optional?_of_member (own (by decide))).trans
      (nullable?_orNull (fun x some => fixture x (by simp [some])) fun x => nofun)
  have expected : optional? members "expected" Fixture.ofJson? = some c.expected? :=
    (optional?_of_member (own (by decide))).trans
      (nullable?_orNull (fun x some => fixture x (by simp [some])) fun x => nofun)
  have message : optional? members "expected_error_contains" text? = some c.expectedError? :=
    (optional?_of_member (own (by decide))).trans (nullable?_orNull (fun s _ => rfl) fun s => nofun)
  have record : c.toJson = .object members := rfl
  have own := fixture c.frame (by simp)
  simp only [record, ofJson?, id, operation, frame, right, expected, message, text?, Option.bind_eq_bind,
    Option.bind_some, own]
  rfl

theorem finite_of_operation? {members : List (String × Json)} {op : Operation}
    (each : ∀ m ∈ members, m.2.Exact) (told : operation? members = some op) : ∀ s ∈ op.scalars, s.Finite := by
  obtain ⟨kept, put, told⟩ := Option.bind_eq_some_iff.1 told
  obtain ⟨_, -, told⟩ := Option.bind_eq_some_iff.1 told
  obtain ⟨keyword, -, told⟩ := Option.bind_eq_some_iff.1 told
  have own : ∀ m ∈ members.filter (fun m => m.1 ∉ ownMembers), m.2.Exact := fun m mem =>
    each m (List.mem_filter.1 mem).1
  have others := exact_putMembersBy? own put
  exact Operation.finite_of_ofMembers? (fun m mem => others m (List.mem_filter.1 mem).1) told

theorem finite_of_ofJson? {j : Json} {c : Case} (exact : j.Exact) (read : ofJson? j = some c) :
    ∀ s ∈ c.scalars, s.Finite := by
  cases exact with
  | @object members each =>
    obtain ⟨_, -, read⟩ := Option.bind_eq_some_iff.1 read
    obtain ⟨_, -, read⟩ := Option.bind_eq_some_iff.1 read
    obtain ⟨op, told, read⟩ := Option.bind_eq_some_iff.1 read
    obtain ⟨j, there, read⟩ := Option.bind_eq_some_iff.1 read
    obtain ⟨frame, made, read⟩ := Option.bind_eq_some_iff.1 read
    obtain ⟨right?, right, read⟩ := Option.bind_eq_some_iff.1 read
    obtain ⟨expected?, expected, read⟩ := Option.bind_eq_some_iff.1 read
    obtain ⟨_, -, same⟩ := Option.bind_eq_some_iff.1 read
    cases same
    have optional {name : String} {x? : Option Fixture}
        (found : optional? members name Fixture.ofJson? = some x?) :
        ∀ x ∈ x?.toList, ∃ j : Json, j.Exact ∧ Fixture.ofJson? j = some x := by
      intro x mem
      rw [Option.mem_toList.1 mem] at found
      exact exists_of_optional? each found
    have fixtures : ∀ x ∈ [frame] ++ right?.toList ++ expected?.toList,
        ∃ j : Json, j.Exact ∧ Fixture.ofJson? j = some x :=
      List.forall_mem_append.2 ⟨List.forall_mem_append.2
        ⟨List.forall_mem_singleton.2 ⟨j, exact_required? each there, made⟩, optional right⟩, optional expected⟩
    refine List.forall_mem_append.2 ⟨finite_of_operation? each told, fun s mem => ?_⟩
    obtain ⟨x, inside, mem⟩ := List.mem_flatMap.1 mem
    obtain ⟨j, exact, made⟩ := fixtures x inside
    exact Fixture.finite_of_ofJson? exact made s mem
  | _ => cases read

section Files

variable (read? : String → Option Json)

/-- The cases are had back from what is written for them, and from any text that is read as just this. -/
structure RoundTrips (cases : List Case) : Prop where
  value : listOfJson? (listToJson cases) = some cases
  text : ∀ s, read? s = some (listToJson cases) → loadWith read? s = .ok cases

theorem roundTrips_of_finite {cases : List Case} (finite : ∀ c ∈ cases, ∀ s ∈ c.scalars, s.Finite) :
    RoundTrips read? cases := by
  have value : listOfJson? (listToJson cases) = some cases :=
    list?_map fun c inside => ofJson?_toJson (finite c inside)
  refine ⟨value, fun s written => ?_⟩
  rw [loadWith, written, Option.bind_some, value]

variable {read?}

theorem finite_of_loadWith (exact : ReadsExactly read?) {document : String} {cases : List Case}
    (loaded : loadWith read? document = .ok cases) : ∀ c ∈ cases, ∀ s ∈ c.scalars, s.Finite := by
  rw [loadWith] at loaded
  split at loaded
  · next found =>
    cases loaded
    obtain ⟨j, read, listed⟩ := Option.bind_eq_some_iff.1 found
    intro c inside
    obtain ⟨i, exact, made⟩ := exists_of_list? (exact document j read) listed c inside
    exact finite_of_ofJson? exact made
  · cases loaded

end Files

/-- Cases whose doubles are finite are read again as they were written, whatever their operations, scalars and
parts that may be missing, and whatever reads the JSON. So are cases that were loaded from any text, in
whatever way it tells them, by a reader that finds no numbers but words and finite doubles. -/
theorem files_round_trip :
    (∀ read? (cases : List Case), (∀ c ∈ cases, ∀ s ∈ c.scalars, s.Finite) → RoundTrips read? cases) ∧
    (∀ read?, ReadsExactly read? → ∀ document cases, loadWith read? document = .ok cases →
      RoundTrips read? cases) ∧
    ∀ document cases, load document = .ok cases → RoundTrips parse? cases := by
  have again (read?) (exact : ReadsExactly read?) (document cases)
      (loaded : loadWith read? document = .ok cases) : RoundTrips read? cases :=
    roundTrips_of_finite read? (finite_of_loadWith exact loaded)
  exact ⟨fun read? _ finite => roundTrips_of_finite read? finite, again, again parse? readsExactly_parse⟩

private def tiny : Case :=
  ⟨"tiny", .filter 0 (.comparison .gt) (.float64 .negZero),
    ⟨[⟨"x", [.float64 .negZero, .float64 ⟨1⟩, .absent]⟩]⟩, none, some ⟨[⟨"x", [.float64 ⟨1⟩]⟩]⟩, none⟩

private def document : String :=
  "[\x7b\"frame\":\x7b\"columns\":[]\x7d,\"note\":[0],\"operation\":\"group_by\"," ++
    "\"aggregations\":[\x7b\"column\":2,\"op\":\"std_dev\"\x7d],\"keys\":[0],\"case_id\":\"spread\"\x7d]"

private def spread : Case := ⟨"spread", .groupBy [0] [.fold .stddev 2], ⟨[]⟩, none, none, none⟩

theorem files_round_trip_spread :
    (∀ c ∈ [tiny], ∀ s ∈ c.scalars, s.Finite) ∧ RoundTrips parse? [tiny] ∧ ReadsExactly parse? ∧
      load document = .ok [spread] ∧ RoundTrips parse? [spread] := by
  have finite : ∀ c ∈ [tiny], ∀ s ∈ c.scalars, s.Finite := by decide
  have read : (parse? document).bind listOfJson? = some [spread] := by decide +kernel
  have loaded : load document = .ok [spread] := by rw [load, loadWith, read]
  exact ⟨finite, files_round_trip.1 parse? _ finite, readsExactly_parse, loaded,
    files_round_trip.2.1 parse? readsExactly_parse _ _ loaded⟩

end Case

end Tabular
