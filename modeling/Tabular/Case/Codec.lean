import Tabular.Case.Run
import Tabular.Json.Codec
import Tabular.Json.Reader

/-! The JSON of cases. The members of an operation stand among those of its case, and a member that
tells the operation decides which others it has. -/

namespace Tabular

open Json

namespace FixtureColumn

def toJson (c : FixtureColumn) : Json :=
  .object [("name", .text c.name), ("values", .list (c.values.map Scalar.toJson))]

def ofJson? (j : Json) : Option FixtureColumn := do
  let (name, values) ← j.pair? "name" "values"
  return ⟨← name.text?, ← values.list? (Scalar.ofJson? .direct)⟩

end FixtureColumn

namespace Fixture

def toJson (x : Fixture) : Json := .object [("columns", .list (x.columns.map FixtureColumn.toJson))]

def ofJson? (j : Json) : Option Fixture := do
  return ⟨← (← j.single? "columns").list? FixtureColumn.ofJson?⟩

end Fixture

namespace Fold

def ofName? (s : String) : Option Fold :=
  match s with
  | "sum" => some sum
  | "min" => some min
  | "max" => some max
  | "mean" => some mean
  | "stddev" => some stddev
  | "std_dev" => some stddev
  | _ => none

theorem ofName?_name (f : Fold) : ofName? f.name = some f := by cases f <;> rfl

end Fold

def positionJson (n : UInt64) : Json := .int n.toNat

namespace Aggregation

def toJson : Aggregation UInt64 → Json
  | fold op column => .object [("op", .text op.name), ("column", positionJson column)]
  | count => .object [("op", .text "count")]

/-- The names of what is computed, in the order in which they are numbered. -/
def opNames : List String := [Fold.sum, .min, .max, .mean, .stddev].map Fold.name ++ ["count"]

def ofJson? (j : Json) : Option (Aggregation UInt64) := do
  let (op, column?) ← j.tagged? .putBy opNames "op" "column"
  if op = "count" then nothing? column? |>.map fun _ => count
  else return fold (← Fold.ofName? op) (← (← column?).word?)

end Aggregation

namespace JoinType

def keyword : JoinType → String
  | inner => "inner"
  | left => "left"

def ofKeyword? (s : String) : Option JoinType := [inner, left].find? (·.keyword == s)

theorem ofKeyword?_keyword (type : JoinType) : ofKeyword? type.keyword = some type := by
  cases type <;> rfl

end JoinType

namespace Operation

def keyword : Operation → String
  | filter .. => "filter"
  | shift .. => "shift"
  | sort .. => "sort"
  | groupBy .. => "group_by"
  | join .. => "join"
  | hcat => "hcat"
  | vcat => "vcat"

def keywords : List String := ["filter", "shift", "sort", "group_by", "join", "hcat", "vcat"]

def toMembers : Operation → List (String × Json)
  | filter column op value =>
    [("column", positionJson column), ("op", op.toJson), ("value", value.toJson)]
  | shift column offset name =>
    [("column", positionJson column), ("offset", .int offset.toInt), ("name", .text name)]
  | sort keys descending =>
    [("by", .list (keys.map positionJson)), ("descending", .bool descending)]
  | groupBy keys aggregations =>
    [("keys", .list (keys.map positionJson)),
      ("aggregations", .list (aggregations.map Aggregation.toJson))]
  | join leftKey rightKey type =>
    [("left_key", positionJson leftKey), ("right_key", positionJson rightKey),
      ("join_type", .text type.keyword)]
  | hcat => []
  | vcat => []

def descending? (members : List (String × Json)) : Option Bool := do
  match ← member? members "descending" with
  | some j => j.bool?
  | none => some false

def ofMembers? (keyword : String) (members : List (String × Json)) : Option Operation := do
  match keyword with
  | "filter" =>
    return filter (← (← required? members "column").word?)
      (← BinaryOp.ofJson? (← required? members "op")) (← Scalar.ofJson? .putBy (← required? members "value"))
  | "shift" =>
    return shift (← (← required? members "column").word?)
      (← (← required? members "offset").signedWord?) (← (← required? members "name").text?)
  | "sort" =>
    return sort (← (← required? members "by").list? word?) (← descending? members)
  | "group_by" =>
    return groupBy (← (← required? members "keys").list? word?)
      (← (← required? members "aggregations").list? Aggregation.ofJson?)
  | "join" =>
    return join (← (← required? members "left_key").word?)
      (← (← required? members "right_key").word?)
      (← JoinType.ofKeyword? (← (← required? members "join_type").name?))
  | "hcat" => return hcat
  | "vcat" => return vcat
  | _ => none

end Operation

namespace Case

/-- The members of a case that are not its operation's. -/
def ownMembers : List String := ["case_id", "frame", "right", "expected", "expected_error_contains"]

def tag : String := "operation"

def toJson (c : Case) : Json :=
  .object ([("case_id", .text c.id), (tag, .text c.operation.keyword)] ++ c.operation.toMembers ++
    [("frame", c.frame.toJson), ("right", orNull Fixture.toJson c.right?),
      ("expected", orNull Fixture.toJson c.expected?),
      ("expected_error_contains", orNull text c.expectedError?)])

/-- The operation told by members that are not the case's own. All of these are put by until it is
known, and unknown ones among them forgotten. -/
def operation? (members : List (String × Json)) : Option Operation := do
  let members ← putMembersBy? (members.filter fun m => m.1 ∉ ownMembers)
  let keyword ← (← required? members tag).label? .putBy Operation.keywords
  Operation.ofMembers? keyword (members.filter fun m => m.1 ≠ tag)

def ofJson? : Json → Option Case
  | object members => do
    return ⟨← (← required? members "case_id").text?, ← operation? members,
      ← Fixture.ofJson? (← required? members "frame"), ← optional? members "right" Fixture.ofJson?,
      ← optional? members "expected" Fixture.ofJson?,
      ← optional? members "expected_error_contains" text?⟩
  | _ => none

def listToJson (cases : List Case) : Json := .list (cases.map toJson)

def listOfJson? (j : Json) : Option (List Case) := j.list? ofJson?

/-- The cases of a text, whatever reads its JSON. -/
def loadWith (read? : String → Option Json) (s : String) : Except Error (List Case) :=
  match (read? s).bind listOfJson? with
  | some cases => .ok cases
  | none => .error .malformedJson

def load (s : String) : Except Error (List Case) := loadWith parse? s

end Case

end Tabular
