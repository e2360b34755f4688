import Tabular.Json.Decode
import Tabular.Series.Basic

/-! The JSON of scalars, operators and series. -/

namespace Tabular

open Number

/-- A double that is no number, or infinite, cannot be written. -/
def Number.Binary64.toJson (x : Binary64) : Json := if x.isFinite then .float x else .null

def Number.Binary64.ofJson? : Json → Option Binary64
  | .float x => some x
  | .int n => some (.ofInt n)
  | _ => none

namespace Scalar

private def tagged (kind : Kind) (value : Json) : Json :=
  .object [("kind", .text kind.name), ("value", value)]

def toJson : Scalar → Json
  | absent => .object [("kind", .text Kind.absent.name)]
  | bool b => tagged .bool (.bool b)
  | int64 n => tagged .int64 (.int n.toInt)
  | float64 x => tagged .float64 x.toJson
  | utf8 s => tagged .utf8 (.text s)

/-- The scalar of a kind with this value; to an absent one belongs no value. -/
def ofKind? (kind : String) (value? : Option Json) : Option Scalar :=
  match kind with
  | "absent" => (Json.nothing? value?).map fun _ => absent
  | "bool" => (value?.bind Json.bool?).map bool
  | "int64" => (value?.bind Json.signedWord?).map int64
  | "float64" => (value?.bind Binary64.ofJson?).map float64
  | "utf8" => (value?.bind Json.text?).map utf8
  | _ => none

def kindNames : List String := [Kind.absent, .bool, .int64, .float64, .utf8].map Kind.name

def ofJson? (delivery : Json.Delivery) (j : Json) : Option Scalar := do
  let (kind, value?) ← j.tagged? delivery kindNames "kind" "value"
  ofKind? kind value?

end Scalar

namespace UnaryOp

def keyword : UnaryOp → String
  | neg => "neg"
  | not => "not"

def ofKeyword? (s : String) : Option UnaryOp := [neg, not].find? (·.keyword == s)

def toJson (op : UnaryOp) : Json := .text op.keyword

def ofJson? (j : Json) : Option UnaryOp := j.name?.bind ofKeyword?

end UnaryOp

namespace BinaryOp

def keyword : BinaryOp → String
  | arithmetic .add => "add"
  | arithmetic .sub => "sub"
  | arithmetic .mul => "mul"
  | arithmetic .div => "div"
  | arithmetic .rem => "rem"
  | comparison .gt => "gt"
  | comparison .ge => "ge"
  | comparison .lt => "lt"
  | comparison .le => "le"
  | comparison .eq => "eq"
  | comparison .ne => "ne"
  | connective .and => "and"
  | connective .or => "or"

def all : List BinaryOp :=
  [.add, .sub, .mul, .div, .rem].map arithmetic ++
    [.gt, .ge, .lt, .le, .eq, .ne].map comparison ++ [.and, .or].map connective

def ofKeyword? (s : String) : Option BinaryOp := all.find? (·.keyword == s)

def toJson (op : BinaryOp) : Json := .text op.keyword

def ofJson? (j : Json) : Option BinaryOp := j.name?.bind ofKeyword?

theorem ofJson?_toJson (op : BinaryOp) : ofJson? op.toJson = some op := by
  rcases op with op | op | op <;> cases op <;> rfl

end BinaryOp

namespace Cell

/-- Elements are written as themselves. Where they may be missing, those present are marked. -/
def toJson : (t : CellType) → Cell t → Json
  | .int _, n => .int n.val
  | .float32, x => x.widen.toJson
  | .float64, x => Binary64.toJson x
  | .bool, b => .bool b
  | .text, s => .text s
  | .foreign _, _ => .null
  | .missing _, none => .text "absent"
  | .missing t, some c => .object [("present", toJson t c)]

def ofJson? : (t : CellType) → Json → Option (Cell t)
  | .int w, j => (j.int? w.lowest w.highest).bind w.ofInt?
  | .float32, .int n => some (.ofInt n)
  | .float32, j => (Binary64.ofJson? j).map .narrow
  | .float64, j => Binary64.ofJson? j
  | .bool, j => j.bool?
  | .text, j => j.text?
  | .foreign _, _ => none
  | .missing t, j =>
    match j.variant? with
    | some ("absent", content?) => (Json.nothing? content?).map fun _ => none
    | some ("present", some j) => (ofJson? t j).map some
    | _ => none

end Cell

namespace Buffer

def toJson (t : CellType) (b : Buffer (Cell t)) : Json := .list (b.items.map (Cell.toJson t))

def ofJson? (t : CellType) (j : Json) : Option (Buffer (Cell t)) :=
  (j.list? (Cell.ofJson? t)).map ofList

end Buffer

namespace Series

variable {t : CellType}

def toJson (s : Series t) : Json := .object [("name", .text s.name), ("values", s.buffer.toJson t)]

def ofJson? (t : CellType) (j : Json) : Option (Series t) := do
  let (name, values) ← j.pair? "name" "values"
  return ⟨← name.text?, ← Buffer.ofJson? t values, .fresh⟩

end Series

end Tabular
