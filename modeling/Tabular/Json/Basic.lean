import Tabular.Number.Binary64

/-! JSON values as a reader of typed data meets them. The members of an object keep their order and
may repeat. What is well formed and stands for no value, such as a number too great for a double, is
kept as unreadable, since it does no harm where nobody reads it. -/

namespace Tabular

inductive Json
  | null
  | bool (b : Bool)
  | int (n : Int)
  | float (x : Number.Binary64)
  | text (s : String)
  | list (items : List Json)
  | object (members : List (String × Json))
  | unreadable
  deriving Repr

namespace Json

mutual

/-- A value put by until it is known what to make of it. All of it must be readable. As the content
of a choice an empty object is then as good as null. -/
def putBy? : Json → Option Json
  | list items => (putAllBy? items).map list
  | object [(name, object [])] => some (object [(name, null)])
  | object members => (putMembersBy? members).map object
  | unreadable => none
  | j => some j

def putAllBy? : List Json → Option (List Json)
  | [] => some []
  | j :: js => do return (← putBy? j) :: (← putAllBy? js)

def putMembersBy? : List (String × Json) → Option (List (String × Json))
  | [] => some []
  | (name, j) :: ms => do return (name, ← putBy? j) :: (← putMembersBy? ms)

end

end Json

end Tabular
