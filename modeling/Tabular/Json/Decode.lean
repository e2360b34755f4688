import Tabular.Json.Basic

/-! Parts of JSON values, for readers of typed data. A part that is not there or not of the kind
wanted is `none`. -/

namespace Tabular.Json

def bool? : Json → Option Bool
  | bool b => some b
  | _ => none

def text? : Json → Option String
  | text s => some s
  | _ => none

/-- An integer from `low` up to `high`. A numeral with a point or an exponent is no integer. -/
def int? (low high : Int) : Json → Option Int
  | int n => if low ≤ n ∧ n ≤ high then some n else none
  | _ => none

def word? (j : Json) : Option UInt64 :=
  (j.int? 0 (UInt64.size - 1)).map fun n => UInt64.ofNat n.toNat

def signedWord? (j : Json) : Option Int64 :=
  (j.int? Int64.minValue.toInt Int64.maxValue.toInt).map Int64.ofInt

def list? {α : Type} (item? : Json → Option α) : Json → Option (List α)
  | list items => items.mapM item?
  | _ => none

def nullable? {α : Type} (value? : Json → Option α) : Json → Option (Option α)
  | null => some none
  | j => (value? j).map some

def orNull {α : Type} (write : α → Json) : Option α → Json
  | some a => write a
  | none => null

/-- The value of a member that must not repeat, and whether there is one. -/
def member? (members : List (String × Json)) (name : String) : Option (Option Json) :=
  match members.filter (·.1 = name) with
  | [] => some none
  | [m] => some (some m.2)
  | _ => none

def required? (members : List (String × Json)) (name : String) : Option Json :=
  (member? members name).join

def optional? {α : Type} (members : List (String × Json)) (name : String)
    (value? : Json → Option α) : Option (Option α) := do
  match ← member? members name with
  | some j => j.nullable? value?
  | none => some none

def single? (name : String) : Json → Option Json
  | object members => required? members name
  | list [a] => some a
  | _ => none

/-- The two parts of a record, by name, or in their order if the record is a list. Other members are
of no account. -/
def pair? (first second : String) : Json → Option (Json × Json)
  | object members => do return (← required? members first, ← required? members second)
  | list [a, b] => some (a, b)
  | _ => none

/-- The content of a name that comes without any. -/
def nothing? : Option Json → Option Unit
  | none => some ()
  | some null => some ()
  | _ => none

/-- A choice among names, one of which may come with a value. -/
def variant? : Json → Option (String × Option Json)
  | text name => some (name, none)
  | object [(name, j)] => some (name, some j)
  | _ => none

def name? (j : Json) : Option String :=
  match j.variant? with
  | some (name, content?) => (nothing? content?).map fun _ => name
  | none => none

/-- How a value comes to its reader: straight from the text, or after it was put by. -/
inductive Delivery
  | direct
  | putBy
  deriving DecidableEq, Repr

/-- A name among others, always on its own. Of what was put by, its number among them will do. -/
def label? (delivery : Delivery) (names : List String) : Json → Option String
  | text name => some name
  | int n => if delivery = .putBy ∧ 0 ≤ n then names[n.toNat]? else none
  | _ => none

/-- A name among others and what comes with it: as two members, of which the second may be left out,
or both in a list. -/
def tagged? (delivery : Delivery) (names : List String) (tag content : String) :
    Json → Option (String × Option Json)
  | object members => do return (← (← required? members tag).name?, ← member? members content)
  | list [a, b] => do return (← a.label? delivery names, some b)
  | _ => none

end Tabular.Json
