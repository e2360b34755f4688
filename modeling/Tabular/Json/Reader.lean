import Tabular.Json.Token

/-! From the words of a JSON text to its value. -/

namespace Tabular.Json

def maxNesting : Nat := 127

/-- A list or an object that stands in `room` others fewer than are allowed. -/
def nested (room : Nat) (j : Json) : Json := if room = 0 then unreadable else j

mutual

/-- A value and the tokens after it. A call takes one token at least, so the number of tokens is
fuel enough. -/
def readValue : (fuel room : Nat) → List Token → Option (Json × List Token)
  | 0, _, _ => none
  | fuel + 1, room, tokens =>
    match tokens with
    | .value j :: rest => some (j, rest)
    | .text s? :: rest => some ((s?.map text).getD unreadable, rest)
    | .leftBracket :: .rightBracket :: rest => some (nested room (list []), rest)
    | .leftBracket :: rest => do
      let (items, rest) ← readItems fuel (room - 1) rest
      return (nested room (list items), rest)
    | .leftBrace :: .rightBrace :: rest => some (nested room (object []), rest)
    | .leftBrace :: rest => do
      let (members?, rest) ← readMembers fuel (room - 1) rest
      return (nested room ((members?.map object).getD unreadable), rest)
    | _ => none

def readItems : (fuel room : Nat) → List Token → Option (List Json × List Token)
  | 0, _, _ => none
  | fuel + 1, room, tokens => do
    let (item, rest) ← readValue fuel room tokens
    match rest with
    | .rightBracket :: rest => return ([item], rest)
    | .comma :: rest =>
      let (items, rest) ← readItems fuel room rest
      return (item :: items, rest)
    | _ => none

/-- The members of an object up to its closing brace, unless the name of one is nonsense. -/
def readMembers : (fuel room : Nat) → List Token →
    Option (Option (List (String × Json)) × List Token)
  | 0, _, _ => none
  | fuel + 1, room, tokens =>
    match tokens with
    | .text name? :: .colon :: rest => do
      let (value, rest) ← readValue fuel room rest
      let member? := name?.map fun name => (name, value)
      match rest with
      | .rightBrace :: rest => return (member?.map ([·]), rest)
      | .comma :: rest =>
        let (members?, rest) ← readMembers fuel room rest
        return (do return (← member?) :: (← members?), rest)
      | _ => none
    | _ => none

end

def parse? (s : String) : Option Json := do
  let tokens ← Token.ofString? s
  match ← readValue (tokens.length + 1) maxNesting tokens with
  | (j, []) => some j
  | _ => none

end Tabular.Json
