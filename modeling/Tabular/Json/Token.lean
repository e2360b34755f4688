import Tabular.Json.Literal

/-! The words of a JSON text. -/

namespace Tabular.Json

inductive Token
  | leftBracket
  | rightBracket
  | leftBrace
  | rightBrace
  | comma
  | colon
  /-- A text, of which half a surrogate pair makes nonsense. -/
  | text (s? : Option String)
  /-- A numeral or a word that stands for a value. -/
  | value (j : Json)
  deriving Repr

namespace Token

def isBlank (c : Char) : Bool := c == ' ' || c == '\n' || c == '\t' || c == '\x0d'

def hexValue? (c : Char) : Option Nat :=
  if '0' ≤ c ∧ c ≤ '9' then some (c.toNat - 48)
  else if 'a' ≤ c ∧ c ≤ 'f' then some (c.toNat - 87)
  else if 'A' ≤ c ∧ c ≤ 'F' then some (c.toNat - 55)
  else none

def codeUnit? (a b c d : Char) : Option Nat := do
  return (((← hexValue? a) * 16 + (← hexValue? b)) * 16 + (← hexValue? c)) * 16 + (← hexValue? d)

def unescape? (c : Char) : Option Nat :=
  match c with
  | '"' => some 34
  | '\\' => some 92
  | '/' => some 47
  | 'b' => some 8
  | 'f' => some 12
  | 'n' => some 10
  | 'r' => some 13
  | 't' => some 9
  | _ => none

/-- The code points and lone code units of a text up to its closing quote, and what follows it. -/
def lexText : List Char → Option (List Nat × List Char)
  | [] => none
  | '"' :: rest => some ([], rest)
  | '\\' :: 'u' :: a :: b :: c :: d :: rest => do
    let unit ← codeUnit? a b c d
    let (units, rest) ← lexText rest
    return (unit :: units, rest)
  | '\\' :: c :: rest => do
    let unit ← unescape? c
    let (units, rest) ← lexText rest
    return (unit :: units, rest)
  | c :: rest =>
    if c.toNat < 0x20 then none
    else do
      let (units, rest) ← lexText rest
      return (c.toNat :: units, rest)

def isLeading (unit : Nat) : Bool := 0xd800 ≤ unit && unit < 0xdc00

def isTrailing (unit : Nat) : Bool := 0xdc00 ≤ unit && unit < 0xe000

/-- Join the halves of surrogate pairs. -/
def joinPairs : List Nat → Option (List Char)
  | [] => some []
  | [unit] => if isLeading unit || isTrailing unit then none else some [Char.ofNat unit]
  | a :: b :: rest =>
    if isLeading a then
      if isTrailing b then
        (joinPairs rest).map (Char.ofNat (0x10000 + (a - 0xd800) * 0x400 + (b - 0xdc00)) :: ·)
      else none
    else if isTrailing a then none
    else (joinPairs (b :: rest)).map (Char.ofNat a :: ·)

def isDigit (c : Char) : Bool := '0' ≤ c && c ≤ '9'

def lexDigits (cs : List Char) : List Nat × List Char :=
  ((cs.takeWhile isDigit).map fun c => c.toNat - 48, cs.dropWhile isDigit)

def lexDigits? (cs : List Char) : Option (List Nat × List Char) :=
  let (digits, rest) := lexDigits cs
  if digits.isEmpty then none else some (digits, rest)

def lexFraction : List Char → Option (Option (List Nat) × List Char)
  | '.' :: cs => (lexDigits? cs).map fun (digits, rest) => (some digits, rest)
  | cs => some (none, cs)

def lexSign : List Char → Bool × List Char
  | '-' :: cs => (true, cs)
  | '+' :: cs => (false, cs)
  | cs => (false, cs)

def lexExponent : List Char → Option (Option (Bool × List Nat) × List Char)
  | c :: cs =>
    if c == 'e' || c == 'E' then
      let (negative, cs) := lexSign cs
      (lexDigits? cs).map fun (digits, rest) => (some (negative, digits), rest)
    else some (none, c :: cs)
  | [] => some (none, [])

/-- The digits before the point, which do not begin with a zero unless it is the only one. -/
def lexWhole (cs : List Char) : Option (List Nat × List Char) := do
  let (digits, rest) ← lexDigits? cs
  if digits.head? = some 0 ∧ digits.length ≠ 1 then none else some (digits, rest)

def lexNumeral (cs : List Char) : Option (Literal × List Char) := do
  let (negative, cs) := match cs with
    | '-' :: cs => (true, cs)
    | cs => (false, cs)
  let (whole, cs) ← lexWhole cs
  let (fraction?, cs) ← lexFraction cs
  let (exponent?, cs) ← lexExponent cs
  return (⟨negative, whole, fraction?, exponent?⟩, cs)

def lexOne : List Char → Option (Token × List Char)
  | '[' :: cs => some (leftBracket, cs)
  | ']' :: cs => some (rightBracket, cs)
  | '{' :: cs => some (leftBrace, cs)
  | '}' :: cs => some (rightBrace, cs)
  | ',' :: cs => some (comma, cs)
  | ':' :: cs => some (colon, cs)
  | '"' :: cs => (lexText cs).map fun (units, cs) => (text ((joinPairs units).map String.ofList), cs)
  | 'n' :: 'u' :: 'l' :: 'l' :: cs => some (value .null, cs)
  | 't' :: 'r' :: 'u' :: 'e' :: cs => some (value (.bool true), cs)
  | 'f' :: 'a' :: 'l' :: 's' :: 'e' :: cs => some (value (.bool false), cs)
  | cs => (lexNumeral cs).map fun (l, cs) => (value l.toJson, cs)

/-- All tokens. Every token takes at least one character, so the length of the text is fuel
enough. -/
def lexAll : (fuel : Nat) → List Char → Option (List Token)
  | 0, _ => some []
  | fuel + 1, cs =>
    match cs.dropWhile isBlank with
    | [] => some []
    | cs => do
      let (token, rest) ← lexOne cs
      return token :: (← lexAll fuel rest)

def ofString? (s : String) : Option (List Token) := lexAll s.length s.toList

end Token

end Tabular.Json
