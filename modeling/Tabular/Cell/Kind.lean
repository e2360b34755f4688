/-! The types a column's elements can have. -/

namespace Tabular

inductive IntWidth
  | i8
  | i16
  | i32
  | i64
  | u8
  | u16
  | u32
  deriving DecidableEq, Repr

namespace IntWidth

def name : IntWidth → String
  | i8 => "i8"
  | i16 => "i16"
  | i32 => "i32"
  | i64 => "i64"
  | u8 => "u8"
  | u16 => "u16"
  | u32 => "u32"

def signed : IntWidth → Bool
  | i8 | i16 | i32 | i64 => true
  | u8 | u16 | u32 => false

def bits : IntWidth → Nat
  | i8 | u8 => 8
  | i16 | u16 => 16
  | i32 | u32 => 32
  | i64 => 64

def count (w : IntWidth) : Nat := 1 <<< w.bits

def lowest (w : IntWidth) : Int := if w.signed then -(w.count / 2 : Nat) else 0

def highest (w : IntWidth) : Int := w.lowest + w.count - 1

end IntWidth

/-- The type of a column's elements. A `foreign` type belongs to the library's user and is known by
its name only: its elements can be stored, copied and ordered, and have neither a default nor a
scalar form. -/
inductive CellType
  | int (width : IntWidth)
  | float32
  | float64
  | bool
  | text
  | foreign (name : String)
  | missing (inner : CellType)
  deriving DecidableEq, Repr, Inhabited

namespace CellType

def name : CellType → String
  | int w => w.name
  | float32 => "f32"
  | float64 => "f64"
  | bool => "bool"
  | text => "alloc::string::String"
  | foreign name => name
  | missing t => "tb_types::Missing<" ++ t.name ++ ">"

def allowsMissing : CellType → Bool
  | missing _ => true
  | _ => false

end CellType

end Tabular
