import CanonicalIdl.Text.Blank
import CanonicalIdl.Text.CaseMapping

/-!
# Primitive types

The scalar types that every interface may use without declaring them, their canonical
spelling, and the words that stand for them.

Main results:

- Theorem `ofWord?_spelling`: the canonical spelling of a primitive stands for it.
-/

namespace CanonicalIdl

open Text

/-- A scalar type. -/
inductive Primitive where
  | bool
  | u8
  | u16
  | u32
  | u64
  | u128
  | i8
  | i16
  | i32
  | i64
  | i128
  | f32
  | f64
  | string
  | publicKey
  | bytes
  deriving Repr, DecidableEq

namespace Primitive

/-- The canonical spelling. -/
def spelling : Primitive → String
  | .bool => "bool"
  | .u8 => "u8"
  | .u16 => "u16"
  | .u32 => "u32"
  | .u64 => "u64"
  | .u128 => "u128"
  | .i8 => "i8"
  | .i16 => "i16"
  | .i32 => "i32"
  | .i64 => "i64"
  | .i128 => "i128"
  | .f32 => "f32"
  | .f64 => "f64"
  | .string => "string"
  | .publicKey => "publicKey"
  | .bytes => "bytes"

/-- The words that stand for a primitive, in small letters. -/
def words : List (List Char × Primitive) :=
  [("bool".toList, .bool), ("pubkey".toList, .publicKey), ("publickey".toList, .publicKey),
   ("string".toList, .string), ("bytes".toList, .bytes),
   ("u8".toList, .u8), ("u16".toList, .u16), ("u32".toList, .u32), ("u64".toList, .u64),
   ("u128".toList, .u128),
   ("i8".toList, .i8), ("i16".toList, .i16), ("i32".toList, .i32), ("i64".toList, .i64),
   ("i128".toList, .i128),
   ("f32".toList, .f32), ("f64".toList, .f64)]

/-- The primitive that a word stands for, in any ASCII case and with blanks around it. -/
def ofWord? (text : List Char) : Option Primitive :=
  words.lookup (asciiLowered (trim text))

/-- The canonical spelling of a primitive stands for it. -/
theorem ofWord?_spelling (p : Primitive) : ofWord? p.spelling.toList = some p := by
  cases p <;> decide

end Primitive

end CanonicalIdl
