import CanonicalIdl.Digest.Sha256
import CanonicalIdl.Naming
import CanonicalIdl.Text.Numeral
import CanonicalIdl.Text.WordCase

/-!
# Discriminators

Account and instruction data start with an eight byte tag: the first bytes of the
digest of `namespace:name`, where the name is first brought to a fixed spelling.

Main results:

- Theorem `ofBytes?_eq_some_iff`: exactly the lists of eight bytes are discriminators.
-/

namespace CanonicalIdl

open Text

/-- An eight byte tag in front of account or instruction data. -/
structure Discriminator where
  bytes : List UInt8
  size : bytes.length = 8
  deriving DecidableEq

namespace Discriminator

/-- Declared bytes, if there are eight of them. -/
def ofBytes? (bytes : List UInt8) : Option Discriminator :=
  if h : bytes.length = 8 then some ⟨bytes, h⟩ else none

/-- The tag of a name in a namespace, the name taken as it is. -/
def hash (space name : String) : Discriminator where
  bytes := (Digest.sha256 (space ++ ":" ++ name).toUTF8.data.toList).take 8
  size := by simp

/-- How an account's name is spelled in its tag.  Names in snake or kebab case become
upper camel case; any other name keeps its capitals and gets a capital first character. -/
def accountSpelling (name : String) : String :=
  if name.toList.any isSeparator then String.ofList (upperCamelCase name.toList)
  else capitalized name

/-- How an instruction's name is spelled in its tag. -/
def instructionSpelling (name : String) : String :=
  String.ofList (snakeCase name.toList)

/-- The tag of the data of an account. -/
def ofAccount (name : String) : Discriminator :=
  hash "account" (accountSpelling name)

/-- The tag of the data of an instruction. -/
def ofInstruction (name : String) : Discriminator :=
  hash "global" (instructionSpelling name)

/-- Two hexadecimal digits. -/
def hexByte (byte : UInt8) : List Char :=
  [Nat.digitChar (byte.toNat / 16), Nat.digitChar (byte.toNat % 16)]

/-- The bytes in hexadecimal. -/
def hex (d : Discriminator) : String :=
  String.ofList (d.bytes.flatMap hexByte)

/-- The bytes as a bracketed list of numbers. -/
def display (d : Discriminator) : String :=
  String.ofList
    (['['] ++ List.intercalate [',', ' '] (d.bytes.map fun byte => decimal byte.toNat) ++ [']'])

/-- Exactly the lists of eight bytes are discriminators. -/
theorem ofBytes?_eq_some_iff {bytes : List UInt8} {d : Discriminator} :
    ofBytes? bytes = some d ↔ bytes = d.bytes := by
  unfold ofBytes?
  split
  · constructor
    · rintro h; cases h; rfl
    · rintro rfl; rfl
  · next h =>
    constructor
    · intro h'; cases h'
    · rintro rfl; exact absurd d.size h

/-- The bytes of a discriminator give it back. -/
@[simp] theorem ofBytes?_bytes (d : Discriminator) : ofBytes? d.bytes = some d :=
  ofBytes?_eq_some_iff.mpr rfl

end Discriminator

end CanonicalIdl
