import CanonicalIdl.Declared.TypeExpr
import CanonicalIdl.Interface.Parts

/-!
# Declared interfaces

An interface as a generator wrote it: types may still be text, discriminators are lists
of bytes of any length, and an account may have its body inline or among the types.
-/

namespace CanonicalIdl.Declared

open Json

/-- A declared type definition. -/
abbrev Definition := TypeDefinition TypeExpr

/-- A declared account. -/
structure Account where
  name : String
  discriminator : Option (List UInt8)
  docs : List String
  body : Option (Body TypeExpr)
  extra : Extra

/-- A declared instruction. -/
structure Instruction where
  name : String
  docs : List String
  accounts : List AccountItem
  args : List (Field TypeExpr)
  discriminator : Option (List UInt8)
  /-- Missing optional accounts are left out. -/
  omitsMissing : Bool
  extra : Extra

/-- A declared interface. -/
structure Interface where
  address : Option String
  version : Option String
  name : Option String
  instructions : List Instruction
  accounts : List Account
  types : List Definition
  errors : List ErrorCode
  metadata : Option Metadata
  extra : Extra

/-- The name of the tool that wrote the interface, if it is recorded. -/
def Interface.origin (interface : Interface) : Option String :=
  interface.metadata.bind (·.origin)

end CanonicalIdl.Declared
