import CanonicalIdl.Discriminator
import CanonicalIdl.Interface.PartsWriting
import CanonicalIdl.Definitions

/-!
# Canonical interfaces

An interface in which every type occurrence is a tree.
-/

namespace CanonicalIdl

open Json

/-- The tool that wrote an interface. -/
inductive Generator where
  | anchor
  | shank
  deriving Repr, DecidableEq

namespace Generator

/-- The name of a tool, as interfaces record it. -/
def tag : Generator → String
  | .anchor => "anchor"
  | .shank => "shank"

/-- The tool of a recorded name; where no name is recorded it is anchor. -/
def ofOrigin? : Option String → Option Generator
  | none => some .anchor
  | some "anchor" => some .anchor
  | some "shank" => some .shank
  | some _ => none

@[simp] theorem ofOrigin?_tag (generator : Generator) :
    ofOrigin? (some generator.tag) = some generator := by
  cases generator <;> rfl

end Generator

/-- The layout of an account on the chain. -/
structure Account where
  name : String
  discriminator : Option Discriminator
  docs : List String
  body : Body TypeTree
  extra : Extra

/-- An instruction of the program. -/
structure Instruction where
  name : String
  docs : List String
  discriminator : Option Discriminator
  accounts : List AccountItem
  args : List (Field TypeTree)
  /-- Missing optional accounts are left out instead of being replaced by the program. -/
  omitsMissing : Bool
  extra : Extra

/-- A program's interface with every type resolved. -/
structure Interface where
  address : Option String
  version : Option String
  name : Option String
  instructions : List Instruction
  accounts : List Account
  types : List Definition
  errors : List ErrorCode
  metadata : Option Metadata
  extra : Extra

namespace Interface

/-- The first instruction of a name. -/
def instruction? (interface : Interface) (name : String) : Option Instruction :=
  interface.instructions.find? (·.name == name)

/-- The first account of a name. -/
def account? (interface : Interface) (name : String) : Option Account :=
  interface.accounts.find? (·.name == name)

/-- The first type definition of a name. -/
def definition? (interface : Interface) (name : String) : Option Definition :=
  interface.types.find? (·.name == name)

/-- The address of the program: the one in the metadata, if there is one. -/
def programAddress (interface : Interface) : Option String :=
  (interface.metadata.bind (·.address)).or interface.address

end Interface

/-! ## JSON form -/

/-- The bytes of a discriminator as a value. -/
def Discriminator.toJson (d : Discriminator) : Json :=
  .array (d.bytes.map fun byte => .ofNat byte.toNat)

/-- The JSON form of an account. -/
def Account.toJson (account : Account) : Json :=
  .object ([("name", .string account.name)] ++
    optionalMember "discriminator" Discriminator.toJson account.discriminator ++
    docsMember account.docs ++ [("type", account.body.toJson TypeTree.toJson)] ++
    account.extra.entries)

/-- The JSON form of an instruction. -/
def Instruction.toJson (instruction : Instruction) : Json :=
  .object ([("name", .string instruction.name)] ++ docsMember instruction.docs ++
    optionalMember "discriminator" Discriminator.toJson instruction.discriminator ++
    [("accounts", .array (instruction.accounts.map (AccountItem.toJson (flagMember "optional")))),
     ("args", .array (instruction.args.map (Field.toJson TypeTree.toJson)))] ++
    flagMember "legacyOptionalAccountsStrategy" instruction.omitsMissing ++
    instruction.extra.entries)

/-- The JSON form of a type definition. -/
def definitionJson (definition : Definition) : Json :=
  definition.toJson TypeTree.toJson

/-- The JSON form of an interface. -/
def Interface.toJson (interface : Interface) : Json :=
  .object (optionalMember "address" .string interface.address ++
    optionalMember "version" .string interface.version ++
    optionalMember "name" .string interface.name ++
    [("instructions", .array (interface.instructions.map Instruction.toJson))] ++
    listMember "accounts" Account.toJson interface.accounts ++
    listMember "types" definitionJson interface.types ++
    listMember "errors" ErrorCode.toJson interface.errors ++
    optionalMember "metadata" Metadata.toJson interface.metadata ++ interface.extra.entries)

end CanonicalIdl
