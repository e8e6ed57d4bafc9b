import CanonicalIdl.Declared.Basic
import CanonicalIdl.Interface.PartsWriting

/-!
# JSON form of declared interfaces

A declared interface writes all its lists and flags, empty or not.
-/

namespace CanonicalIdl.Declared

open Json

/-- A list of bytes as a value. -/
def bytesJson (bytes : List UInt8) : Json :=
  .array (bytes.map fun byte => .ofNat byte.toNat)

/-- The JSON form of an account item; the optional flag is always written. -/
def itemJson : AccountItem → Json :=
  AccountItem.toJson fun optional => [("optional", .bool optional)]

/-- The JSON form of an instruction. -/
def Instruction.toJson (instruction : Instruction) : Json :=
  .object ([("name", .string instruction.name)] ++ docsMember instruction.docs ++
    [("accounts", .array (instruction.accounts.map itemJson)),
     ("args", .array (instruction.args.map (Field.toJson TypeExpr.toJson)))] ++
    optionalMember "discriminator" bytesJson instruction.discriminator ++
    [("legacyOptionalAccountsStrategy", .bool instruction.omitsMissing)] ++
    instruction.extra.entries)

/-- The JSON form of an account. -/
def Account.toJson (account : Account) : Json :=
  .object ([("name", .string account.name)] ++
    optionalMember "discriminator" bytesJson account.discriminator ++ docsMember account.docs ++
    optionalMember "type" (Body.toJson TypeExpr.toJson) account.body ++ account.extra.entries)

/-- The JSON form of an interface. -/
def Interface.toJson (interface : Interface) : Json :=
  .object (optionalMember "address" .string interface.address ++
    optionalMember "version" .string interface.version ++
    optionalMember "name" .string interface.name ++
    [("instructions", .array (interface.instructions.map Instruction.toJson)),
     ("accounts", .array (interface.accounts.map Account.toJson)),
     ("types", .array (interface.types.map (TypeDefinition.toJson TypeExpr.toJson))),
     ("errors", .array (interface.errors.map ErrorCode.toJson))] ++
    optionalMember "metadata" Metadata.toJson interface.metadata ++ interface.extra.entries)

end CanonicalIdl.Declared
