import CanonicalIdl.Interface.Parts

/-!
# JSON form of the parts of an interface

Fields are written in a fixed order; empty lists and missing values are left out, and
the uninterpreted members follow in the order of their keys.
-/

namespace CanonicalIdl

open Json

/-- The JSON form of a parameter. -/
def GenericParameter.toJson : GenericParameter → Json
  | .type name => .object [("kind", .string "type"), ("name", .string name)]
  | .const name typeName =>
    .object [("kind", .string "const"), ("name", .string name), ("type", .string typeName)]

/-- The member of documentation lines. -/
def docsMember (docs : List String) : List (String × Json) :=
  listMember "docs" .string docs

/-- The JSON form of a field. -/
def Field.toJson {τ : Type} (encode : τ → Json) (field : Field τ) : Json :=
  .object ([("name", .string field.name)] ++ docsMember field.docs ++
    [("type", encode field.type)])

/-- The JSON form of fields. -/
def Fields.toJson {τ : Type} (encode : τ → Json) : Fields τ → Json
  | .named fields => .array (fields.map (Field.toJson encode))
  | .tuple types => .array (types.map encode)

/-- The JSON form of a variant. -/
def Variant.toJson {τ : Type} (encode : τ → Json) (variant : Variant τ) : Json :=
  .object ([("name", .string variant.name)] ++
    optionalMember "fields" (Fields.toJson encode) variant.fields)

/-- The JSON form of a body. -/
def Body.toJson {τ : Type} (encode : τ → Json) : Body τ → Json
  | .struct fields => .object [("kind", .string "struct"), ("fields", fields.toJson encode)]
  | .enum variants =>
    .object [("kind", .string "enum"),
      ("variants", .array (variants.map (Variant.toJson encode)))]
  | .aliasOf type => .object [("kind", .string "type"), ("alias", encode type)]

/-- The JSON form of a type definition. -/
def TypeDefinition.toJson {τ : Type} (encode : τ → Json) (definition : TypeDefinition τ) : Json :=
  .object ([("name", .string definition.name)] ++ docsMember definition.docs ++
    listMember "generics" GenericParameter.toJson definition.generics ++
    [("type", definition.body.toJson encode)] ++ definition.extra.entries)

/-- The JSON form of an account slot, its optional flag written by `optional`. -/
def AccountReference.toJson (optional : Bool → List (String × Json)) (slot : AccountReference) :
    Json :=
  .object ([("name", .string slot.name), ("writable", .bool slot.writable),
      ("signer", .bool slot.signer)] ++ optional slot.optional ++ docsMember slot.docs ++
    optionalMember "address" .string slot.address ++ slot.extra.entries)

mutual

/-- The JSON form of an account item. -/
def AccountItem.toJson (optional : Bool → List (String × Json)) : AccountItem → Json
  | .reference slot => slot.toJson optional
  | .collection name members =>
    .object
      [("name", .string name), ("accounts", .array (AccountItem.toJsonItems optional members))]

/-- The JSON forms of account items. -/
def AccountItem.toJsonItems (optional : Bool → List (String × Json)) : List AccountItem → List Json
  | [] => []
  | item :: rest => AccountItem.toJson optional item :: AccountItem.toJsonItems optional rest

end

/-- The JSON form of an error code. -/
def ErrorCode.toJson (error : ErrorCode) : Json :=
  .object ([("code", .ofNat error.code.toNat), ("name", .string error.name)] ++
    optionalMember "msg" .string error.message)

/-- The JSON form of the metadata. -/
def Metadata.toJson (metadata : Metadata) : Json :=
  .object (optionalMember "address" .string metadata.address ++
    optionalMember "origin" .string metadata.origin ++
    optionalMember "binaryVersion" .string metadata.binaryVersion ++
    optionalMember "libVersion" .string metadata.libVersion ++ metadata.extra.entries)

end CanonicalIdl
