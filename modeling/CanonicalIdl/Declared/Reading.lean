import CanonicalIdl.Declared.Basic
import CanonicalIdl.Json.Reader

/-!
# Reading declared interfaces

A type occurrence, a list of fields and an account item are read as a whole before the
first shape that fits is looked for; if none fits, the only fault is that none does.
Everything else is read field by field, so that the first fault in the text is reported.

Records that keep the members they do not know are read from objects only.  The others
may also be given as lists of their fields.
-/

namespace CanonicalIdl.Declared

open Json Document

/-! ## Types and fields -/

/-- A value of which some shape fits, by its name in messages. -/
def fitting {α : Type} (choice : String) (ofJson? : Json → Option α) (d : Document) :
    Reading α := do
  let value ← d.read
  match ofJson? value with
  | some a => return a
  | none => throw (.mismatch (.noVariant choice))

/-- A type occurrence. -/
def readType : Document → Reading TypeExpr :=
  fitting "RawType" TypeExpr.ofJson?

/-- A field while its members are read. -/
structure PartialField where
  name : Option String := none
  docs : Option (List String) := none
  type : Option TypeExpr := none

/-- One member of a field. -/
def PartialField.step (p : PartialField) (key : String) (value : Document) :
    Reading PartialField :=
  match key with
  | "name" => (once p.name "name" value.text).map fun name => { p with name }
  | "docs" => (once p.docs "docs" (value.list text)).map fun docs => { p with docs }
  | "type" => (once p.type "type" (readType value)).map fun type => { p with type }
  | _ => value.ignore.map fun _ => p

/-- A field. -/
def readField : Document → Reading (Field TypeExpr)
  | .object ms ending => do
    let p ← members PartialField.step {} ms ending
    let name ← required p.name "name"
    let type ← required p.type "type"
    return { name, docs := p.docs.getD [], type }
  | .array items ending =>
    let expected := "struct RawField with 3 elements"
    fields (do
      let name ← nextField 0 expected text
      let docs ← nextFieldOr [] (list text)
      let type ← nextField 2 expected readType
      return { name, docs, type }) endOfFields items ending
  | d => .error (d.unexpected "struct RawField")

/-- A field within a value that has been read as a whole. -/
def fieldOfJson? (value : Json) : Option (Field TypeExpr) :=
  (readField (ofJson value)).toOption

/-- Named fields if every item is a field, else types. -/
def fieldsOfJson? : Json → Option (Fields TypeExpr)
  | .array items =>
    match items.mapM fieldOfJson? with
    | some fields => some (.named fields)
    | none => (items.mapM TypeExpr.ofJson?).map .tuple
  | _ => none

/-- Named or positional fields. -/
def readFields : Document → Reading (Fields TypeExpr) :=
  fitting "RawFields" fieldsOfJson?

/-! ## Bodies -/

/-- A variant while its members are read. -/
structure PartialVariant where
  name : Option String := none
  fields : Option (Option (Fields TypeExpr)) := none

/-- One member of a variant. -/
def PartialVariant.step (p : PartialVariant) (key : String) (value : Document) :
    Reading PartialVariant :=
  match key with
  | "name" => (once p.name "name" value.text).map fun name => { p with name }
  | "fields" =>
    (once p.fields "fields" (value.orNull readFields)).map fun fields => { p with fields }
  | _ => value.ignore.map fun _ => p

/-- A variant within a body that has been read as a whole. -/
def readVariant : Document → Reading (Variant TypeExpr)
  | .object ms ending => do
    let p ← members PartialVariant.step {} ms ending
    let name ← required p.name "name"
    return { name, fields := p.fields.getD none }
  | .array items ending =>
    fields (do
      let name ← nextField 0 "struct RawEnumVariant with 2 elements" text
      let fields ← nextFieldOr none (orNull readFields)
      return { name, fields }) (endOfBufferedFields 2) items ending
  | d => .error (d.unexpected "struct RawEnumVariant")

/-- The kinds of bodies. -/
inductive BodyKind where
  | struct
  | enum
  | aliasOf
  deriving Repr, DecidableEq

/-- The kinds of bodies by their tags. -/
def bodyKinds : List (String × BodyKind) :=
  [("struct", .struct), ("enum", .enum), ("type", .aliasOf)]

/-- A record with a single field, from an object or a list. -/
def readSingle {α : Type} (key : String) (read : Document → Reading α)
    (take : FieldReader α) (finish : Option α → Reading α) : Json → Reading α
  | .array items => fields take (endOfBufferedFields 1) (ofItems items) .closed
  | .object ms => do
    let field ← members
      (fun field k value =>
        if k = key then once field key (read value) else value.ignore.map fun _ => field)
      none (ofMembers ms) .closed
    finish field
  | value => .error ((ofJson value).unexpected "a map")

/-- The content of a body of some kind. -/
def bodyContent (content : Json) : BodyKind → Reading (Body TypeExpr)
  | .struct =>
    (readSingle "fields" readFields (nextFieldOr (.named []) readFields)
      (fun field => .ok (field.getD (.named []))) content).map .struct
  | .enum =>
    (readSingle "variants" (list readVariant) (nextFieldOr [] (list readVariant))
      (fun field => .ok (field.getD [])) content).map .enum
  | .aliasOf =>
    (readSingle "alias" readType
      (nextField 0 "struct variant RawTypeBody::Alias with 1 element" readType)
      (required · "alias") content).map .aliasOf

/-- The body of a type definition or an account. -/
def readBody (d : Document) : Reading (Body TypeExpr) := do
  let (kind, content) ← tagged "internally tagged enum RawTypeBody" bodyKinds d
  bodyContent content kind

/-- The kinds of parameters of a definition. -/
inductive ParameterKind where
  | type
  | const
  deriving Repr, DecidableEq

/-- The kinds of parameters by their tags. -/
def parameterKinds : List (String × ParameterKind) :=
  [("type", .type), ("const", .const)]

/-- A constant parameter while its members are read. -/
structure PartialConst where
  name : Option String := none
  type : Option String := none

/-- One member of a constant parameter. -/
def PartialConst.step (p : PartialConst) (key : String) (value : Document) :
    Reading PartialConst :=
  match key with
  | "name" => (once p.name "name" value.text).map fun name => { p with name }
  | "type" => (once p.type "type" value.text).map fun type => { p with type }
  | _ => value.ignore.map fun _ => p

/-- The content of a parameter of some kind. -/
def parameterContent (content : Json) : ParameterKind → Reading GenericParameter
  | .type =>
    (readSingle "name" text
      (nextField 0 "struct variant GenericParam::Type with 1 element" text)
      (required · "name") content).map .type
  | .const =>
    match content with
    | .array items =>
      let expected := "struct variant GenericParam::Const with 2 elements"
      fields (do
        let name ← nextField 0 expected text
        let type ← nextField 1 expected text
        return .const name type) (endOfBufferedFields 2) (ofItems items) .closed
    | .object ms => do
      let p ← members PartialConst.step {} (ofMembers ms) .closed
      let name ← required p.name "name"
      let type ← required p.type "type"
      return .const name type
    | value => .error ((ofJson value).unexpected "a map")

/-- A parameter of a definition. -/
def readParameter (d : Document) : Reading GenericParameter := do
  let (kind, content) ← tagged "internally tagged enum GenericParam" parameterKinds d
  parameterContent content kind

/-! ## Account items -/

/-- An account slot while its members are read. -/
structure PartialReference where
  name : Option String := none
  writable : Option Bool := none
  signer : Option Bool := none
  optional : Option Bool := none
  docs : Option (List String) := none
  address : Option (Option String) := none
  extra : List (String × Json) := []

/-- One member of an account slot.  Each flag has two spellings, which are one field. -/
def PartialReference.step (p : PartialReference) (key : String) (value : Document) :
    Reading PartialReference :=
  match key with
  | "name" => (once p.name "name" value.text).map fun name => { p with name }
  | "writable" | "isMut" =>
    (once p.writable "writable" value.flag).map fun writable => { p with writable }
  | "signer" | "isSigner" =>
    (once p.signer "signer" value.flag).map fun signer => { p with signer }
  | "optional" | "isOptional" =>
    (once p.optional "optional" value.flag).map fun optional => { p with optional }
  | "docs" => (once p.docs "docs" (value.list text)).map fun docs => { p with docs }
  | "address" =>
    (once p.address "address" (value.orNull text)).map fun address => { p with address }
  | _ => value.read.map fun value => { p with extra := p.extra ++ [(key, value)] }

/-- An account slot. -/
def readReference : Document → Reading AccountReference
  | .object ms ending => do
    let p ← members PartialReference.step {} ms ending
    let name ← required p.name "name"
    return {
      name, writable := p.writable.getD false, signer := p.signer.getD false,
      optional := p.optional.getD false, docs := p.docs.getD [], address := p.address.getD none,
      extra := Extra.ofMembers p.extra }
  | d => .error (d.unexpected "struct RawAccountReference")

/-- An account slot within a value that has been read as a whole. -/
def referenceOfJson? (value : Json) : Option AccountItem :=
  (readReference (ofJson value)).toOption.map .reference

mutual

/-- A collection if the value has a name and a list of items, else a slot. -/
def itemOfJson? : Json → Option AccountItem
  | .array [name, members] =>
    match TypeExpr.string? name, membersOfJson? members with
    | some name, some members => some (.collection name members)
    | _, _ => none
  | .object members =>
    match (TypeExpr.only? "name" members).bind TypeExpr.string?, collected? members with
    | some name, some items => some (.collection name items)
    | _, _ => referenceOfJson? (.object members)
  | _ => none

/-- The items of a collection. -/
def membersOfJson? : Json → Option (List AccountItem)
  | .array items => itemsOfJson? items
  | _ => none

/-- A list of items. -/
def itemsOfJson? : List Json → Option (List AccountItem)
  | [] => some []
  | item :: rest =>
    match itemOfJson? item, itemsOfJson? rest with
    | some item, some rest => some (item :: rest)
    | _, _ => none

/-- The items under the only member of the key of collections. -/
def collected? : List (String × Json) → Option (List AccountItem)
  | [] => none
  | (k, value) :: rest =>
    if k = "accounts" then
      if TypeExpr.hasKey "accounts" rest then none else membersOfJson? value
    else collected? rest

end

/-- An account item. -/
def readItem : Document → Reading AccountItem :=
  fitting "RawInstructionAccountItem" itemOfJson?

/-! ## Instructions, accounts and definitions -/

/-- An instruction while its members are read. -/
structure PartialInstruction where
  name : Option String := none
  docs : Option (List String) := none
  accounts : Option (List AccountItem) := none
  args : Option (List (Field TypeExpr)) := none
  discriminator : Option (Option (List UInt8)) := none
  omitsMissing : Option Bool := none
  extra : List (String × Json) := []

/-- One member of an instruction. -/
def PartialInstruction.step (p : PartialInstruction) (key : String) (value : Document) :
    Reading PartialInstruction :=
  match key with
  | "name" => (once p.name "name" value.text).map fun name => { p with name }
  | "docs" => (once p.docs "docs" (value.list text)).map fun docs => { p with docs }
  | "accounts" =>
    (once p.accounts "accounts" (value.list readItem)).map fun accounts => { p with accounts }
  | "args" => (once p.args "args" (value.list readField)).map fun args => { p with args }
  | "discriminator" =>
    (once p.discriminator "discriminator" (value.orNull (list byte))).map
      fun discriminator => { p with discriminator }
  | "legacyOptionalAccountsStrategy" =>
    (once p.omitsMissing "legacyOptionalAccountsStrategy" value.flag).map
      fun omitsMissing => { p with omitsMissing }
  | _ => value.read.map fun value => { p with extra := p.extra ++ [(key, value)] }

/-- An instruction. -/
def readInstruction : Document → Reading Instruction
  | .object ms ending => do
    let p ← members PartialInstruction.step {} ms ending
    let name ← required p.name "name"
    return {
      name, docs := p.docs.getD [], accounts := p.accounts.getD [], args := p.args.getD [],
      discriminator := p.discriminator.getD none, omitsMissing := p.omitsMissing.getD false,
      extra := Extra.ofMembers p.extra }
  | d => .error (d.unexpected "struct RawInstruction")

/-- An account while its members are read. -/
structure PartialAccount where
  name : Option String := none
  discriminator : Option (Option (List UInt8)) := none
  docs : Option (List String) := none
  body : Option (Option (Body TypeExpr)) := none
  extra : List (String × Json) := []

/-- One member of an account. -/
def PartialAccount.step (p : PartialAccount) (key : String) (value : Document) :
    Reading PartialAccount :=
  match key with
  | "name" => (once p.name "name" value.text).map fun name => { p with name }
  | "discriminator" =>
    (once p.discriminator "discriminator" (value.orNull (list byte))).map
      fun discriminator => { p with discriminator }
  | "docs" => (once p.docs "docs" (value.list text)).map fun docs => { p with docs }
  | "type" => (once p.body "type" (value.orNull readBody)).map fun body => { p with body }
  | _ => value.read.map fun value => { p with extra := p.extra ++ [(key, value)] }

/-- An account. -/
def readAccount : Document → Reading Account
  | .object ms ending => do
    let p ← members PartialAccount.step {} ms ending
    let name ← required p.name "name"
    return {
      name, discriminator := p.discriminator.getD none, docs := p.docs.getD [],
      body := p.body.getD none, extra := Extra.ofMembers p.extra }
  | d => .error (d.unexpected "struct RawAccount")

/-- A type definition while its members are read. -/
structure PartialDefinition where
  name : Option String := none
  docs : Option (List String) := none
  generics : Option (List GenericParameter) := none
  body : Option (Body TypeExpr) := none
  extra : List (String × Json) := []

/-- One member of a type definition. -/
def PartialDefinition.step (p : PartialDefinition) (key : String) (value : Document) :
    Reading PartialDefinition :=
  match key with
  | "name" => (once p.name "name" value.text).map fun name => { p with name }
  | "docs" => (once p.docs "docs" (value.list text)).map fun docs => { p with docs }
  | "generics" =>
    (once p.generics "generics" (value.list readParameter)).map fun generics => { p with generics }
  | "type" => (once p.body "type" (readBody value)).map fun body => { p with body }
  | _ => value.read.map fun value => { p with extra := p.extra ++ [(key, value)] }

/-- A type definition. -/
def readDefinition : Document → Reading Definition
  | .object ms ending => do
    let p ← members PartialDefinition.step {} ms ending
    let name ← required p.name "name"
    let body ← required p.body "type"
    return {
      name, docs := p.docs.getD [], generics := p.generics.getD [], body,
      extra := Extra.ofMembers p.extra }
  | d => .error (d.unexpected "struct RawTypeDefinition")

/-! ## Errors, metadata and the interface -/

/-- An error code while its members are read. -/
structure PartialErrorCode where
  code : Option UInt32 := none
  name : Option String := none
  message : Option (Option String) := none

/-- One member of an error code. -/
def PartialErrorCode.step (p : PartialErrorCode) (key : String) (value : Document) :
    Reading PartialErrorCode :=
  match key with
  | "code" => (once p.code "code" value.word32).map fun code => { p with code }
  | "name" => (once p.name "name" value.text).map fun name => { p with name }
  | "msg" => (once p.message "msg" (value.orNull text)).map fun message => { p with message }
  | _ => value.ignore.map fun _ => p

/-- An error code. -/
def readErrorCode : Document → Reading ErrorCode
  | .object ms ending => do
    let p ← members PartialErrorCode.step {} ms ending
    let code ← required p.code "code"
    let name ← required p.name "name"
    return { code, name, message := p.message.getD none }
  | .array items ending =>
    let expected := "struct IdlErrorCode with 3 elements"
    fields (do
      let code ← nextField 0 expected word32
      let name ← nextField 1 expected text
      let message ← nextFieldOr none (orNull text)
      return { code, name, message }) endOfFields items ending
  | d => .error (d.unexpected "struct IdlErrorCode")

/-- The metadata while its members are read. -/
structure PartialMetadata where
  address : Option (Option String) := none
  origin : Option (Option String) := none
  binaryVersion : Option (Option String) := none
  libVersion : Option (Option String) := none
  extra : List (String × Json) := []

/-- One member of the metadata. -/
def PartialMetadata.step (p : PartialMetadata) (key : String) (value : Document) :
    Reading PartialMetadata :=
  match key with
  | "address" =>
    (once p.address "address" (value.orNull text)).map fun address => { p with address }
  | "origin" => (once p.origin "origin" (value.orNull text)).map fun origin => { p with origin }
  | "binaryVersion" =>
    (once p.binaryVersion "binaryVersion" (value.orNull text)).map
      fun binaryVersion => { p with binaryVersion }
  | "libVersion" =>
    (once p.libVersion "libVersion" (value.orNull text)).map fun libVersion => { p with libVersion }
  | _ => value.read.map fun value => { p with extra := p.extra ++ [(key, value)] }

/-- The metadata. -/
def readMetadata : Document → Reading Metadata
  | .object ms ending => do
    let p ← members PartialMetadata.step {} ms ending
    return {
      address := p.address.getD none, origin := p.origin.getD none,
      binaryVersion := p.binaryVersion.getD none, libVersion := p.libVersion.getD none,
      extra := Extra.ofMembers p.extra }
  | d => .error (d.unexpected "struct IdlMetadata")

/-- An interface while its members are read. -/
structure PartialInterface where
  address : Option (Option String) := none
  version : Option (Option String) := none
  name : Option (Option String) := none
  instructions : Option (List Instruction) := none
  accounts : Option (List Account) := none
  types : Option (List Definition) := none
  errors : Option (List ErrorCode) := none
  metadata : Option (Option Metadata) := none
  extra : List (String × Json) := []

/-- One member of an interface. -/
def PartialInterface.step (p : PartialInterface) (key : String) (value : Document) :
    Reading PartialInterface :=
  match key with
  | "address" =>
    (once p.address "address" (value.orNull text)).map fun address => { p with address }
  | "version" =>
    (once p.version "version" (value.orNull text)).map fun version => { p with version }
  | "name" => (once p.name "name" (value.orNull text)).map fun name => { p with name }
  | "instructions" =>
    (once p.instructions "instructions" (value.list readInstruction)).map
      fun instructions => { p with instructions }
  | "accounts" =>
    (once p.accounts "accounts" (value.list readAccount)).map fun accounts => { p with accounts }
  | "types" => (once p.types "types" (value.list readDefinition)).map fun types => { p with types }
  | "errors" =>
    (once p.errors "errors" (value.list readErrorCode)).map fun errors => { p with errors }
  | "metadata" =>
    (once p.metadata "metadata" (value.orNull readMetadata)).map
      fun metadata => { p with metadata }
  | _ => value.read.map fun value => { p with extra := p.extra ++ [(key, value)] }

/-- An interface. -/
def readInterface : Document → Reading Interface
  | .object ms ending => do
    let p ← members PartialInterface.step {} ms ending
    return {
      address := p.address.getD none, version := p.version.getD none, name := p.name.getD none,
      instructions := p.instructions.getD [], accounts := p.accounts.getD [],
      types := p.types.getD [], errors := p.errors.getD [], metadata := p.metadata.getD none,
      extra := Extra.ofMembers p.extra }
  | d => .error (d.unexpected "struct RawIdl")

end CanonicalIdl.Declared
