import CanonicalIdl.Interface.Basic
import CanonicalIdl.Proofs.Declared.ReadInterfaces

/-!
# Reading a canonical interface

A canonical interface is written in a form in which it can be declared.  Every tree is
written out, so what is read is the interface with each of its trees as a declared type.

Main results:

- Theorem `TypeTree.toJson_declared`: a tree is written as the declared type of its shape.
- Theorem `readInterface_toJson`: reading a written interface declares it.
-/

namespace CanonicalIdl

open Json Document Declared

/-! ## Canonical parts as declared parts -/

namespace TypeTree

mutual

/-- The declared type of the shape of a tree. -/
def declared : TypeTree → TypeExpr
  | .primitive p => .named p.spelling
  | .option inner => .option (declared inner)
  | .vec inner => .vec (declared inner)
  | .array element length => .array (declared element) length
  | .tuple items => .tuple (declaredItems items)
  | .hashMap key value => .hashMap (declared key) (declared value)
  | .bTreeMap key value => .bTreeMap (declared key) (declared value)
  | .reference name arguments => .applied name (declaredArguments arguments)

/-- The declared types of the items of a tuple. -/
def declaredItems : List TypeTree → List TypeExpr
  | [] => []
  | item :: rest => declared item :: declaredItems rest

/-- The declared arguments of a reference. -/
def declaredArguments : List TypeTree → List GenericArgument
  | [] => []
  | item :: rest => .type (declared item) :: declaredArguments rest

end

/-- Trees are declared with as many arguments as they have. -/
theorem isEmpty_declaredArguments (arguments : List TypeTree) :
    (declaredArguments arguments).isEmpty = arguments.isEmpty := by
  cases arguments <;> rfl

mutual

/-- A tree is written as the declared type of its shape. -/
theorem toJson_declared : (tree : TypeTree) → tree.declared.toJson = tree.toJson
  | .primitive _ => rfl
  | .option inner => by simp [declared, TypeExpr.toJson, toJson, toJson_declared inner]
  | .vec inner => by simp [declared, TypeExpr.toJson, toJson, toJson_declared inner]
  | .array element _ => by simp [declared, TypeExpr.toJson, toJson, toJson_declared element]
  | .tuple items => by simp [declared, TypeExpr.toJson, toJson, toJsonItems_declared items]
  | .hashMap key value => by
    simp [declared, TypeExpr.toJson, toJson, toJson_declared key, toJson_declared value]
  | .bTreeMap key value => by
    simp [declared, TypeExpr.toJson, toJson, toJson_declared key, toJson_declared value]
  | .reference _ arguments => by
    simp only [declared, TypeExpr.toJson, toJson, isEmpty_declaredArguments,
      toJsonArguments_declared arguments]

/-- Items are written as they are declared. -/
theorem toJsonItems_declared :
    (items : List TypeTree) → TypeExpr.toJsonItems (declaredItems items) = toJsonItems items
  | [] => rfl
  | item :: rest => by
    simp [declaredItems, TypeExpr.toJsonItems, toJsonItems, toJson_declared item,
      toJsonItems_declared rest]

theorem toJsonArguments_declared : (arguments : List TypeTree) →
    TypeExpr.toJsonArguments (declaredArguments arguments) = toJsonArguments arguments
  | [] => rfl
  | item :: rest => by
    simp [declaredArguments, TypeExpr.toJsonArguments, TypeExpr.toJsonArgument, toJsonArguments,
      toJson_declared item, toJsonArguments_declared rest]

end

end TypeTree

/-- A canonical definition as a declared one. -/
def Definition.declared (definition : Definition) : Declared.Definition :=
  { definition with body := definition.body.map TypeTree.declared }

/-- A canonical account as a declared one. -/
def Account.declared (account : Account) : Declared.Account where
  name := account.name
  discriminator := account.discriminator.map (·.bytes)
  docs := account.docs
  body := some (account.body.map TypeTree.declared)
  extra := account.extra

/-- A canonical instruction as a declared one. -/
def Instruction.declared (instruction : Instruction) : Declared.Instruction where
  name := instruction.name
  docs := instruction.docs
  accounts := instruction.accounts
  args := instruction.args.map (Field.map TypeTree.declared)
  discriminator := instruction.discriminator.map (·.bytes)
  omitsMissing := instruction.omitsMissing
  extra := instruction.extra

/-- A canonical interface as a declared one. -/
def Interface.declared (interface : Interface) : Declared.Interface :=
  { interface with
    instructions := interface.instructions.map Instruction.declared
    accounts := interface.accounts.map Account.declared
    types := interface.types.map Definition.declared }

/-! ## Written forms -/

section Maps

variable {σ τ : Type} {encode : τ → Json} {f : σ → τ}

/-- A field is written with whatever its type is turned into. -/
theorem Field.toJson_map (field : Field σ) :
    (field.map f).toJson encode = field.toJson fun type => encode (f type) := rfl

theorem Fields.toJson_map (fields : Fields σ) :
    (fields.map f).toJson encode = fields.toJson fun type => encode (f type) := by
  cases fields <;>
    simp [Fields.map, Fields.toJson, Function.comp_def, Field.toJson_map]

theorem Variant.toJson_map (variant : Variant σ) :
    (variant.map f).toJson encode = variant.toJson fun type => encode (f type) := by
  obtain ⟨name, fields⟩ := variant
  cases fields <;> simp [Variant.map, Variant.toJson, optionalMember, Fields.toJson_map]

/-- So is a body. -/
theorem Body.toJson_map (body : Body σ) :
    (body.map f).toJson encode = body.toJson fun type => encode (f type) := by
  cases body <;>
    simp [Body.map, Body.toJson, Fields.toJson_map, Function.comp_def, Variant.toJson_map]

end Maps

/-- A body is written as the declared body is. -/
theorem Body.toJson_declared (body : Body TypeTree) :
    (body.map TypeTree.declared).toJson TypeExpr.toJson = body.toJson TypeTree.toJson := by
  rw [Body.toJson_map, funext TypeTree.toJson_declared]

/-- So is a field. -/
theorem Field.toJson_declared (field : Field TypeTree) :
    (field.map TypeTree.declared).toJson TypeExpr.toJson = field.toJson TypeTree.toJson := by
  rw [Field.toJson_map, funext TypeTree.toJson_declared]

/-- So is a definition. -/
theorem Definition.toJson_declared (definition : Definition) :
    definition.declared.toJson TypeExpr.toJson = definitionJson definition := by
  simp [Definition.declared, definitionJson, TypeDefinition.toJson, Body.toJson_declared]

/-- So is an account. -/
theorem Account.toJson_declared (account : Account) :
    account.declared.toJson = account.toJson := by
  obtain ⟨name, discriminator, docs, body, extra⟩ := account
  cases discriminator <;>
    simp [Account.declared, Declared.Account.toJson, Account.toJson, optionalMember, bytesJson,
      Discriminator.toJson, Body.toJson_declared]

/-! ## Reading records -/

theorem byte_ofNat (b : UInt8) : (ofJson (.ofNat b.toNat)).byte = .ok b := by
  have hlt := b.toNat_lt
  have hbound : (b.toNat : Int) < 256 := by omega
  simp [Json.ofNat, ofJson, byte, natBelow, hbound]

/-- The bytes of a discriminator are read back. -/
theorem orNull_list_byte (bytes : List UInt8) :
    (ofJson (bytesJson bytes)).orNull (list byte) = .ok (some bytes) := by
  rw [orNull_of_ne (by simp [bytesJson]), bytesJson,
    list_ofJson_array_self fun b _ => byte_ofNat b, ok_map]

namespace Declared

/-- The body of an account is read back where one may be missing. -/
theorem orNull_readBody {body : Body TypeExpr} (h : body.IsReadable) :
    (ofJson (body.toJson TypeExpr.toJson)).orNull readBody = .ok (some body) := by
  have hne : body.toJson TypeExpr.toJson ≠ .null := by cases body <;> nofun
  rw [orNull_of_ne hne, readBody_toJson h, ok_map]

/-- A declared account that was written is read back. -/
theorem readAccount_toJson {P : Document → Prop} {account : Account} (h : account.Keeps P) :
    readAccount (ofJson account.toJson) = .ok account := by
  obtain ⟨name, discriminator, docs, body, extra⟩ := account
  have hfold : foldMembers PartialAccount.step {} (ofMembers
      ([("name", .string name)] ++ optionalMember "discriminator" bytesJson discriminator ++
        docsMember docs ++ optionalMember "type" (Body.toJson TypeExpr.toJson) body ++
        extra.entries)) =
      .ok ⟨some name, discriminator.map some, given? docs, body.map some, extra.entries⟩ := by
    simp only [List.append_assoc, List.cons_append, List.nil_append, docsMember,
      listMember_eq_optionalMember]
    rw [foldMembers_member _ rfl,
      foldMembers_optionalMember (fun p bytes => { p with discriminator := bytes.map some }) rfl
        (fun bytes => once_map_of_eq_ok rfl (orNull_list_byte bytes)),
      foldMembers_optionalMember (fun p docs => { p with docs }) rfl
        (fun docs => once_map_of_eq_ok rfl (list_text_ofJson docs)),
      foldMembers_optionalMember_of_mem (fun p body => { p with body := body.map some }) rfl
        (fun body hbody => once_map_of_eq_ok rfl (orNull_readBody (h.body body hbody))),
      foldMembers_kept (fun p members => { p with extra := p.extra ++ members }) (by simp)
        (by simp) PartialAccount.step_kept _ h.extra.avoids]
    rfl
  rw [Account.toJson, ofJson, readAccount, members_of_foldMembers hfold]
  simp [required, Extra.ofMembers_entries]

/-- An instruction is read from what is written of it: its name, its documentation and what it
keeps read as they are, and its other parts as whatever the reading takes from their members. -/
theorem readInstruction_of_members (name : String) (docs : List String) {extra : Extra}
    (known : List (String × Json)) {accounts : List AccountItem} {args : List (Field TypeExpr)}
    {discriminator : Option (Option (List UInt8))} {omitsMissing : Option Bool}
    (hextra : ∀ member ∈ extra.entries, member.1 ∉ instructionKeys)
    (hknown : ∀ rest, foldMembers PartialInstruction.step
        { name := some name, docs := given? docs } (ofMembers (known ++ rest)) =
      foldMembers PartialInstruction.step
        { name := some name, docs := given? docs, accounts := some accounts, args := some args,
          discriminator, omitsMissing } (ofMembers rest)) :
    readInstruction (ofJson (.object (("name", .string name) ::
        (docsMember docs ++ (known ++ extra.entries))))) =
      .ok { name, docs, accounts, args, discriminator := discriminator.getD none,
            omitsMissing := omitsMissing.getD false, extra } := by
  have hfold : foldMembers PartialInstruction.step {} (ofMembers (("name", .string name) ::
      (docsMember docs ++ (known ++ extra.entries)))) =
      .ok ⟨some name, given? docs, some accounts, some args, discriminator, omitsMissing,
        extra.entries⟩ := by
    rw [docsMember, listMember_eq_optionalMember, foldMembers_member _ rfl,
      foldMembers_optionalMember (fun p docs => { p with docs }) rfl
        (fun docs => once_map_of_eq_ok rfl (list_text_ofJson docs)),
      hknown,
      foldMembers_kept (fun p members => { p with extra := p.extra ++ members }) (by simp)
        (by simp) PartialInstruction.step_kept _ hextra]
    rfl
  rw [ofJson, readInstruction, members_of_foldMembers hfold]
  simp [required, Extra.ofMembers_entries]

/-- An interface is read from what is written of it, however its lists are written: its other
members read as they are, and its lists as whatever the reading takes from theirs. -/
theorem readInterface_of_lists {P : Document → Prop} (interface : Interface)
    (lists : List (String × Json)) {instructions : Option (List Instruction)}
    {accounts : Option (List Account)} {types : Option (List Definition)}
    {errors : Option (List ErrorCode)}
    (hmetadata : ∀ metadata ∈ interface.metadata, metadata.extra.Keeps P metadataKeys)
    (hextra : interface.extra.Keeps P interfaceKeys)
    (hlists : ∀ rest, foldMembers PartialInterface.step
        { address := interface.address.map some, version := interface.version.map some,
          name := interface.name.map some } (ofMembers (lists ++ rest)) =
      foldMembers PartialInterface.step
        { address := interface.address.map some, version := interface.version.map some,
          name := interface.name.map some, instructions, accounts, types, errors }
        (ofMembers rest)) :
    readInterface (ofJson (.object (optionalMember "address" .string interface.address ++
        (optionalMember "version" .string interface.version ++
        (optionalMember "name" .string interface.name ++
        (lists ++ (optionalMember "metadata" Metadata.toJson interface.metadata ++
          interface.extra.entries))))))) =
      .ok { interface with
        instructions := instructions.getD [], accounts := accounts.getD []
        types := types.getD [], errors := errors.getD [] } := by
  have hread : ∀ metadata ∈ interface.metadata,
      (ofJson metadata.toJson).orNull readMetadata = .ok (some metadata) := fun metadata hmem => by
    rw [orNull_of_ne (by simp [Metadata.toJson]), readMetadata_toJson (hmetadata _ hmem), ok_map]
  have hfold : foldMembers PartialInterface.step {} (ofMembers
      (optionalMember "address" .string interface.address ++
        (optionalMember "version" .string interface.version ++
        (optionalMember "name" .string interface.name ++
        (lists ++ (optionalMember "metadata" Metadata.toJson interface.metadata ++
          interface.extra.entries)))))) =
      .ok ⟨interface.address.map some, interface.version.map some, interface.name.map some,
        instructions, accounts, types, errors, interface.metadata.map some,
        interface.extra.entries⟩ := by
    rw [foldMembers_optionalMember (fun p address => { p with address := address.map some }) rfl
        (fun _ => rfl),
      foldMembers_optionalMember (fun p version => { p with version := version.map some }) rfl
        (fun _ => rfl),
      foldMembers_optionalMember (fun p name => { p with name := name.map some }) rfl
        (fun _ => rfl),
      hlists,
      foldMembers_optionalMember_of_mem
        (fun p metadata => { p with metadata := metadata.map some }) rfl
        (fun metadata hmem => once_map_of_eq_ok rfl (hread metadata hmem)),
      foldMembers_kept (fun p members => { p with extra := p.extra ++ members }) (by simp)
        (by simp) PartialInterface.step_kept _ hextra.avoids]
    rfl
  rw [ofJson, readInterface, members_of_foldMembers hfold]
  simp [Extra.ofMembers_entries]

end Declared

/-- A definition is read as the declared one. -/
theorem readDefinition_definitionJson {P : Document → Prop} {definition : Definition}
    (h : definition.declared.Keeps P) :
    readDefinition (ofJson (definitionJson definition)) = .ok definition.declared := by
  rw [← Definition.toJson_declared]
  exact readDefinition_toJson h.body h.extra

/-- So is an account. -/
theorem readAccount_toJson {P : Document → Prop} {account : Account}
    (h : account.declared.Keeps P) :
    readAccount (ofJson account.toJson) = .ok account.declared := by
  rw [← Account.toJson_declared]
  exact Declared.readAccount_toJson h

/-- A written instruction is read with whatever items its written accounts are read as. -/
theorem readInstruction_of_accounts {instruction : Instruction} {items : List AccountItem}
    (haccounts : (ofJson (.array
      (instruction.accounts.map (AccountItem.toJson (flagMember "optional"))))).list readItem =
      .ok items)
    (hkept : ∀ member ∈ instruction.extra.entries, member.1 ∉ instructionKeys) :
    readInstruction (ofJson instruction.toJson) =
      .ok { instruction.declared with accounts := items } := by
  have hargs : (ofJson (.array (instruction.args.map (Field.toJson TypeTree.toJson)))).list
      readField = .ok (instruction.args.map (Field.map TypeTree.declared)) :=
    list_ofJson_array fun field _ => by rw [← Field.toJson_declared, readField_toJson]
  have hread := readInstruction_of_members instruction.name instruction.docs
    (optionalMember "discriminator" Discriminator.toJson instruction.discriminator ++
      ("accounts", .array
        (instruction.accounts.map (AccountItem.toJson (flagMember "optional")))) ::
      ("args", .array (instruction.args.map (Field.toJson TypeTree.toJson))) ::
      flagMember "legacyOptionalAccountsStrategy" instruction.omitsMissing) hkept fun rest => by
    simp only [List.append_assoc, List.cons_append]
    rw [foldMembers_optionalMember (fun p d => { p with discriminator := d.map (some ·.bytes) }) rfl
        (fun d : Discriminator => once_map_of_eq_ok rfl (orNull_list_byte d.bytes)),
      foldMembers_member _ (once_map_of_eq_ok rfl haccounts),
      foldMembers_member _ (once_map_of_eq_ok rfl hargs),
      foldMembers_flagMember (fun p omitsMissing => { p with omitsMissing }) rfl rfl]
  cases hd : instruction.discriminator <;>
    simpa [Instruction.toJson, Instruction.declared, hd] using hread

/-- So is an instruction. -/
theorem readInstruction_toJson {P : Document → Prop} {instruction : Instruction}
    (h : instruction.declared.IsReadable P) :
    readInstruction (ofJson instruction.toJson) = .ok instruction.declared :=
  readInstruction_of_accounts (list_ofJson_array_self fun item hitem =>
    readItem_toJson writesOptional_flagMember (h.accounts item hitem)) h.extra.avoids

/-! ## Reading interfaces -/

/-- A written interface is read with whatever its written instructions are read as. -/
theorem readInterface_of_instructions {P : Document → Prop} {Q : Declared.Instruction → Prop}
    {interface : Interface} {instructions : List Declared.Instruction}
    (h : interface.declared.HasParts P Q)
    (hinstructions : (ofJson (.array (interface.instructions.map Instruction.toJson))).list
      readInstruction = .ok instructions) :
    readInterface (ofJson interface.toJson) = .ok { interface.declared with instructions } := by
  have haccounts : (ofJson (.array (interface.accounts.map Account.toJson))).list
      readAccount = .ok (interface.accounts.map Account.declared) :=
    list_ofJson_array fun account haccount =>
      readAccount_toJson (h.accounts _ (List.mem_map_of_mem haccount))
  have htypes : (ofJson (.array (interface.types.map definitionJson))).list
      readDefinition = .ok (interface.types.map Definition.declared) :=
    list_ofJson_array fun definition hdefinition =>
      readDefinition_definitionJson (h.types _ (List.mem_map_of_mem hdefinition))
  have herrors : (ofJson (.array (interface.errors.map ErrorCode.toJson))).list
      readErrorCode = .ok interface.errors :=
    list_ofJson_array_self fun error _ => readErrorCode_toJson error
  have hread := readInterface_of_lists interface.declared
    (("instructions", .array (interface.instructions.map Instruction.toJson)) ::
      (listMember "accounts" Account.toJson interface.accounts ++
        (listMember "types" definitionJson interface.types ++
          listMember "errors" ErrorCode.toJson interface.errors)))
    h.metadata h.extra fun rest => by
      simp only [List.append_assoc, List.cons_append, listMember_eq_optionalMember]
      rw [foldMembers_member _ (once_map_of_eq_ok rfl hinstructions),
        foldMembers_optionalMember_of_mem
          (fun p accounts => { p with accounts := accounts.map (List.map Account.declared) }) rfl
          (fun accounts hmem => once_map_of_eq_ok rfl (by rw [eq_of_mem_given? hmem, haccounts])),
        foldMembers_optionalMember_of_mem
          (fun p types => { p with types := types.map (List.map Definition.declared) }) rfl
          (fun types hmem => once_map_of_eq_ok rfl (by rw [eq_of_mem_given? hmem, htypes])),
        foldMembers_optionalMember_of_mem (fun p errors => { p with errors }) rfl
          (fun errors hmem => once_map_of_eq_ok rfl (by rw [eq_of_mem_given? hmem, herrors]))]
  simpa [Interface.toJson, Interface.declared] using hread

/-- Reading a written interface declares it. -/
theorem readInterface_toJson {P : Document → Prop} {interface : Interface}
    (h : interface.declared.IsReadable P) :
    readInterface (ofJson interface.toJson) = .ok interface.declared :=
  readInterface_of_instructions h
    (list_ofJson_array fun _ hmem => readInstruction_toJson
      (h.instructions _ (List.mem_map_of_mem hmem)))

end CanonicalIdl
