import CanonicalIdl.Proofs.Interface.Rereading
import CanonicalIdl.Proofs.Json.Rescanning
import CanonicalIdl.Proofs.Normalization.PlainTypes

/-!
# Interfaces on the plain path

On the path of shank an interface is kept as it was declared.  Its parts correspond one to
one and in order, and each keeps its name, its documentation and all that it holds but for
the types, which become trees.  What was normalized so and written out is read and
normalized to itself.

Main results:

- Theorem `keeps_normalize`: a result keeps everything but types.
- Theorem `normalize_declared`: a result of which no parameter was a primitive word is given back.
- Theorem `normalize_keeps_and_rereads`: the two for an interface that was read from a document.
-/

namespace CanonicalIdl

open Json Document
open Declared (TypeExpr)

/-- The types of a declared interface: those of arguments, accounts and types. -/
def Declared.Interface.typeExprs (interface : Declared.Interface) : List TypeExpr :=
  interface.instructions.flatMap (·.args.map (·.type)) ++
    interface.accounts.flatMap (·.body.toList.flatMap Body.types) ++
    interface.types.flatMap (·.body.types)

/-- The names of the parameters to which the types of a declared interface refer. -/
def Declared.Interface.genericNames (interface : Declared.Interface) : List String :=
  interface.typeExprs.flatMap TypeExpr.genericNames

namespace Shank

open Declared.TypeExpr (plainTree)

/-! ## What is kept -/

section Kept

variable (table : PrimitiveWords)

/-- An instruction that keeps all of a declared one but the types of its arguments. -/
structure KeepsInstruction (declared : Declared.Instruction) (instruction : Instruction) :
    Prop where
  name : instruction.name = declared.name
  docs : instruction.docs = declared.docs
  accounts : instruction.accounts = declared.accounts
  args : instruction.args = declared.args.map (Field.map (plainTree table))
  discriminator : instruction.discriminator.map (·.bytes) =
    declared.discriminator.filter (·.length = 8)
  omitsMissing : instruction.omitsMissing = declared.omitsMissing
  extra : instruction.extra = declared.extra

/-- An account that keeps all of a declared one but the types in its body, with the empty
struct for a body that was not declared. -/
structure KeepsAccount (declared : Declared.Account) (account : Account) : Prop where
  name : account.name = declared.name
  docs : account.docs = declared.docs
  body : account.body = (declared.body.map (Body.map (plainTree table))).getD .emptyStruct
  discriminator : account.discriminator.map (·.bytes) =
    declared.discriminator.filter (·.length = 8)
  extra : account.extra = declared.extra

/-- A definition that keeps all of a declared one but the types in its body. -/
structure KeepsDefinition (declared : Declared.Definition) (definition : Definition) : Prop where
  name : definition.name = declared.name
  docs : definition.docs = declared.docs
  generics : definition.generics = declared.generics
  body : definition.body = declared.body.map (plainTree table)
  extra : definition.extra = declared.extra

/-- An interface that keeps all of a declared one but its types: its parts are those declared,
each at its place, and there are no others. -/
structure Keeps (declared : Declared.Interface) (interface : Interface) : Prop where
  address : interface.address = declared.address
  version : interface.version = declared.version
  name : interface.name = declared.name
  instructions :
    List.Forall₂ (KeepsInstruction table) declared.instructions interface.instructions
  accounts : List.Forall₂ (KeepsAccount table) declared.accounts interface.accounts
  types : List.Forall₂ (KeepsDefinition table) declared.types interface.types
  errors : interface.errors = declared.errors
  metadata : interface.metadata = declared.metadata
  extra : interface.extra = declared.extra

end Kept

/-! ## Converted parts -/

section Parts

variable (table : PrimitiveWords)

/-- A field keeps its name and comments. -/
theorem value_field (f : Field TypeExpr) :
    (Conversion.field id f).value (read table) = f.map (plainTree table) := by
  simp [Conversion.field, Field.map, value_type]

/-- A body keeps its kind, its names and their order. -/
theorem value_body (b : Body TypeExpr) :
    (Conversion.body id b).value (read table) = b.map (plainTree table) := by
  rw [Conversion.value_body, Body.renamed_id]
  exact congrArg (Body.map · b) (funext (value_type table))

theorem value_accountBody (declared : Declared.Account) :
    (Conversion.accountBody id declared).value (read table) =
      (declared.body.map (Body.map (plainTree table))).getD .emptyStruct := by
  unfold Conversion.accountBody
  cases declared.body with
  | none => rfl
  | some body => exact value_body table body

end Parts

/-- A discriminator is kept exactly if it was declared with eight bytes. -/
theorem bytes_declaredDiscriminator? (declared : Option (List UInt8)) :
    (declaredDiscriminator? declared).map (·.bytes) = declared.filter (·.length = 8) := by
  cases declared with
  | none => rfl
  | some bytes =>
    by_cases h : bytes.length = 8 <;>
      simp [declaredDiscriminator?, Discriminator.ofBytes?, Option.filter, h]

mutual

/-- An item that is not renamed stays as it is. -/
theorem rename_id : (item : AccountItem) → item.rename id = item
  | .reference _ => rfl
  | .collection name members => congrArg (AccountItem.collection name) (renameItems_id members)

theorem renameItems_id : (items : List AccountItem) → AccountItem.renameItems id items = items
  | [] => rfl
  | item :: rest => congrArg₂ List.cons (rename_id item) (renameItems_id rest)

end

section Results

variable (table : PrimitiveWords) (raw : Declared.Interface)

/-- An instruction keeps its name, its items and the names of its arguments. -/
theorem keeps_instruction (declared : Declared.Instruction) :
    KeepsInstruction table declared ((instruction declared).value (read table)) := by
  rw [instruction, Conversion.value_instruction]
  exact {
    name := rfl
    docs := rfl
    accounts := renameItems_id declared.accounts
    args := List.map_congr_left fun f _ => value_field table f
    discriminator := bytes_declaredDiscriminator? declared.discriminator
    omitsMissing := rfl
    extra := rfl }

/-- An account keeps its name, its comments and its discriminator. -/
theorem keeps_account (declared : Declared.Account) :
    KeepsAccount table declared ((account declared).value (read table)) := by
  rw [value_account]
  exact {
    name := rfl
    docs := rfl
    body := value_accountBody table declared
    discriminator := bytes_declaredDiscriminator? declared.discriminator
    extra := rfl }

/-- A definition keeps its name, its comments and its parameters. -/
theorem keeps_definition (declared : Declared.Definition) :
    KeepsDefinition table declared ((Conversion.definition id declared).value (read table)) := by
  rw [Conversion.value_definition]
  exact {
    name := rfl
    docs := rfl
    generics := rfl
    body := value_body table declared.body
    extra := rfl }

/-- A result keeps everything but types. -/
theorem keeps_normalize : Keeps table raw (normalize table raw).1 := by
  rw [normalize_eq]
  exact {
    address := rfl
    version := rfl
    name := rfl
    instructions := List.forall₂_map_right_iff.mpr
      (List.forall₂_same.mpr fun declared _ => keeps_instruction table declared)
    accounts := List.forall₂_map_right_iff.mpr
      (List.forall₂_same.mpr fun declared _ => keeps_account table declared)
    types := List.forall₂_map_right_iff.mpr
      (List.forall₂_same.mpr fun declared _ => keeps_definition table declared)
    errors := rfl
    metadata := rfl
    extra := rfl }

end Results

/-! ## Results that are read again -/

section Again

variable {table : PrimitiveWords} {raw : Declared.Interface} {P : Document → Prop}

theorem isReadable_instruction {item : Declared.Instruction} (h : item.IsReadable P) :
    ((instruction item).value (read table)).declared.IsReadable P := by
  rw [instruction, Conversion.value_instruction]
  exact ⟨fun slot hslot => h.accounts slot (renameItems_id item.accounts ▸ hslot), h.extra⟩

/-- A result can be read back. -/
theorem isReadable_normalize (hraw : raw.IsReadable P) :
    (normalize table raw).1.declared.IsReadable P :=
  hasParts_normalize hraw fun _ => isReadable_instruction

theorem declaredDiscriminator?_map_bytes (discriminator : Option Discriminator) :
    declaredDiscriminator? (discriminator.map (·.bytes)) = discriminator := by
  cases discriminator <;> simp [declaredDiscriminator?]

/-- An instruction that is declared again comes out as it was. -/
theorem value_instruction_declared {item : Instruction}
    (htrees : ∀ tree ∈ item.args.map (·.type), tree.IsReread (read table)) :
    (instruction item.declared).value (read table) = item := by
  have hargs := @value_eachField_declared id _ _ (fun _ _ => rfl) htrees
  simp only [instruction, Conversion.instruction, Instruction.declared, Script.value_do,
    Script.value_pure, hargs, renameItems_id, declaredDiscriminator?_map_bytes, id_eq]

/-- So does an account. -/
theorem value_account_declared {item : Account}
    (htrees : ∀ tree ∈ item.body.types, tree.IsReread (read table)) :
    (account item.declared).value (read table) = item := by
  have hbody : (Conversion.accountBody id item.declared).value (read table) = item.body :=
    value_body_declared (fun _ _ => rfl) htrees
  rw [value_account, hbody]
  simp only [Account.declared, declaredDiscriminator?_map_bytes]

/-- So does a definition. -/
theorem value_definition_declared {definition : Definition}
    (htrees : ∀ tree ∈ definition.body.types, tree.IsReread (read table)) :
    (Conversion.definition id definition.declared).value (read table) = definition := by
  have hbody := @value_body_declared id _ _ (fun _ _ => rfl) htrees
  simp only [Conversion.value_definition, Definition.declared, hbody]

/-- An interface whose trees are read as what they are is given back. -/
theorem normalize_declared {interface : Interface}
    (htrees : ∀ tree ∈ interface.trees, tree.IsReread (read table)) :
    (normalize table interface.declared).1 = interface := by
  simp only [Interface.trees, List.forall_mem_append, List.forall_mem_flatMap] at htrees
  obtain ⟨⟨hinstructions, haccounts⟩, htypes⟩ := htrees
  rw [normalize_eq]
  simp only [Interface.declared, List.map_map, Function.comp_def]
  rw [map_eq_self fun item hitem => value_instruction_declared (hinstructions item hitem),
    map_eq_self fun item hitem => value_account_declared (haccounts item hitem),
    map_eq_self fun item hitem => value_definition_declared (htypes item hitem)]

/-- The trees of a result are those of the declared types. -/
theorem trees_normalize (table : PrimitiveWords) (raw : Declared.Interface) :
    (normalize table raw).1.trees = raw.typeExprs.map (plainTree table) := by
  have hinstruction : ∀ i : Declared.Instruction,
      ((instruction i).value (read table)).args.map (·.type) =
        (i.args.map (·.type)).map (plainTree table) := by
    intro i
    simp [(keeps_instruction table i).args, Field.map]
  have haccount : ∀ a : Declared.Account,
      ((account a).value (read table)).body.types =
        (a.body.toList.flatMap Body.types).map (plainTree table) := by
    intro a
    rw [(keeps_account table a).body]
    cases a.body with
    | none => rfl
    | some body => simp [Body.types_map]
  have hdefinition : ∀ d : Declared.Definition,
      ((Conversion.definition id d).value (read table)).body.types =
        d.body.types.map (plainTree table) := by
    intro d
    rw [(keeps_definition table d).body, Body.types_map]
  simp only [normalize_eq, Interface.trees, Declared.Interface.typeExprs, List.map_append,
    List.map_flatMap, List.flatMap_map, hinstruction, haccount, hdefinition]

end Again

/-- What is normalized on the plain path keeps everything but types.  Where no parameter has
the name of a primitive, the JSON value of the result is read as an interface that is normalized
to the same result again.  So is its text, where that holds no floating-point number among what
is not interpreted and nests no deeper than a reader follows. -/
theorem normalize_keeps_and_rereads (settings : Settings) {d : Document}
    {raw : Declared.Interface} (hbefore : settings.before = id) (hafter : settings.after = id)
    (hkeys : d.Everywhere HasDistinctKeys) (hraw : Declared.readInterface d = .ok raw)
    (horigin : raw.origin = some "shank") :
    ∃ interface, (CanonicalIdl.normalize settings raw).result = .ok interface ∧
      Keeps settings.table raw interface ∧
      ((∀ name ∈ raw.genericNames, settings.table.lookup? name.toList = none) →
        ∃ again, Declared.readInterface (ofJson interface.toJson) = .ok again ∧
          (CanonicalIdl.normalize settings again).result = .ok interface ∧
          ((∀ extra ∈ raw.extras, extra.Holds Document.IsExact) →
            nesting interface.toJson ≤ 127 →
            parseWith Declared.readInterface interface.toJson.pretty = .ok again)) := by
  have hresult : ∀ declared : Declared.Interface, declared.origin = some "shank" →
      (CanonicalIdl.normalize settings declared).result =
        .ok (normalize settings.table declared).1 := by
    intro declared hdeclared
    have hgenerator : Generator.ofOrigin? declared.origin = some .shank := by
      rw [hdeclared]
      rfl
    simp only [CanonicalIdl.normalize, hbefore, hafter, id_eq, hgenerator, normalizeBy]
  have hleaves : OfLeaves fun _ => True := ⟨fun _ _ => trivial, fun _ _ => trivial⟩
  have hdeclared : raw.IsReadable fun _ => True :=
    Declared.isReadable_of_readInterface hleaves
      (fun part hpart => ⟨trivial, hkeys part hpart⟩) hraw
  have hreadable := @isReadable_normalize settings.table _ _ hdeclared
  refine ⟨_, hresult raw horigin, keeps_normalize settings.table raw, fun hgenerics => ?_⟩
  have hreread := readInterface_toJson hreadable
  refine ⟨_, hreread, ?_, fun hexact hnesting => ?_⟩
  · have hagain : (normalize settings.table raw).1.declared.origin = some "shank" := by
      rw [normalize_eq]
      exact horigin
    rw [hresult _ hagain, normalize_declared]
    rw [trees_normalize, List.forall_mem_map]
    exact fun t ht => isReread_plainTree t fun name hname =>
      hgenerics name (List.mem_flatMap.mpr ⟨t, ht, hname⟩)
  · exact parseWith_of_read (ofText_pretty (Interface.isExact_toJson
      (holds_normalize hexact)) hnesting) hreread

/-- An interface with a collection of account items, a discriminator of one byte, an account
without a body, and a type with a parameter and a name that looks like a map. -/
def vaultJson : Json :=
  .object [
    ("instructions", .array [.object [("name", .string "CreateVault"),
      ("accounts", .array [.object [("name", .string "owners"), ("accounts", .array [.object
        [("name", .string "first_owner"), ("isSigner", .bool true), ("desc", .string "pays")]])]]),
      ("args", .array [.object [("name", .string "rate_limit"), ("type", .string "f64")]]),
      ("discriminator", .array [.int 7])]]),
    ("accounts", .array [.object [("name", .string "Vault")]]),
    ("types", .array [.object [("name", .string "Book"),
      ("generics", .array [.object [("kind", .string "type"), ("name", .string "T")]]),
      ("type", .object [("kind", .string "struct"), ("fields", .array [
        .object [("generic", .string "T")],
        .object [("defined", .string "HashMap<String,Entry>")]])])]]),
    ("metadata", .object [("origin", .string "shank")])]

/-- The interface that is read from it. -/
def vaultInterface : Declared.Interface where
  address := none
  version := none
  name := none
  instructions := [{
    name := "CreateVault", docs := [],
    accounts := [.collection "owners" [.reference
      ⟨"first_owner", false, true, false, [], none, .ofMembers [("desc", .string "pays")]⟩]],
    args := [⟨"rate_limit", [], .named "f64"⟩],
    discriminator := some [7], omitsMissing := false, extra := .empty }]
  accounts := [⟨"Vault", none, [], none, .empty⟩]
  types := [{
    name := "Book", docs := [], generics := [.type "T"],
    body := .struct (.tuple [.generic "T", .defined "HashMap<String,Entry>"]),
    extra := .empty }]
  errors := []
  metadata := some ⟨none, some "shank", none, none, .empty⟩
  extra := .empty

/-- With floats as bytes, the vault keeps everything but its types, and its result is read and
normalized again. -/
theorem normalize_keeps_and_rereads_vault :
    Declared.readInterface (ofJson vaultJson) = .ok vaultInterface ∧
      ∃ interface : Interface, Keeps .floatAsBytes vaultInterface interface ∧
        interface.trees =
          [.array (.primitive .u8) 8, .bare "T", .bare "HashMap<String,Entry>"] ∧
        ∃ again, Declared.readInterface (ofJson interface.toJson) = .ok again ∧
          (CanonicalIdl.normalize { table := .floatAsBytes } again).result = .ok interface := by
  have hraw : Declared.readInterface (ofJson vaultJson) = .ok vaultInterface := rfl
  obtain ⟨interface, hresult, hkeeps, hrereads⟩ :=
    normalize_keeps_and_rereads { table := .floatAsBytes } rfl rfl (by decide +kernel) hraw rfl
  obtain ⟨again, hagain, hsame, -⟩ := hrereads (by decide)
  have htrees : (CanonicalIdl.normalize { table := .floatAsBytes } vaultInterface).result.map
      Interface.trees =
      .ok [.array (.primitive .u8) 8, .bare "T", .bare "HashMap<String,Entry>"] := by rfl
  rw [hresult] at htrees
  exact ⟨hraw, interface, hkeeps, Except.ok.inj htrees, again, hagain, hsame⟩

end Shank

end CanonicalIdl
