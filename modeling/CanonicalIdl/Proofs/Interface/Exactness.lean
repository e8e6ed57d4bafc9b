import CanonicalIdl.Proofs.Interface.Rereading
import CanonicalIdl.Proofs.Json.Members

/-!
# Written parts of an interface

Lengths, bytes and error codes are words and the keys of a part are fixed, so the parts that an
interface is written with hold no number that is not read back as it was and no object with a
key twice.  What else a written interface holds is what it keeps uninterpreted.

Main results:

- Theorem `isPlain_object`: an object is plain if its keys are distinct and its values plain.
- Theorem `Body.isPlain_toJson`, `Discriminator.isPlain_toJson`: the parts are plain.
- Theorem `Account.isPlain_knownMembers`, `Account.keys_knownMembers`: so are the members that a
  record knows, and their keys are fixed.
- Theorem `Interface.everywhere_toJson`: what holds of plain parts and of all that is kept
  uninterpreted holds of a written interface.
- Theorem `Interface.isExact_toJson`: all numbers of a written interface are exact.
-/

namespace CanonicalIdl

open Json Document Declared

namespace Json

/-- A value that is read back as it was: without floating-point numbers and without integers
beyond 64 bits. -/
def IsExact (value : Json) : Prop := (ofJson value).Everywhere Document.IsExact

/-- A number or text that is read back as it was, or a container without a repeated key. -/
def Document.IsPlain (d : Document) : Prop := d.IsExact ∧ d.HasDistinctKeys

/-- A value that is read back as it was, without repeated keys. -/
def IsPlain (value : Json) : Prop := (ofJson value).Everywhere Document.IsPlain

/-- Texts are plain. -/
@[simp] theorem isPlain_string (s : String) : (Json.string s).IsPlain := by
  simp [IsPlain, Everywhere, ofJson, walk, Document.IsPlain, Document.IsExact, IsNotDouble,
    IsBounded, HasDistinctKeys]

@[simp] theorem isPlain_bool (b : Bool) : (Json.bool b).IsPlain := by
  simp [IsPlain, Everywhere, ofJson, walk, Document.IsPlain, Document.IsExact, IsNotDouble,
    IsBounded, HasDistinctKeys]

/-- So are numbers that fit in 64 bits. -/
theorem isPlain_ofNat {n : Nat} (h : n < UInt64.size) : (Json.ofNat n).IsPlain := by
  have hsize : UInt64.size = 0x10000000000000000 := rfl
  simp only [IsPlain, Everywhere, Json.ofNat, ofJson, walk, List.mem_singleton, forall_eq,
    Document.IsPlain, Document.IsExact, IsNotDouble, IsBounded, HasDistinctKeys, true_and, and_true]
  omega

/-- An array is plain if its items are. -/
@[simp] theorem isPlain_array (items : List Json) :
    (Json.array items).IsPlain ↔ ∀ item ∈ items, item.IsPlain := by
  rw [IsPlain, everywhere_ofJson_array]
  exact and_iff_right ⟨⟨trivial, trivial⟩, trivial⟩

/-- An object is plain if its keys are distinct and its values plain. -/
@[simp] theorem isPlain_object (members : List (String × Json)) :
    (Json.object members).IsPlain ↔
      (keys members).Nodup ∧ ∀ member ∈ members, member.2.IsPlain := by
  rw [IsPlain, everywhere_ofJson_object, ← hasDistinctKeys_object]
  exact and_congr_left fun _ => and_iff_right ⟨trivial, trivial⟩

/-! ## Keys of members -/

@[simp] theorem keys_append (front back : List (String × Json)) :
    keys (front ++ back) = keys front ++ keys back :=
  List.map_append

/-- A member that may be left out has no other key than its own. -/
theorem keys_optionalMember {α : Type} (key : String) (encode : α → Json) (value : Option α) :
    (keys (optionalMember key encode value)).Sublist [key] := by
  cases value with
  | none => exact List.nil_sublist _
  | some a => exact .refl _

/-- Nor has a list that is left out when it is empty. -/
theorem keys_listMember {α : Type} (key : String) (encode : α → Json) (items : List α) :
    (keys (listMember key encode items)).Sublist [key] := by
  cases items with
  | nil => exact List.nil_sublist _
  | cons a rest => exact .refl _

/-- Nor has a flag that is left out when it is not set. -/
theorem keys_flagMember (key : String) (flag : Bool) :
    (keys (flagMember key flag)).Sublist [key] := by
  cases flag with
  | false => exact List.nil_sublist _
  | true => exact .refl _

end Json

/-! ## Parts -/

namespace TypeTree

mutual

/-- A tree is written with texts, lengths and distinct keys only. -/
@[simp] theorem isPlain_toJson : (tree : TypeTree) → tree.toJson.IsPlain
  | .primitive _ => by simp [toJson]
  | .option inner => by simp [toJson, keys, isPlain_toJson inner]
  | .vec inner => by simp [toJson, keys, isPlain_toJson inner]
  | .array element length => by
    simp [toJson, keys, isPlain_toJson element, isPlain_ofNat length.toNat_lt]
  | .tuple items => by simpa [toJson, keys] using isPlain_toJsonItems items
  | .hashMap key value => by
    simp [toJson, keys, isPlain_toJson key, isPlain_toJson value]
  | .bTreeMap key value => by
    simp [toJson, keys, isPlain_toJson key, isPlain_toJson value]
  | .reference name arguments => by
    have harguments := isPlain_toJsonArguments arguments
    cases arguments with
    | nil => simp [toJson, keys]
    | cons argument rest => simpa [toJson, keys] using harguments

theorem isPlain_toJsonItems : (items : List TypeTree) →
    ∀ item ∈ toJsonItems items, item.IsPlain
  | [] => by simp [toJsonItems]
  | item :: rest => by
    simpa [toJsonItems, isPlain_toJson item] using isPlain_toJsonItems rest

theorem isPlain_toJsonArguments : (arguments : List TypeTree) →
    ∀ argument ∈ toJsonArguments arguments, argument.IsPlain
  | [] => by simp [toJsonArguments]
  | item :: rest => by
    simpa [toJsonArguments, keys, isPlain_toJson item] using
      isPlain_toJsonArguments rest

end

end TypeTree

theorem keys_docsMember (docs : List String) : (keys (docsMember docs)).Sublist ["docs"] :=
  keys_listMember "docs" _ docs

/-- Comments are written as texts. -/
@[simp] theorem isPlain_docsMember (docs : List String) :
    ∀ member ∈ docsMember docs, member.2.IsPlain := by
  rw [docsMember, forall_mem_listMember]
  simp

/-- A field is written with a text, comments and a tree. -/
@[simp] theorem Field.isPlain_toJson (field : Field TypeTree) :
    (field.toJson TypeTree.toJson).IsPlain := by
  have hkeys : (["name"] ++ keys (docsMember field.docs) ++ ["type"]).Sublist
      ["name", "docs", "type"] :=
    ((List.Sublist.refl ["name"]).append (keys_docsMember _)).append (.refl ["type"])
  simp only [Field.toJson, isPlain_object, List.forall_mem_append, List.forall_mem_singleton,
    keys_append]
  exact ⟨hkeys.nodup (by decide), ⟨isPlain_string _, isPlain_docsMember _⟩,
    TypeTree.isPlain_toJson _⟩

@[simp] theorem Fields.isPlain_toJson (fields : Fields TypeTree) :
    (fields.toJson TypeTree.toJson).IsPlain := by
  cases fields <;> simp [Fields.toJson]

@[simp] theorem Variant.isPlain_toJson (variant : Variant TypeTree) :
    (variant.toJson TypeTree.toJson).IsPlain := by
  have hkeys : (["name"] ++ keys (optionalMember "fields" (Fields.toJson TypeTree.toJson)
      variant.fields)).Sublist ["name", "fields"] :=
    (List.Sublist.refl ["name"]).append (keys_optionalMember _ _ _)
  simp only [Variant.toJson, isPlain_object, List.forall_mem_append,
    List.forall_mem_singleton, forall_mem_optionalMember, keys_append]
  exact ⟨hkeys.nodup (by decide), isPlain_string _, fun fields _ => fields.isPlain_toJson⟩

/-- The written body of a definition is plain. -/
@[simp] theorem Body.isPlain_toJson (body : Body TypeTree) :
    (body.toJson TypeTree.toJson).IsPlain := by
  cases body <;> simp [Body.toJson, keys]

@[simp] theorem GenericParameter.isPlain_toJson (parameter : GenericParameter) :
    parameter.toJson.IsPlain := by
  cases parameter <;> simp [GenericParameter.toJson, keys]

/-- The bytes of a discriminator fit in 64 bits. -/
@[simp] theorem Discriminator.isPlain_toJson (d : Discriminator) :
    d.toJson.IsPlain := by
  simp only [Discriminator.toJson, isPlain_array, List.forall_mem_map]
  exact fun byte _ => isPlain_ofNat (Nat.lt_trans byte.toNat_lt (by decide))

/-- So does the code of an error. -/
@[simp] theorem ErrorCode.isPlain_toJson (error : ErrorCode) :
    error.toJson.IsPlain := by
  have hcode : (Json.ofNat error.code.toNat).IsPlain :=
    isPlain_ofNat (Nat.lt_trans error.code.toNat_lt (by decide))
  have hkeys : (["code", "name"] ++ keys (optionalMember "msg" Json.string error.message)).Sublist
      ["code", "name", "msg"] :=
    (List.Sublist.refl ["code", "name"]).append (keys_optionalMember _ _ _)
  simp only [ErrorCode.toJson, isPlain_object, List.forall_mem_append,
    List.forall_mem_cons, forall_mem_optionalMember, keys_append]
  exact ⟨hkeys.nodup (by decide), ⟨hcode, isPlain_string _, by simp⟩, fun _ _ => isPlain_string _⟩

theorem isPlain_flagMember (key : String) (flag : Bool) :
    ∀ member ∈ flagMember key flag, member.2.IsPlain := by
  cases flag <;> simp [flagMember]

/-! ## Members that a record knows -/

/-- The members that a definition is written with, but for those that it keeps. -/
def Definition.knownMembers (definition : Definition) : List (String × Json) :=
  [("name", .string definition.name)] ++ docsMember definition.docs ++
    listMember "generics" GenericParameter.toJson definition.generics ++
    [("type", definition.body.toJson TypeTree.toJson)]

/-- A definition is written as its known members and what it keeps uninterpreted. -/
theorem definitionJson_eq (definition : Definition) :
    definitionJson definition =
      .object (Definition.knownMembers definition ++ definition.extra.entries) := rfl

/-- The known members of a definition are plain. -/
theorem Definition.isPlain_knownMembers (definition : Definition) :
    ∀ member ∈ knownMembers definition, member.2.IsPlain := by
  simp only [knownMembers, List.forall_mem_append, List.forall_mem_singleton,
    forall_mem_listMember]
  exact ⟨⟨⟨isPlain_string _, isPlain_docsMember _⟩, fun _ => by simp⟩, Body.isPlain_toJson _⟩

/-- Each of their keys is a known one and is written once at most. -/
theorem Definition.keys_knownMembers (definition : Definition) :
    (keys (knownMembers definition)).Sublist definitionKeys := by
  simp only [knownMembers, keys_append]
  exact (((List.Sublist.refl ["name"]).append (keys_docsMember _)).append
    (keys_listMember _ _ _)).append (.refl ["type"])

/-- The members that metadata is written with, but for those that it keeps. -/
def Metadata.knownMembers (metadata : Metadata) : List (String × Json) :=
  optionalMember "address" .string metadata.address ++
    optionalMember "origin" .string metadata.origin ++
    optionalMember "binaryVersion" .string metadata.binaryVersion ++
    optionalMember "libVersion" .string metadata.libVersion

theorem Metadata.toJson_eq (metadata : Metadata) :
    metadata.toJson = .object (metadata.knownMembers ++ metadata.extra.entries) := rfl

/-- The known members of metadata are plain. -/
theorem Metadata.isPlain_knownMembers (metadata : Metadata) :
    ∀ member ∈ metadata.knownMembers, member.2.IsPlain := by
  simp only [knownMembers, List.forall_mem_append, forall_mem_optionalMember]
  exact ⟨⟨⟨fun _ _ => isPlain_string _, fun _ _ => isPlain_string _⟩,
    fun _ _ => isPlain_string _⟩, fun _ _ => isPlain_string _⟩

/-- Each of their keys is a known one and is written once at most. -/
theorem Metadata.keys_knownMembers (metadata : Metadata) :
    (keys metadata.knownMembers).Sublist metadataKeys := by
  simp only [knownMembers, keys_append]
  exact (((keys_optionalMember _ _ _).append (keys_optionalMember _ _ _)).append
    (keys_optionalMember _ _ _)).append (keys_optionalMember _ _ _)

/-- The members that an account is written with, but for those that it keeps. -/
def Account.knownMembers (account : Account) : List (String × Json) :=
  [("name", .string account.name)] ++
    optionalMember "discriminator" Discriminator.toJson account.discriminator ++
    docsMember account.docs ++ [("type", account.body.toJson TypeTree.toJson)]

theorem Account.toJson_eq (account : Account) :
    account.toJson = .object (account.knownMembers ++ account.extra.entries) := rfl

/-- The known members of an account are plain. -/
theorem Account.isPlain_knownMembers (account : Account) :
    ∀ member ∈ account.knownMembers, member.2.IsPlain := by
  simp only [knownMembers, List.forall_mem_append, List.forall_mem_singleton,
    forall_mem_optionalMember]
  exact ⟨⟨⟨isPlain_string _, fun d _ => d.isPlain_toJson⟩, isPlain_docsMember _⟩,
    Body.isPlain_toJson _⟩

/-- Each of their keys is a known one and is written once at most. -/
theorem Account.keys_knownMembers (account : Account) :
    (keys account.knownMembers).Sublist accountKeys := by
  simp only [knownMembers, keys_append]
  exact (((List.Sublist.refl ["name"]).append (keys_optionalMember _ _ _)).append
    (keys_docsMember _)).append (.refl ["type"])

/-- The members that a slot is written with, but for those that it keeps. -/
def AccountReference.knownMembers (slot : AccountReference) : List (String × Json) :=
  [("name", .string slot.name), ("writable", .bool slot.writable), ("signer", .bool slot.signer)] ++
    flagMember "optional" slot.optional ++ docsMember slot.docs ++
    optionalMember "address" .string slot.address

/-- The keys that a slot is written with; a slot that is read knows others for its flags. -/
def writtenSlotKeys : List String := ["name", "writable", "signer", "optional", "docs", "address"]

theorem AccountReference.toJson_eq (slot : AccountReference) :
    slot.toJson (flagMember "optional") = .object (slot.knownMembers ++ slot.extra.entries) := rfl

/-- The known members of a reference to an account are plain. -/
theorem AccountReference.isPlain_knownMembers (slot : AccountReference) :
    ∀ member ∈ slot.knownMembers, member.2.IsPlain := by
  simp only [knownMembers, List.forall_mem_append, List.forall_mem_cons,
    forall_mem_optionalMember]
  exact ⟨⟨⟨⟨isPlain_string _, isPlain_bool _, isPlain_bool _, by simp⟩, isPlain_flagMember _ _⟩,
    isPlain_docsMember _⟩, fun _ _ => isPlain_string _⟩

/-- Each of their keys is one that references are written with. -/
theorem AccountReference.keys_knownMembers (slot : AccountReference) :
    (keys slot.knownMembers).Sublist writtenSlotKeys := by
  simp only [knownMembers, keys_append]
  exact (((List.Sublist.refl ["name", "writable", "signer"]).append (keys_flagMember _ _)).append
    (keys_docsMember _)).append (keys_optionalMember _ _ _)

/-- Items of an instruction are written one by one. -/
theorem AccountItem.toJsonItems_eq_map (optional : Bool → List (String × Json))
    (items : List AccountItem) :
    AccountItem.toJsonItems optional items = items.map (AccountItem.toJson optional) := by
  induction items with
  | nil => rfl
  | cons item rest ih => simp [AccountItem.toJsonItems, ih]

/-! ## Properties of what is written -/

namespace Json.Document

/-- A property that plain values have and that says nothing of the keys of an object. -/
structure HoldsOfPlain (P : Document → Prop) : Prop extends OfLeaves P where
  plain : ∀ d, IsPlain d → P d

namespace HoldsOfPlain

variable {P : Document → Prop} (hP : HoldsOfPlain P)

include hP

/-- What holds of plain parts holds all through a plain value. -/
theorem of_isPlain {value : Json} (h : value.IsPlain) : (ofJson value).Everywhere P :=
  fun part hpart => hP.plain part (h part hpart)

/-- It holds all through an array if it does so in each item. -/
theorem array_iff {items : List Json} :
    (ofJson (.array items)).Everywhere P ↔ ∀ item ∈ items, (ofJson item).Everywhere P := by
  rw [everywhere_ofJson_array]
  exact and_iff_right (hP.array _ _)

/-- It holds all through an object if it does so in each value of its members. -/
theorem object_iff {members : List (String × Json)} :
    (ofJson (.object members)).Everywhere P ↔
      ∀ member ∈ members, (ofJson member.2).Everywhere P := by
  rw [everywhere_ofJson_object]
  exact and_iff_right (hP.object _ _)

/-- What holds of plain parts and of all that a record keeps holds of the record. -/
theorem record {front : List (String × Json)} {extra : Extra}
    (hfront : ∀ member ∈ front, member.2.IsPlain) (hextra : extra.Holds P) :
    (ofJson (.object (front ++ extra.entries))).Everywhere P :=
  hP.object_iff.mpr (List.forall_mem_append.mpr
    ⟨fun member hmember => hP.of_isPlain (hfront member hmember), hextra⟩)

end HoldsOfPlain

section Items

variable {P : Document → Prop}

mutual

/-- What holds of plain parts holds all through an account item if it does so in what the item
keeps. -/
theorem HoldsOfPlain.item (hP : HoldsOfPlain P) : (item : AccountItem) →
    (∀ extra ∈ item.extras, extra.Holds P) →
    (ofJson (item.toJson (flagMember "optional"))).Everywhere P
  | .reference slot, h => by
    rw [AccountItem.toJson, AccountReference.toJson_eq]
    exact hP.record slot.isPlain_knownMembers (h slot.extra (.head _))
  | .collection name members, h => by
    have hmembers := HoldsOfPlain.items hP members h
    rw [AccountItem.toJson, hP.object_iff, List.forall_mem_cons, List.forall_mem_singleton]
    exact ⟨hP.of_isPlain (isPlain_string _), hP.array_iff.mpr hmembers⟩

theorem HoldsOfPlain.items (hP : HoldsOfPlain P) : (items : List AccountItem) →
    (∀ extra ∈ AccountItem.extrasOf items, extra.Holds P) →
    ∀ item ∈ AccountItem.toJsonItems (flagMember "optional") items, (ofJson item).Everywhere P
  | [], _ => by simp [AccountItem.toJsonItems]
  | item :: rest, h => by
    rw [AccountItem.extrasOf, List.forall_mem_append] at h
    rw [AccountItem.toJsonItems, List.forall_mem_cons]
    exact ⟨HoldsOfPlain.item hP item h.1, HoldsOfPlain.items hP rest h.2⟩

end

end Items

/-- The same of an instruction. -/
theorem HoldsOfPlain.instruction {P : Document → Prop} (hP : HoldsOfPlain P)
    {instruction : Instruction} (h : ∀ extra ∈ instruction.declared.extras, extra.Holds P) :
    (ofJson instruction.toJson).Everywhere P := by
  obtain ⟨hextra, hitems⟩ := List.forall_mem_cons.mp h
  have haccounts := HoldsOfPlain.items hP instruction.accounts hitems
  have hargs : (Json.array (instruction.args.map (Field.toJson TypeTree.toJson))).IsPlain := by simp
  rw [AccountItem.toJsonItems_eq_map] at haccounts
  simp only [Instruction.toJson, hP.object_iff, List.forall_mem_append, List.forall_mem_cons,
    forall_mem_optionalMember]
  exact ⟨⟨⟨⟨⟨⟨hP.of_isPlain (isPlain_string _), by simp⟩,
    fun member hmember => hP.of_isPlain (isPlain_docsMember _ member hmember)⟩,
    fun d _ => hP.of_isPlain d.isPlain_toJson⟩, hP.array_iff.mpr haccounts, hP.of_isPlain hargs,
    by simp⟩, fun member hmember => hP.of_isPlain (isPlain_flagMember _ _ member hmember)⟩, hextra⟩

end Json.Document

/-- What holds of plain parts and of all that an interface keeps uninterpreted holds of what is
written. -/
theorem Interface.everywhere_toJson {P : Document → Prop} (hP : HoldsOfPlain P)
    {interface : Interface} (h : ∀ extra ∈ interface.declared.extras, extra.Holds P) :
    (ofJson interface.toJson).Everywhere P := by
  obtain ⟨hextra, h⟩ := List.forall_mem_cons.mp h
  simp only [Interface.declared, List.forall_mem_append, List.forall_mem_map, Option.mem_toList,
    List.forall_mem_flatMap, List.map_map] at h
  obtain ⟨⟨⟨hmetadata, hinstructions⟩, haccounts⟩, htypes⟩ := h
  have hstring : ∀ s, (ofJson (.string s)).Everywhere P := fun s => hP.of_isPlain (isPlain_string s)
  have herrors : (Json.array (interface.errors.map ErrorCode.toJson)).IsPlain := by simp
  simp only [Interface.toJson, hP.object_iff, List.forall_mem_append, List.forall_mem_singleton,
    forall_mem_optionalMember, forall_mem_listMember, hP.array_iff, List.forall_mem_map]
  exact ⟨⟨⟨⟨⟨⟨⟨⟨fun _ _ => hstring _, fun _ _ => hstring _⟩, fun _ _ => hstring _⟩,
    fun instruction hmem => hP.instruction (hinstructions instruction hmem)⟩,
    fun _ account hmem => hP.record account.isPlain_knownMembers (haccounts account hmem)⟩,
    fun _ definition hmem => hP.record (Definition.isPlain_knownMembers definition)
      (htypes definition hmem)⟩,
    fun _ => by simpa using hP.array_iff.mp (hP.of_isPlain herrors)⟩,
    fun metadata hmem => hP.record metadata.isPlain_knownMembers (hmetadata metadata hmem)⟩, hextra⟩

/-- Plain parts are exact. -/
theorem holdsOfPlain_isExact : HoldsOfPlain Document.IsExact where
  array _ _ := ⟨trivial, trivial⟩
  object _ _ := ⟨trivial, trivial⟩
  plain _ h := h.1

/-- All numbers of a written interface are read back as they were, if those that it keeps
uninterpreted are. -/
theorem Interface.isExact_toJson {interface : Interface}
    (h : ∀ extra ∈ interface.declared.extras, extra.Holds Document.IsExact) :
    interface.toJson.IsExact :=
  Interface.everywhere_toJson holdsOfPlain_isExact h

end CanonicalIdl
