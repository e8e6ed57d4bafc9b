import CanonicalIdl.Declared.Reading
import CanonicalIdl.Declared.Writing
import CanonicalIdl.Proofs.Json.Records

/-!
# Reading back written parts

The parts that declared and canonical interfaces share read back as what was written, if the
members that nobody interprets have keys that nobody knows and if fields that are no fields
are not written.

Main results:

- Theorem `readBody_toJson`: a written body reads back.
- Theorem `itemOfJson?_toJson`: a written account item reads back.
- Theorem `readDefinition_toJson`, `readMetadata_toJson`: so do records with members that
  nobody interprets.
-/

namespace CanonicalIdl

open Json Document

/-! ## What can be read back -/

/-- A property of all parts of what is kept uninterpreted. -/
def Json.Extra.Holds (P : Document → Prop) (extra : Extra) : Prop :=
  ∀ member ∈ extra.entries, (ofJson member.2).Everywhere P

instance (P : Document → Prop) [DecidablePred P] (extra : Extra) : Decidable (extra.Holds P) :=
  inferInstanceAs (Decidable (∀ member ∈ extra.entries, (ofJson member.2).Everywhere P))

/-- Members with keys that a record does not know, all parts of their values with a property. -/
def Json.Extra.Keeps (extra : Extra) (P : Document → Prop) (known : List String) : Prop :=
  ∀ member ∈ extra.entries, member.1 ∉ known ∧ (ofJson member.2).Everywhere P

/-- Positional fields without any type are written as no fields at all, which are named. -/
def Fields.IsReadable {τ : Type} : Fields τ → Prop
  | .named _ => True
  | .tuple types => types ≠ []

/-- All fields in a body can be read back. -/
def Body.IsReadable {τ : Type} : Body τ → Prop
  | .struct fields => fields.IsReadable
  | .enum variants => ∀ variant ∈ variants, ∀ fields ∈ variant.fields, fields.IsReadable
  | .aliasOf _ => True

/-- No member that is kept has a known key. -/
theorem Json.Extra.Keeps.avoids {extra : Extra} {P : Document → Prop} {known : List String}
    (h : extra.Keeps P known) : ∀ member ∈ extra.entries, member.1 ∉ known :=
  fun member hmember => (h member hmember).1

theorem Json.Extra.Keeps.holds {extra : Extra} {P : Document → Prop} {known : List String}
    (h : extra.Keeps P known) : extra.Holds P :=
  fun member hmember => (h member hmember).2

namespace Declared

/-! ## Types and fields -/

/-- A type is read back from its written form. -/
theorem readType_toJson (type : TypeExpr) : readType (ofJson type.toJson) = .ok type := by
  rw [readType, fitting, read_ofJson, ok_bind, TypeExpr.ofJson?_toJson]
  rfl

/-- So is a field, where a record is read. -/
theorem readField_toJson (field : Field TypeExpr) :
    readField (ofJson (field.toJson TypeExpr.toJson)) = .ok field := by
  have hfold : foldMembers PartialField.step {} (ofMembers ([("name", .string field.name)] ++
      docsMember field.docs ++ [("type", field.type.toJson)])) =
      .ok ⟨some field.name, given? field.docs, some field.type⟩ := by
    rw [List.append_assoc, List.singleton_append, foldMembers_member _ rfl, docsMember,
      listMember_eq_optionalMember,
      foldMembers_optionalMember (fun p docs => { p with docs }) rfl (fun docs => ?_),
      foldMembers_member _ ?_]
    · rfl
    · simp [PartialField.step, readType_toJson, once]
    · simp [PartialField.step, list_text_ofJson, once]
  rw [Field.toJson, ofJson, readField, members_of_foldMembers hfold]
  simp [required]

/-- So is a field, where its form is told from a value. -/
theorem fieldOfJson?_toJson (field : Field TypeExpr) :
    fieldOfJson? (field.toJson TypeExpr.toJson) = some field := by
  rw [fieldOfJson?, readField_toJson]
  rfl

/-- An object with one member is no field. -/
theorem fieldOfJson?_single {key : String} (h : key ∉ ["name", "docs", "type"]) (value : Json) :
    fieldOfJson? (.object [(key, value)]) = none := by
  have hstep : PartialField.step {} key (ofJson value) =
      (ofJson value).ignore.map fun _ => {} := by
    simp only [List.mem_cons, List.not_mem_nil, or_false, not_or] at h
    simp [PartialField.step, h]
  have hread : ∀ field, readField (ofJson (.object [(key, value)])) ≠ .ok field := by
    intro field hfield
    obtain ⟨p, hp, hfield⟩ := bind_eq_ok.mp hfield
    obtain ⟨next, hnext, hdone⟩ := bind_eq_ok.mp (foldMembers_of_members hp)
    rw [hstep] at hnext
    obtain ⟨-, -, rfl⟩ := map_eq_ok.mp hnext
    obtain rfl := Except.ok.inj hdone
    cases hfield
  rw [fieldOfJson?]
  cases hfield : readField (ofJson (.object [(key, value)])) with
  | ok field => exact absurd hfield (hread field)
  | error fault => rfl

/-- A written type is no field. -/
theorem fieldOfJson?_type (type : TypeExpr) : fieldOfJson? type.toJson = none := by
  cases type with
  | named name => rfl
  | option inner => exact fieldOfJson?_single (by decide) _
  | coption inner => exact fieldOfJson?_single (by decide) _
  | vec inner => exact fieldOfJson?_single (by decide) _
  | array element length => exact fieldOfJson?_single (by decide) _
  | tuple items => exact fieldOfJson?_single (by decide) _
  | hashMap key value => exact fieldOfJson?_single (by decide) _
  | bTreeMap key value => exact fieldOfJson?_single (by decide) _
  | defined name => exact fieldOfJson?_single (by decide) _
  | applied name arguments => exact fieldOfJson?_single (by decide) _
  | generic name => exact fieldOfJson?_single (by decide) _

/-- A list is told from values one by one. -/
theorem mapM_toJson {α : Type} {encode : α → Json} {ofJson? : Json → Option α}
    (h : ∀ a, ofJson? (encode a) = some a) (items : List α) :
    (items.map encode).mapM ofJson? = some items := by
  induction items with
  | nil => rfl
  | cons item rest ih => simp [h, ih]

/-- Named and positional fields are told apart, if these hold a type. -/
theorem fieldsOfJson?_toJson {fields : Fields TypeExpr} (h : fields.IsReadable) :
    fieldsOfJson? (fields.toJson TypeExpr.toJson) = some fields := by
  cases fields with
  | named fields => simp [Fields.toJson, fieldsOfJson?, mapM_toJson fieldOfJson?_toJson]
  | tuple types =>
    cases types with
    | nil => exact absurd rfl h
    | cons type rest =>
      have hnone : ((type :: rest).map TypeExpr.toJson).mapM fieldOfJson? = none := by
        simp [fieldOfJson?_type]
      rw [Fields.toJson, fieldsOfJson?, hnone, mapM_toJson TypeExpr.ofJson?_toJson]
      rfl

/-- So they are where they are read. -/
theorem readFields_toJson {fields : Fields TypeExpr} (h : fields.IsReadable) :
    readFields (ofJson (fields.toJson TypeExpr.toJson)) = .ok fields := by
  rw [readFields, fitting, read_ofJson, ok_bind, fieldsOfJson?_toJson h]
  rfl

theorem toJson_ne_null (fields : Fields TypeExpr) : fields.toJson TypeExpr.toJson ≠ .null := by
  cases fields <;> nofun

/-! ## Bodies and parameters -/

/-- A variant is read back, with or without fields. -/
theorem readVariant_toJson {variant : Variant TypeExpr}
    (h : ∀ fields ∈ variant.fields, fields.IsReadable) :
    readVariant (ofJson (variant.toJson TypeExpr.toJson)) = .ok variant := by
  obtain ⟨name, fields⟩ := variant
  cases fields with
  | none => rfl
  | some fields =>
    have hfields : (ofJson (fields.toJson TypeExpr.toJson)).orNull readFields =
        .ok (some fields) := by
      rw [orNull_of_ne (toJson_ne_null fields), readFields_toJson (h fields rfl), ok_map]
    simp [Variant.toJson, optionalMember, ofJson, ofMembers, readVariant, members, foldMembers,
      PartialVariant.step, once, text, hfields, Ending.read, required]

/-- A written value with a tag is taken apart again. -/
theorem tagged_ofJson {τ : Type} {expected tag : String} {variants : List (String × τ)}
    {variant : τ} (h : variants.lookup tag = some variant) {rest : List (String × Json)}
    (hrest : ∀ member ∈ rest, member.1 ∉ ["kind"]) :
    tagged expected variants (ofJson (.object (("kind", .string tag) :: rest))) =
      .ok (variant, .object rest) := by
  have htag : taggedStep variants { tag := none, rest := [] } "kind" (.string tag) =
      .ok { tag := some variant, rest := [] } := by
    simp [taggedStep, variantTag, variantNamed, h, once]
  have hstep : ∀ (state : Tagged τ) key value, key ∉ ["kind"] →
      taggedStep variants state key value =
        value.read.map fun value => { state with rest := state.rest ++ [(key, value)] } := by
    intro state key value hkey
    rw [taggedStep, if_neg (by simpa using hkey)]
    cases value.read <;> rfl
  have hkept := foldMembers_kept
    (fun (state : Tagged τ) members => { state with rest := state.rest ++ members }) (by simp)
    (by simp) hstep { tag := some variant, rest := [] } hrest
  rw [ofJson, tagged, members_of_foldMembers ((foldMembers_member rest htag).trans hkept)]
  rfl

/-- A record with a single field is read from an object with one member. -/
theorem readSingle_object {α : Type} {key : String} {read : Document → Reading α}
    {take : FieldReader α} {finish : Option α → Reading α} {value : Json} {a : α}
    (h : read (ofJson value) = .ok a) :
    readSingle key read take finish (.object [(key, value)]) = finish (some a) := by
  simp [readSingle, ofMembers, members, foldMembers, h, once, Ending.read]

/-- A body is read back by its kind. -/
theorem readBody_toJson {body : Body TypeExpr} (h : body.IsReadable) :
    readBody (ofJson (body.toJson TypeExpr.toJson)) = .ok body := by
  cases body with
  | struct fields =>
    rw [readBody, Body.toJson, tagged_ofJson rfl (by simp), ok_bind]
    simp [bodyContent, readSingle_object (readFields_toJson h)]
  | enum variants =>
    have hvariants : (ofJson (.array (variants.map (Variant.toJson TypeExpr.toJson)))).list
        readVariant = .ok variants :=
      list_ofJson_array_self fun variant hvariant => readVariant_toJson (h variant hvariant)
    rw [readBody, Body.toJson, tagged_ofJson rfl (by simp), ok_bind]
    simp [bodyContent, readSingle_object hvariants]
  | aliasOf type =>
    rw [readBody, Body.toJson, tagged_ofJson rfl (by simp), ok_bind]
    simp [bodyContent, readSingle_object (readType_toJson type), required]

/-- A parameter is read back by its kind. -/
theorem readParameter_toJson (parameter : GenericParameter) :
    readParameter (ofJson parameter.toJson) = .ok parameter := by
  cases parameter with
  | type name =>
    rw [readParameter, GenericParameter.toJson, tagged_ofJson rfl (by simp), ok_bind]
    rfl
  | const name type =>
    rw [readParameter, GenericParameter.toJson, tagged_ofJson rfl (by simp), ok_bind]
    rfl

/-! ## Definitions -/

/-- The keys that a type definition knows. -/
def definitionKeys : List String := ["name", "docs", "generics", "type"]

/-- A member with an unknown key is kept with a definition. -/
theorem PartialDefinition.step_kept (p : PartialDefinition) (key : String) (value : Document)
    (h : key ∉ definitionKeys) :
    p.step key value = value.read.map fun read => { p with extra := p.extra ++ [(key, read)] } := by
  simp only [definitionKeys, List.mem_cons, List.not_mem_nil, or_false, not_or] at h
  simp [step, h]

/-- A definition is read back with all that it keeps. -/
theorem readDefinition_toJson {P : Document → Prop} {definition : Definition}
    (hbody : definition.body.IsReadable) (hextra : definition.extra.Keeps P definitionKeys) :
    readDefinition (ofJson (definition.toJson TypeExpr.toJson)) = .ok definition := by
  have hgenerics : ∀ generics, (ofJson (.array (generics.map GenericParameter.toJson))).list
      readParameter = .ok generics := fun _ =>
    list_ofJson_array_self fun parameter _ => readParameter_toJson parameter
  have hfold : foldMembers PartialDefinition.step {} (ofMembers
      ([("name", .string definition.name)] ++ docsMember definition.docs ++
        listMember "generics" GenericParameter.toJson definition.generics ++
        [("type", definition.body.toJson TypeExpr.toJson)] ++ definition.extra.entries)) =
      .ok ⟨some definition.name, given? definition.docs, given? definition.generics,
        some definition.body, definition.extra.entries⟩ := by
    simp only [List.append_assoc, List.cons_append, List.nil_append, docsMember,
      listMember_eq_optionalMember]
    rw [foldMembers_member _ rfl,
      foldMembers_optionalMember (fun p docs => { p with docs }) rfl
        (fun docs => once_map_of_eq_ok rfl (list_text_ofJson docs)),
      foldMembers_optionalMember (fun p generics => { p with generics }) rfl
        (fun generics => once_map_of_eq_ok rfl (hgenerics generics)),
      foldMembers_member _ (once_map_of_eq_ok rfl (readBody_toJson hbody)),
      foldMembers_kept (fun p members => { p with extra := p.extra ++ members }) (by simp)
        (by simp) PartialDefinition.step_kept _ hextra.avoids]
    rfl
  rw [TypeDefinition.toJson, ofJson, readDefinition, members_of_foldMembers hfold]
  simp [required, Extra.ofMembers_entries]

/-! ## Error codes and metadata -/

/-- An error is read back. -/
theorem readErrorCode_toJson (error : ErrorCode) :
    readErrorCode (ofJson error.toJson) = .ok error := by
  have hcode : (Document.int (error.code.toNat : Int)).word32 = .ok error.code := by
    have hlt := error.code.toNat_lt
    have hbound : (error.code.toNat : Int) < 4294967296 := by omega
    simp [word32, natBelow, hbound]
  obtain ⟨code, name, message⟩ := error
  cases message with
  | none =>
    simp [ErrorCode.toJson, optionalMember, Json.ofNat, ofJson, ofMembers, readErrorCode, members,
      foldMembers, PartialErrorCode.step, once, text, hcode, Ending.read, required]
  | some message =>
    simp [ErrorCode.toJson, optionalMember, Json.ofNat, ofJson, ofMembers, readErrorCode, members,
      foldMembers, PartialErrorCode.step, once, text, orNull, hcode, Ending.read, required]

/-- The keys that the metadata knows. -/
def metadataKeys : List String := ["address", "origin", "binaryVersion", "libVersion"]

theorem PartialMetadata.step_kept (p : PartialMetadata) (key : String) (value : Document)
    (h : key ∉ metadataKeys) :
    p.step key value = value.read.map fun read => { p with extra := p.extra ++ [(key, read)] } := by
  simp only [metadataKeys, List.mem_cons, List.not_mem_nil, or_false, not_or] at h
  simp [step, h]

/-- Metadata are read back with all that they keep. -/
theorem readMetadata_toJson {P : Document → Prop} {metadata : Metadata}
    (hextra : metadata.extra.Keeps P metadataKeys) :
    readMetadata (ofJson metadata.toJson) = .ok metadata := by
  have hfold : foldMembers PartialMetadata.step {} (ofMembers
      (optionalMember "address" .string metadata.address ++
        (optionalMember "origin" .string metadata.origin ++
        (optionalMember "binaryVersion" .string metadata.binaryVersion ++
        (optionalMember "libVersion" .string metadata.libVersion ++
          metadata.extra.entries))))) =
      .ok ⟨metadata.address.map some, metadata.origin.map some, metadata.binaryVersion.map some,
        metadata.libVersion.map some, metadata.extra.entries⟩ := by
    rw [foldMembers_optionalMember (fun p address => { p with address := address.map some }) rfl
        (fun _ => rfl),
      foldMembers_optionalMember (fun p origin => { p with origin := origin.map some }) rfl
        (fun _ => rfl),
      foldMembers_optionalMember (fun p version => { p with binaryVersion := version.map some })
        rfl (fun _ => rfl),
      foldMembers_optionalMember (fun p version => { p with libVersion := version.map some }) rfl
        (fun _ => rfl),
      foldMembers_kept (fun p members => { p with extra := p.extra ++ members }) (by simp)
        (by simp) PartialMetadata.step_kept _ hextra.avoids]
    rfl
  simp only [← List.append_assoc] at hfold
  rw [Metadata.toJson, ofJson, readMetadata, members_of_foldMembers hfold]
  simp [Extra.ofMembers_entries]

/-! ## Account items -/

/-- The keys that an account slot knows. -/
def slotKeys : List String :=
  ["name", "writable", "isMut", "signer", "isSigner", "optional", "isOptional", "docs", "address"]

theorem PartialReference.step_kept (p : PartialReference) (key : String) (value : Document)
    (h : key ∉ slotKeys) :
    p.step key value = value.read.map fun read => { p with extra := p.extra ++ [(key, read)] } := by
  simp only [slotKeys, List.mem_cons, List.not_mem_nil, or_false, not_or] at h
  simp [step, h]

/-- A way to write the optional flag of a slot that is read back. -/
structure WritesOptional (optional : Bool → List (String × Json)) : Prop where
  reads : ∀ (p : PartialReference) (flag : Bool), p.optional = none →
    ∃ given : Option Bool, given.getD false = flag ∧ ∀ rest,
      foldMembers PartialReference.step p (ofMembers (optional flag ++ rest)) =
        foldMembers PartialReference.step { p with optional := given } (ofMembers rest)
  keys : ∀ flag, ∀ member ∈ optional flag, member.1 ≠ "accounts"

/-- A flag that is left out when it is not set is read back. -/
theorem writesOptional_flagMember : WritesOptional (flagMember "optional") where
  reads p flag hp := by
    have htrue : p.step "optional" (ofJson (.bool true)) =
        .ok { p with optional := some true } := by
      simp [PartialReference.step, hp, once, ofJson, Document.flag]
    exact ⟨givenFlag? flag, getD_givenFlag? flag, foldMembers_flagMember
      (fun (p : PartialReference) optional => { p with optional }) (by rw [← hp]) htrue flag⟩
  keys flag := by cases flag <;> simp [flagMember]

section Items

variable {optional : Bool → List (String × Json)} (hoptional : WritesOptional optional)

include hoptional

/-- A reference to an account is read back with all that it keeps. -/
theorem readReference_toJson {P : Document → Prop} {slot : AccountReference}
    (hextra : slot.extra.Keeps P slotKeys) :
    readReference (ofJson (slot.toJson optional)) = .ok slot := by
  obtain ⟨given, hgiven, hflag⟩ :=
    hoptional.reads ⟨some slot.name, some slot.writable, some slot.signer, none, none, none, []⟩
      slot.optional rfl
  have hfold : foldMembers PartialReference.step {} (ofMembers
      ([("name", .string slot.name), ("writable", .bool slot.writable),
        ("signer", .bool slot.signer)] ++ optional slot.optional ++ docsMember slot.docs ++
        optionalMember "address" .string slot.address ++ slot.extra.entries)) =
      .ok ⟨some slot.name, some slot.writable, some slot.signer, given, given? slot.docs,
        slot.address.map some, slot.extra.entries⟩ := by
    simp only [List.append_assoc, List.cons_append, List.nil_append, docsMember,
      listMember_eq_optionalMember]
    rw [foldMembers_member _ rfl, foldMembers_member _ rfl, foldMembers_member _ rfl]
    refine (hflag _).trans ?_
    rw [foldMembers_optionalMember (fun p docs => { p with docs }) rfl
        (fun docs => once_map_of_eq_ok rfl (list_text_ofJson docs)),
      foldMembers_optionalMember (fun p address => { p with address := address.map some }) rfl
        (fun _ => rfl),
      foldMembers_kept (fun p members => { p with extra := p.extra ++ members }) (by simp)
        (by simp) PartialReference.step_kept _ hextra.avoids]
    rfl
  rw [AccountReference.toJson, ofJson, readReference, members_of_foldMembers hfold]
  simp [required, hgiven, Extra.ofMembers_entries]

end Items

/-- Members of other keys hold no items. -/
theorem collected?_append {front : List (String × Json)}
    (h : ∀ member ∈ front, member.1 ≠ "accounts") (back : List (String × Json)) :
    collected? (front ++ back) = collected? back := by
  induction front with
  | nil => rfl
  | cons member rest ih =>
    obtain ⟨key, value⟩ := member
    obtain ⟨hmember, hrest⟩ := List.forall_mem_cons.mp h
    rw [List.cons_append, collected?, if_neg hmember, ih hrest]

/-- An object without items is read as a slot. -/
theorem itemOfJson?_of_collected? {members : List (String × Json)} (h : collected? members = none) :
    itemOfJson? (.object members) = referenceOfJson? (.object members) := by
  rw [itemOfJson?, h]
  cases (TypeExpr.only? "name" members).bind TypeExpr.string? <;> rfl

end Declared

mutual

/-- The slots of an item can be read back: their uninterpreted members, of which all parts have a
property, are neither flags of a slot nor the items of a collection. -/
def AccountItem.IsReadable (P : Document → Prop) : AccountItem → Prop
  | .reference slot =>
    slot.extra.Keeps P Declared.slotKeys ∧ Declared.collected? slot.extra.entries = none
  | .collection _ members => AccountItem.AreReadable P members

/-- The slots of some items can be read back. -/
def AccountItem.AreReadable (P : Document → Prop) : List AccountItem → Prop
  | [] => True
  | item :: rest => AccountItem.IsReadable P item ∧ AccountItem.AreReadable P rest

end

theorem AccountItem.areReadable_iff {P : Document → Prop} {items : List AccountItem} :
    AreReadable P items ↔ ∀ item ∈ items, item.IsReadable P := by
  induction items with
  | nil => simp [AreReadable]
  | cons item rest ih => simp [AreReadable, ih]

namespace Declared

variable {P : Document → Prop}

mutual

/-- A written account item reads back. -/
theorem itemOfJson?_toJson {optional : Bool → List (String × Json)}
    (hoptional : WritesOptional optional) : (item : AccountItem) → item.IsReadable P →
    itemOfJson? (item.toJson optional) = some item
  | .reference slot, h => by
    obtain ⟨hextra, hcollected⟩ := h
    have hkeys : ∀ member ∈ [("name", .string slot.name), ("writable", .bool slot.writable),
        ("signer", .bool slot.signer)] ++ optional slot.optional ++ docsMember slot.docs ++
        optionalMember "address" .string slot.address, member.1 ≠ "accounts" := by
      simp only [List.forall_mem_append, docsMember, forall_mem_listMember,
        forall_mem_optionalMember]
      exact ⟨⟨⟨by simp, hoptional.keys slot.optional⟩, fun _ => by simp⟩, fun _ _ => by simp⟩
    have hnone := (collected?_append hkeys slot.extra.entries).trans hcollected
    have hread := readReference_toJson hoptional hextra
    rw [AccountReference.toJson] at hread
    rw [AccountItem.toJson, AccountReference.toJson, itemOfJson?_of_collected? hnone,
      referenceOfJson?, hread]
    rfl
  | .collection name members, h => by
    have hmembers := itemsOfJson?_toJsonItems hoptional members h
    simp [AccountItem.toJson, itemOfJson?, TypeExpr.only?, TypeExpr.hasKey, TypeExpr.string?,
      collected?, membersOfJson?, hmembers]

theorem itemsOfJson?_toJsonItems {optional : Bool → List (String × Json)}
    (hoptional : WritesOptional optional) :
    (items : List AccountItem) → AccountItem.AreReadable P items →
    itemsOfJson? (AccountItem.toJsonItems optional items) = some items
  | [], _ => rfl
  | item :: rest, h => by
    simp [AccountItem.toJsonItems, itemsOfJson?, itemOfJson?_toJson hoptional item h.1,
      itemsOfJson?_toJsonItems hoptional rest h.2]

end

/-- References and collections are told apart when they are read back. -/
theorem readItem_toJson {optional : Bool → List (String × Json)}
    (hoptional : WritesOptional optional) {item : AccountItem} (h : item.IsReadable P) :
    readItem (ofJson (item.toJson optional)) = .ok item := by
  rw [readItem, fitting, read_ofJson, ok_bind, itemOfJson?_toJson hoptional item h]
  rfl

end Declared

end CanonicalIdl
