import CanonicalIdl.Proofs.Interface.Acceptance
import CanonicalIdl.Proofs.Interface.Exactness
import CanonicalIdl.Proofs.Json.MappedDoubles

/-!
# Interfaces with other floating-point numbers

Only what an interface keeps uninterpreted can hold floating-point numbers.  Replacing them in a
written interface is therefore writing an interface in which they are replaced, of which all
else, keys included, is the same.

Main results:

- Theorem `Interface.toJson_mapDoubles`: replacing the numbers of an interface replaces those of
  what is written.
- Theorem `Interface.isAcceptable_mapDoubles`: the interface can still be read.
-/

namespace CanonicalIdl

open Json Document Declared

variable (f : Double → Double)

/-! ## Records with other numbers -/

/-- A definition with other floating-point numbers. -/
def TypeDefinition.mapDoubles {τ : Type} (definition : TypeDefinition τ) : TypeDefinition τ :=
  { definition with extra := definition.extra.mapDoubles f }

/-- Metadata with other floating-point numbers. -/
def Metadata.mapDoubles (metadata : Metadata) : Metadata :=
  { metadata with extra := metadata.extra.mapDoubles f }

/-- An account with other floating-point numbers. -/
def Account.mapDoubles (account : Account) : Account :=
  { account with extra := account.extra.mapDoubles f }

/-- A slot with other floating-point numbers. -/
def AccountReference.mapDoubles (slot : AccountReference) : AccountReference :=
  { slot with extra := slot.extra.mapDoubles f }

mutual

/-- An account item with other floating-point numbers. -/
def AccountItem.mapDoubles : AccountItem → AccountItem
  | .reference slot => .reference (slot.mapDoubles f)
  | .collection name members => .collection name (AccountItem.mapDoublesItems members)

/-- Account items with other floating-point numbers. -/
def AccountItem.mapDoublesItems : List AccountItem → List AccountItem
  | [] => []
  | item :: rest => AccountItem.mapDoubles item :: AccountItem.mapDoublesItems rest

end

/-- An instruction with other floating-point numbers. -/
def Instruction.mapDoubles (instruction : Instruction) : Instruction :=
  { instruction with
    accounts := AccountItem.mapDoublesItems f instruction.accounts
    extra := instruction.extra.mapDoubles f }

/-- An interface with other floating-point numbers. -/
def Interface.mapDoubles (interface : Interface) : Interface :=
  { interface with
    instructions := interface.instructions.map (Instruction.mapDoubles f)
    accounts := interface.accounts.map (Account.mapDoubles f)
    types := interface.types.map (TypeDefinition.mapDoubles f)
    metadata := interface.metadata.map (Metadata.mapDoubles f)
    extra := interface.extra.mapDoubles f }

/-! ## Writing them -/

namespace Json

/-- A plain value has no floating-point numbers. -/
theorem IsPlain.mapDoubles {value : Json} (h : value.IsPlain) : value.mapDoubles f = value :=
  mapDoubles_of_isNotDouble f value fun part hpart => (h part hpart).1.1

theorem mapDoublesMembers_of_isPlain {members : List (String × Json)}
    (h : ∀ member ∈ members, member.2.IsPlain) : mapDoublesMembers f members = members :=
  mapDoublesMembers_of_isNotDouble f members fun member hmember part hpart =>
    (h member hmember part hpart).1.1

/-- The numbers of a record of plain members are those that it keeps. -/
theorem mapDoubles_record {front : List (String × Json)} (h : ∀ member ∈ front, member.2.IsPlain)
    (extra : Extra) :
    (Json.object (front ++ extra.entries)).mapDoubles f =
      .object (front ++ (extra.mapDoubles f).entries) := by
  rw [mapDoubles, mapDoublesMembers_append, mapDoublesMembers_of_isPlain f h]
  rfl

/-- Items that are written with other numbers make an array with other numbers. -/
theorem mapDoubles_array_map {α : Type} {encode : α → Json} {g : α → α}
    (h : ∀ a, encode (g a) = (encode a).mapDoubles f) (items : List α) :
    (Json.array (items.map encode)).mapDoubles f = .array ((items.map g).map encode) := by
  rw [mapDoubles, mapDoublesItems_eq_map, List.map_map, List.map_map]
  exact congrArg Json.array (List.map_congr_left fun a _ => (h a).symm)

/-- So does a list that is left out when it is empty. -/
theorem mapDoublesMembers_listMember {α : Type} {encode : α → Json} {g : α → α}
    (h : ∀ a, encode (g a) = (encode a).mapDoubles f) (key : String) (items : List α) :
    mapDoublesMembers f (listMember key encode items) = listMember key encode (items.map g) := by
  cases items with
  | nil => rfl
  | cons a rest =>
    simp only [listMember, List.isEmpty_cons, List.map_cons]
    rw [if_neg (by decide), if_neg (by decide), mapDoublesMembers, mapDoublesMembers]
    have harray := mapDoubles_array_map f h (a :: rest)
    simp only [List.map_cons] at harray
    rw [harray]

/-- So does a member that may be left out. -/
theorem mapDoublesMembers_optionalMember {α : Type} {encode : α → Json} {g : α → α}
    (h : ∀ a, encode (g a) = (encode a).mapDoubles f) (key : String) (value : Option α) :
    mapDoublesMembers f (optionalMember key encode value) =
      optionalMember key encode (value.map g) := by
  cases value with
  | none => rfl
  | some a =>
    rw [optionalMember, mapDoublesMembers, mapDoublesMembers, ← h]
    rfl

end Json

/-- The numbers of a definition are those that it keeps. -/
theorem definitionJson_mapDoubles (definition : Definition) :
    definitionJson (definition.mapDoubles f) = (definitionJson definition).mapDoubles f := by
  rw [definitionJson_eq definition, mapDoubles_record f (Definition.isPlain_knownMembers _)]
  rfl

/-- So are those of metadata. -/
theorem Metadata.toJson_mapDoubles (metadata : Metadata) :
    (metadata.mapDoubles f).toJson = metadata.toJson.mapDoubles f := by
  rw [metadata.toJson_eq, mapDoubles_record f metadata.isPlain_knownMembers]
  rfl

/-- So are those of an account. -/
theorem Account.toJson_mapDoubles (account : Account) :
    (account.mapDoubles f).toJson = account.toJson.mapDoubles f := by
  rw [account.toJson_eq, mapDoubles_record f account.isPlain_knownMembers]
  rfl

/-- So are those of a reference to an account. -/
theorem AccountReference.toJson_mapDoubles (slot : AccountReference) :
    (slot.mapDoubles f).toJson (flagMember "optional") =
      (slot.toJson (flagMember "optional")).mapDoubles f := by
  rw [slot.toJson_eq, mapDoubles_record f slot.isPlain_knownMembers]
  rfl

mutual

/-- The numbers of a collection are those of its items. -/
theorem AccountItem.toJson_mapDoubles : (item : AccountItem) →
    (item.mapDoubles f).toJson (flagMember "optional") =
      (item.toJson (flagMember "optional")).mapDoubles f
  | .reference slot => by
    rw [AccountItem.mapDoubles, AccountItem.toJson, AccountItem.toJson, slot.toJson_mapDoubles]
  | .collection name members => by
    rw [AccountItem.mapDoubles, AccountItem.toJson, AccountItem.toJson,
      AccountItem.toJsonItems_mapDoublesItems members]
    rfl

theorem AccountItem.toJsonItems_mapDoublesItems : (items : List AccountItem) →
    AccountItem.toJsonItems (flagMember "optional") (AccountItem.mapDoublesItems f items) =
      Json.mapDoublesItems f (AccountItem.toJsonItems (flagMember "optional") items)
  | [] => rfl
  | item :: rest => by
    rw [AccountItem.mapDoublesItems, AccountItem.toJsonItems, AccountItem.toJsonItems,
      Json.mapDoublesItems, AccountItem.toJson_mapDoubles item,
      AccountItem.toJsonItems_mapDoublesItems rest]

end

/-- The numbers of an instruction are those of its items and those that it keeps. -/
theorem Instruction.toJson_mapDoubles (instruction : Instruction) :
    (instruction.mapDoubles f).toJson = instruction.toJson.mapDoubles f := by
  have haccounts := AccountItem.toJsonItems_mapDoublesItems f instruction.accounts
  rw [AccountItem.toJsonItems_eq_map, AccountItem.toJsonItems_eq_map] at haccounts
  have hdiscriminator := mapDoublesMembers_of_isPlain f
    (forall_mem_optionalMember.mpr fun d _ => d.isPlain_toJson :
      ∀ member ∈ optionalMember "discriminator" Discriminator.toJson instruction.discriminator, _)
  have hargs : (Json.array (instruction.args.map (Field.toJson TypeTree.toJson))).IsPlain := by simp
  rw [toJson.eq_def instruction, Json.mapDoubles]
  simp only [mapDoublesMembers_append, mapDoublesMembers, hdiscriminator, hargs.mapDoubles,
    mapDoublesMembers_of_isPlain f (isPlain_docsMember _),
    mapDoublesMembers_of_isPlain f (isPlain_flagMember _ _)]
  rw [Json.mapDoubles, Json.mapDoubles, ← haccounts]
  rfl

/-- Replacing the floating-point numbers of an interface replaces those of what is written. -/
theorem Interface.toJson_mapDoubles (interface : Interface) :
    (interface.mapDoubles f).toJson = interface.toJson.mapDoubles f := by
  have hstring : ∀ key (value : Option String), mapDoublesMembers f
      (optionalMember key Json.string value) = optionalMember key Json.string value :=
    fun key value => mapDoublesMembers_of_isPlain f
      (forall_mem_optionalMember.mpr fun s _ => isPlain_string s)
  have herrors : mapDoublesMembers f (listMember "errors" ErrorCode.toJson interface.errors) =
      listMember "errors" ErrorCode.toJson interface.errors :=
    mapDoublesMembers_of_isPlain f (forall_mem_listMember.mpr fun _ => by simp)
  rw [toJson.eq_def interface, Json.mapDoubles]
  simp only [mapDoublesMembers_append, mapDoublesMembers, hstring, herrors,
    mapDoubles_array_map f (Instruction.toJson_mapDoubles f),
    mapDoublesMembers_listMember f (Account.toJson_mapDoubles f),
    mapDoublesMembers_listMember f (definitionJson_mapDoubles f),
    mapDoublesMembers_optionalMember f (Metadata.toJson_mapDoubles f)]
  rfl

/-! ## Reading them -/

/-- Other numbers do not make a key known. -/
theorem Json.Extra.Keeps.mapDoubles {P : Document → Prop} {known : List String} {extra : Extra}
    (h : extra.Keeps P known) : (extra.mapDoubles f).Keeps (fun _ => True) known := by
  intro member hmember
  rw [Extra.entries_mapDoubles] at hmember
  obtain ⟨original, horiginal, rfl⟩ := List.mem_map.mp hmember
  exact ⟨(h original horiginal).1, fun _ _ => trivial⟩

mutual

theorem AccountItem.extras_mapDoubles : (item : AccountItem) →
    (item.mapDoubles f).extras = item.extras.map (Extra.mapDoubles f)
  | .reference _ => rfl
  | .collection _ members => AccountItem.extrasOf_mapDoublesItems members

theorem AccountItem.extrasOf_mapDoublesItems : (items : List AccountItem) →
    AccountItem.extrasOf (AccountItem.mapDoublesItems f items) =
      (AccountItem.extrasOf items).map (Extra.mapDoubles f)
  | [] => rfl
  | item :: rest => by
    rw [AccountItem.mapDoublesItems, AccountItem.extrasOf, AccountItem.extrasOf, List.map_append,
      AccountItem.extras_mapDoubles item, AccountItem.extrasOf_mapDoublesItems rest]

end

/-- An interface that can be read can be read with other floating-point numbers. -/
theorem Interface.isAcceptable_mapDoubles {P : Document → Prop} {interface : Interface}
    (h : interface.declared.IsAcceptable P) :
    (interface.mapDoubles f).declared.IsAcceptable fun _ => True where
  instructions := by
    simp only [declared, mapDoubles, List.map_map, List.forall_mem_map]
    intro instruction hmem
    have hinstruction := h.instructions _ (List.mem_map_of_mem hmem)
    refine ⟨?_, hinstruction.extra.mapDoubles f⟩
    change ∀ extra ∈ AccountItem.extrasOf (AccountItem.mapDoublesItems f instruction.accounts), _
    rw [AccountItem.extrasOf_mapDoublesItems, List.forall_mem_map]
    exact fun extra hextra => (hinstruction.slots extra hextra).mapDoubles f
  accounts := by
    simp only [declared, mapDoubles, List.map_map, List.forall_mem_map]
    intro account hmem
    have haccount := h.accounts _ (List.mem_map_of_mem hmem)
    exact ⟨haccount.body, haccount.extra.mapDoubles f⟩
  types := by
    simp only [declared, mapDoubles, List.map_map, List.forall_mem_map]
    intro definition hmem
    have hdefinition := h.types _ (List.mem_map_of_mem hmem)
    exact ⟨hdefinition.body, hdefinition.extra.mapDoubles f⟩
  metadata := by
    intro metadata hmem
    obtain ⟨original, horiginal, rfl⟩ := Option.map_eq_some_iff.mp hmem
    exact (h.metadata original horiginal).mapDoubles f
  extra := h.extra.mapDoubles f

end CanonicalIdl
