import CanonicalIdl.Proofs.Interface.Exactness

/-!
# Keys of a written interface

A record is written with members of its own and with those that it keeps uninterpreted.  What is
kept is in canonical form, so no key stands twice in it; and no key stands twice in what is
written if the record keeps no member that it knows.

Main results:

- Theorem `everywhere_hasDistinctKeys_canonical`: no key stands twice in a canonical form.
- Theorem `everywhere_hasDistinctKeys_record`: nor does one in a record that keeps no member that
  it knows.
- Theorem `Interface.everywhere_hasDistinctKeys`: nor does one in a written interface of such
  records.
-/

namespace CanonicalIdl

open Json Document Declared

namespace Json

mutual

/-- No key stands twice in a canonical form. -/
theorem everywhere_hasDistinctKeys_canonical : (value : Json) →
    (ofJson (canonical value)).Everywhere HasDistinctKeys
  | .null | .bool _ | .int _ | .double _ | .string _ => by
    simp [canonical, ofJson, Everywhere, walk, HasDistinctKeys]
  | .array items => by
    rw [canonical, everywhere_ofJson_array]
    exact ⟨trivial, everywhere_hasDistinctKeys_canonicalItems items⟩
  | .object members => by
    have hmembers := everywhere_hasDistinctKeys_canonicalMembers members
    rw [canonical, everywhere_ofJson_object, hasDistinctKeys_object]
    refine ⟨(sorted_sortMembers _).nodup_keys, fun member hmember => ?_⟩
    exact hmembers member ((mem_insertMembers hmember).resolve_left nofun)

theorem everywhere_hasDistinctKeys_canonicalItems : (items : List Json) →
    ∀ item ∈ canonicalItems items, (ofJson item).Everywhere HasDistinctKeys
  | [] => nofun
  | item :: rest => List.forall_mem_cons.mpr ⟨everywhere_hasDistinctKeys_canonical item,
      everywhere_hasDistinctKeys_canonicalItems rest⟩

theorem everywhere_hasDistinctKeys_canonicalMembers : (members : List (String × Json)) →
    ∀ member ∈ canonicalMembers members, (ofJson member.2).Everywhere HasDistinctKeys
  | [] => nofun
  | (_, value) :: rest => List.forall_mem_cons.mpr ⟨everywhere_hasDistinctKeys_canonical value,
      everywhere_hasDistinctKeys_canonicalMembers rest⟩

end

/-- Kept members are in canonical form, and so no key stands twice in them. -/
theorem Extra.holds_hasDistinctKeys (extra : Extra) : extra.Holds HasDistinctKeys := by
  intro member hmember
  rw [← extra.canonical] at hmember
  exact everywhere_hasDistinctKeys_canonicalMembers extra.entries member hmember

/-- Nor does one in a plain value. -/
theorem IsPlain.hasDistinctKeys {value : Json} (h : value.IsPlain) :
    (ofJson value).Everywhere HasDistinctKeys :=
  fun part hpart => (h part hpart).2

/-- No key stands twice in a record that keeps no member that it knows. -/
theorem everywhere_hasDistinctKeys_record {P : Document → Prop} {front : List (String × Json)}
    {extra : Extra} {written known : List String}
    (hvalues : ∀ member ∈ front, (ofJson member.2).Everywhere HasDistinctKeys)
    (hkeys : (keys front).Sublist written) (hnodup : written.Nodup) (hknown : written ⊆ known)
    (hextra : extra.Keeps P known) :
    (ofJson (.object (front ++ extra.entries))).Everywhere HasDistinctKeys := by
  rw [everywhere_ofJson_object, hasDistinctKeys_object, List.forall_mem_append, keys_append,
    List.nodup_append]
  refine ⟨⟨hkeys.nodup hnodup, extra.sorted.nodup_keys, ?_⟩, hvalues, extra.holds_hasDistinctKeys⟩
  rintro key hfront other hother rfl
  obtain ⟨member, hmember, rfl⟩ := List.mem_map.mp hother
  exact hextra.avoids member hmember (hknown (hkeys.subset hfront))

end Json

/-! ## Records -/

variable {P : Document → Prop}

/-- No key stands twice in a record of plain members that keeps no member that it knows. -/
theorem everywhere_hasDistinctKeys_plain {front : List (String × Json)} {extra : Extra}
    {written known : List String} (hvalues : ∀ member ∈ front, member.2.IsPlain)
    (hkeys : (keys front).Sublist written) (hnodup : written.Nodup) (hknown : written ⊆ known)
    (hextra : extra.Keeps P known) :
    (ofJson (.object (front ++ extra.entries))).Everywhere HasDistinctKeys :=
  everywhere_hasDistinctKeys_record (fun member hmember => (hvalues member hmember).hasDistinctKeys)
    hkeys hnodup hknown hextra

/-- Nor does one in a definition that keeps no known key. -/
theorem Definition.everywhere_hasDistinctKeys {definition : Definition}
    (h : definition.extra.Keeps P definitionKeys) :
    (ofJson (definitionJson definition)).Everywhere HasDistinctKeys :=
  everywhere_hasDistinctKeys_plain (isPlain_knownMembers definition)
    (keys_knownMembers definition) (by decide) (.refl _) h

/-- Nor in such metadata. -/
theorem Metadata.everywhere_hasDistinctKeys {metadata : Metadata}
    (h : metadata.extra.Keeps P metadataKeys) :
    (ofJson metadata.toJson).Everywhere HasDistinctKeys :=
  everywhere_hasDistinctKeys_plain metadata.isPlain_knownMembers metadata.keys_knownMembers
    (by decide) (.refl _) h

/-- Nor in such an account. -/
theorem Account.everywhere_hasDistinctKeys {account : Account}
    (h : account.extra.Keeps P accountKeys) :
    (ofJson account.toJson).Everywhere HasDistinctKeys :=
  everywhere_hasDistinctKeys_plain account.isPlain_knownMembers account.keys_knownMembers
    (by decide) (.refl _) h

mutual

/-- Nor in an item all of whose references are such. -/
theorem AccountItem.everywhere_hasDistinctKeys : (item : AccountItem) →
    (∀ extra ∈ item.extras, extra.Keeps P slotKeys) →
    (ofJson (item.toJson (flagMember "optional"))).Everywhere HasDistinctKeys
  | .reference slot, h => by
    rw [AccountItem.toJson, AccountReference.toJson_eq]
    exact everywhere_hasDistinctKeys_plain slot.isPlain_knownMembers slot.keys_knownMembers
      (by decide) (by decide) (h slot.extra (.head _))
  | .collection name members, h => by
    have hmembers := AccountItem.forall_everywhere_hasDistinctKeys members h
    rw [AccountItem.toJson, everywhere_ofJson_object, hasDistinctKeys_object,
      List.forall_mem_cons, List.forall_mem_singleton, everywhere_ofJson_array]
    exact ⟨(by decide : ["name", "accounts"].Nodup), (isPlain_string name).hasDistinctKeys,
      trivial, hmembers⟩

theorem AccountItem.forall_everywhere_hasDistinctKeys : (items : List AccountItem) →
    (∀ extra ∈ AccountItem.extrasOf items, extra.Keeps P slotKeys) →
    ∀ item ∈ AccountItem.toJsonItems (flagMember "optional") items,
      (ofJson item).Everywhere HasDistinctKeys
  | [], _ => by simp [AccountItem.toJsonItems]
  | item :: rest, h => by
    rw [AccountItem.extrasOf, List.forall_mem_append] at h
    rw [AccountItem.toJsonItems, List.forall_mem_cons]
    exact ⟨AccountItem.everywhere_hasDistinctKeys item h.1,
      AccountItem.forall_everywhere_hasDistinctKeys rest h.2⟩

end

/-- A list has no key twice if none of its items has. -/
theorem everywhere_hasDistinctKeys_map {α : Type} {encode : α → Json} {items : List α}
    (h : ∀ item ∈ items, (ofJson (encode item)).Everywhere HasDistinctKeys) :
    (ofJson (.array (items.map encode))).Everywhere HasDistinctKeys := by
  rw [everywhere_ofJson_array, List.forall_mem_map]
  exact ⟨trivial, h⟩

/-- The keys that an instruction is written with, in their order. -/
def writtenInstructionKeys : List String :=
  ["name", "docs", "discriminator", "accounts", "args", "legacyOptionalAccountsStrategy"]

/-- Nor in an instruction with such items. -/
theorem Instruction.everywhere_hasDistinctKeys {instruction : Instruction}
    (h : instruction.declared.IsAcceptable P) :
    (ofJson instruction.toJson).Everywhere HasDistinctKeys := by
  have haccounts := AccountItem.forall_everywhere_hasDistinctKeys instruction.accounts h.slots
  rw [AccountItem.toJsonItems_eq_map, List.forall_mem_map] at haccounts
  rw [Instruction.toJson]
  refine @everywhere_hasDistinctKeys_record _ _ _ writtenInstructionKeys _ ?_ ?_ (by decide)
    (by decide) h.extra
  · simp only [List.forall_mem_append, List.forall_mem_cons, forall_mem_optionalMember]
    exact ⟨⟨⟨⟨⟨(isPlain_string _).hasDistinctKeys, by simp⟩,
      fun member hmember => (isPlain_docsMember _ member hmember).hasDistinctKeys⟩,
      fun d _ => d.isPlain_toJson.hasDistinctKeys⟩, everywhere_hasDistinctKeys_map haccounts,
      everywhere_hasDistinctKeys_map fun field _ => field.isPlain_toJson.hasDistinctKeys, by simp⟩,
      fun member hmember => (isPlain_flagMember _ _ member hmember).hasDistinctKeys⟩
  · simp only [keys_append]
    exact ((((List.Sublist.refl ["name"]).append (keys_docsMember _)).append
      (keys_optionalMember _ _ _)).append (.refl ["accounts", "args"])).append (keys_flagMember _ _)

/-- No key stands twice in a written interface of which no record keeps a member that it knows. -/
theorem Interface.everywhere_hasDistinctKeys {interface : Interface}
    (h : interface.declared.IsAcceptable P) :
    (ofJson interface.toJson).Everywhere HasDistinctKeys := by
  have hstring : ∀ s, (ofJson (.string s)).Everywhere HasDistinctKeys :=
    fun s => (isPlain_string s).hasDistinctKeys
  rw [Interface.toJson]
  refine @everywhere_hasDistinctKeys_record _ _ _ interfaceKeys _ ?_ ?_ (by decide) (.refl _)
    h.extra
  · simp only [List.forall_mem_append, List.forall_mem_singleton, forall_mem_optionalMember,
      forall_mem_listMember]
    refine ⟨⟨⟨⟨⟨⟨⟨fun _ _ => hstring _, fun _ _ => hstring _⟩, fun _ _ => hstring _⟩, ?_⟩,
      fun _ => ?_⟩, fun _ => ?_⟩, fun _ => ?_⟩, fun metadata hmem => ?_⟩
    · exact everywhere_hasDistinctKeys_map fun instruction hmem =>
        Instruction.everywhere_hasDistinctKeys (h.instructions _ (List.mem_map_of_mem hmem))
    · exact everywhere_hasDistinctKeys_map fun account hmem =>
        Account.everywhere_hasDistinctKeys (h.accounts _ (List.mem_map_of_mem hmem)).extra
    · exact everywhere_hasDistinctKeys_map fun definition hmem =>
        Definition.everywhere_hasDistinctKeys (h.types _ (List.mem_map_of_mem hmem)).extra
    · exact everywhere_hasDistinctKeys_map fun error _ => error.isPlain_toJson.hasDistinctKeys
    · exact Metadata.everywhere_hasDistinctKeys (h.metadata metadata hmem)
  · simp only [keys_append]
    exact (((((((keys_optionalMember _ _ _).append (keys_optionalMember _ _ _)).append
      (keys_optionalMember _ _ _)).append (.refl ["instructions"])).append
      (keys_listMember _ _ _)).append (keys_listMember _ _ _)).append
      (keys_listMember _ _ _)).append (keys_optionalMember _ _ _)

/-! ## Repeated keys -/

/-- Where no key stands twice in a written interface, no account with a discriminator keeps
another one. -/
theorem Interface.get?_discriminator_of_hasDistinctKeys {interface : Interface}
    (h : (ofJson interface.toJson).Everywhere HasDistinctKeys) {account : Account}
    (hmem : account ∈ interface.accounts) (hsome : account.discriminator.isSome = true) :
    account.extra.get? "discriminator" = none := by
  obtain ⟨d, hd⟩ := Option.isSome_iff_exists.mp hsome
  simp only [Interface.toJson, everywhere_ofJson_object, List.forall_mem_append,
    forall_mem_listMember] at h
  obtain ⟨-, ⟨⟨⟨⟨-, haccounts⟩, -⟩, -⟩, -⟩, -⟩ := h
  have haccount := (everywhere_ofJson_array.mp (haccounts (List.ne_nil_of_mem hmem))).2 _
    (List.mem_map_of_mem hmem)
  have hkeys := (hasDistinctKeys_object _).mp haccount.self
  rw [keys_append, List.nodup_append] at hkeys
  refine lookup_eq_none_of_not_mem_keys fun hkept => ?_
  exact hkeys.2.2 "discriminator" (by simp [keys, hd, optionalMember]) _ hkept
    rfl

end CanonicalIdl
