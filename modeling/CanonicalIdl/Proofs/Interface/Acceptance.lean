import CanonicalIdl.Proofs.Interface.Rereading

/-!
# Interfaces that are accepted

A written interface is read if no record of it keeps a member that it knows.  It may be read as
another interface: a slot that keeps items under the key of collections is taken for a
collection.

Main results:

- Theorem `exists_itemOfJson?_toJson`: a written account item is read as some item.
- Theorem `exists_readInterface_toJson`: a written interface is read as some interface.
-/

namespace CanonicalIdl

open Json Document Declared

variable {P : Document → Prop}

namespace Declared

/-- What can be read as a slot is read as an item, a slot or a collection. -/
theorem exists_itemOfJson?_of_reference {members : List (String × Json)} {slot : AccountItem}
    (h : referenceOfJson? (.object members) = some slot) :
    ∃ item, itemOfJson? (.object members) = some item := by
  rw [itemOfJson?]
  split
  · exact ⟨_, rfl⟩
  · exact ⟨slot, h⟩

mutual

/-- A written account item is read as some item. -/
theorem exists_itemOfJson?_toJson {optional : Bool → List (String × Json)}
    (hoptional : WritesOptional optional) : (item : AccountItem) →
    (∀ extra ∈ item.extras, extra.Keeps P slotKeys) →
    ∃ read, itemOfJson? (item.toJson optional) = some read
  | .reference slot, h => by
    have hslot : referenceOfJson? (slot.toJson optional) = some (.reference slot) := by
      rw [referenceOfJson?, readReference_toJson hoptional (h slot.extra (.head _))]
      rfl
    rw [AccountItem.toJson, AccountReference.toJson]
    exact exists_itemOfJson?_of_reference hslot
  | .collection name members, h => by
    obtain ⟨items, hitems⟩ := exists_itemsOfJson?_toJsonItems hoptional members h
    refine ⟨.collection name items, ?_⟩
    simp [AccountItem.toJson, itemOfJson?, TypeExpr.only?, TypeExpr.hasKey, TypeExpr.string?,
      collected?, membersOfJson?, hitems]

theorem exists_itemsOfJson?_toJsonItems {optional : Bool → List (String × Json)}
    (hoptional : WritesOptional optional) : (items : List AccountItem) →
    (∀ extra ∈ AccountItem.extrasOf items, extra.Keeps P slotKeys) →
    ∃ read, itemsOfJson? (AccountItem.toJsonItems optional items) = some read
  | [], _ => ⟨[], rfl⟩
  | item :: rest, h => by
    obtain ⟨hitem, hrest⟩ := List.forall_mem_append.mp h
    obtain ⟨first, hfirst⟩ := exists_itemOfJson?_toJson hoptional item hitem
    obtain ⟨others, hothers⟩ := exists_itemsOfJson?_toJsonItems hoptional rest hrest
    exact ⟨first :: others, by simp [AccountItem.toJsonItems, itemsOfJson?, hfirst, hothers]⟩

end

theorem exists_readItem_toJson {item : AccountItem}
    (h : ∀ extra ∈ item.extras, extra.Keeps P slotKeys) :
    ∃ read, readItem (ofJson (item.toJson (flagMember "optional"))) = .ok read := by
  obtain ⟨found, hfound⟩ := exists_itemOfJson?_toJson writesOptional_flagMember item h
  refine ⟨found, ?_⟩
  rw [readItem, fitting, read_ofJson, ok_bind, hfound]
  rfl

end Declared

theorem exists_readInstruction_toJson {instruction : Instruction}
    (h : instruction.declared.IsAcceptable P) :
    ∃ read, readInstruction (ofJson instruction.toJson) = .ok read := by
  have hitems := AccountItem.forall_mem_extrasOf.mp h.slots
  obtain ⟨items, hread⟩ := exists_list_ofJson_array fun item hitem =>
    exists_readItem_toJson (hitems item hitem)
  exact ⟨_, readInstruction_of_accounts hread h.extra.avoids⟩

/-- A written interface is read as some interface, if no record of it keeps a member that it
knows. -/
theorem exists_readInterface_toJson {interface : Interface}
    (h : interface.declared.IsAcceptable P) :
    ∃ read, readInterface (ofJson interface.toJson) = .ok read := by
  obtain ⟨instructions, hread⟩ := exists_list_ofJson_array fun instruction hmem =>
    exists_readInstruction_toJson (h.instructions _ (List.mem_map_of_mem hmem))
  exact ⟨_, readInterface_of_instructions h hread⟩

end CanonicalIdl
