import CanonicalIdl.Normalization.Shank
import CanonicalIdl.Proofs.Normalization.Results

/-!
# What the plain path comes to

On the path of shank every part of a result is one declared part with its types read, so what
a result keeps uninterpreted is what was declared.

Main results:

- Theorem `normalize_eq`: the parts of a result, one by one.
- Theorem `isAcceptable_normalize`: a result can be read.
- Theorem `holds_normalize`: what holds of all uninterpreted members holds of those of the
  result.
-/

namespace CanonicalIdl.Shank

open Json Document

/-- The tree of a type name: a primitive word, or a reference. -/
def read (table : PrimitiveWords) (text : List Char) : TypeTree :=
  (table.lookup? text).getD (.bare (String.ofList text))

theorem readsAs_resolver (table : PrimitiveWords) : ReadsAs (resolver table) [] (read table) :=
  fun _ _ hrun => ⟨rfl, hrun⟩

variable {table : PrimitiveWords} {raw : Declared.Interface} {P : Document → Prop}

theorem value_account (read : List Char → TypeTree) (declared : Declared.Account) :
    (account declared).value read =
      { name := declared.name, discriminator := declaredDiscriminator? declared.discriminator,
        docs := declared.docs, body := (Conversion.accountBody id declared).value read,
        extra := declared.extra } := by
  simp [account]

/-- The parts of a result are the declared ones with their types read. -/
theorem normalize_eq (table : PrimitiveWords) (raw : Declared.Interface) :
    (normalize table raw).1 =
      { address := raw.address, version := raw.version, name := raw.name,
        instructions := raw.instructions.map fun i => (instruction i).value (read table),
        accounts := raw.accounts.map fun a => (account a).value (read table),
        types := raw.types.map fun d => (Conversion.definition id d).value (read table),
        errors := raw.errors, metadata := raw.metadata, extra := raw.extra } := by
  have hvalue : (normalize table raw).1 = (convert raw).value (read table) :=
    (@Script.run_of_readsAs _ _ _ _ (readsAs_resolver table) (convert raw) .start rfl).1
  rw [hvalue]
  simp [convert]

/-- A result has readable parts if the interface has. -/
theorem hasParts_normalize {Q : Declared.Instruction → Prop} (hraw : raw.HasParts P Q)
    (hQ : ∀ item, Q item → Q ((instruction item).value (read table)).declared) :
    (normalize table raw).1.declared.HasParts P Q := by
  rw [normalize_eq]
  refine ⟨?_, ?_, ?_, hraw.metadata, hraw.extra⟩
  · simp only [Interface.declared, List.forall_mem_map]
    exact fun item hitem => hQ item (hraw.instructions item hitem)
  · simp only [Interface.declared, List.forall_mem_map]
    intro item hitem
    rw [value_account]
    refine ⟨fun body hbody => ?_, (hraw.accounts item hitem).extra⟩
    obtain rfl := Option.some.inj hbody
    refine Body.isReadable_map ?_
    change ((Conversion.accountBody id item).value (read table)).IsReadable
    cases hgiven : item.body with
    | none => simp [Conversion.accountBody, hgiven, Body.emptyStruct, Body.IsReadable,
        Fields.IsReadable]
    | some body =>
      simpa [Conversion.accountBody, hgiven] using Conversion.isReadable_value_body id (read table)
        ((hraw.accounts item hitem).body body hgiven)
  · simp only [Interface.declared, List.forall_mem_map]
    intro item hitem
    rw [Conversion.value_definition]
    exact ⟨Body.isReadable_map (Conversion.isReadable_value_body id (read table)
      (hraw.types item hitem).body), (hraw.types item hitem).extra⟩

theorem isAcceptable_instruction {item : Declared.Instruction} (h : item.IsAcceptable P) :
    ((instruction item).value (read table)).declared.IsAcceptable P := by
  rw [instruction, Conversion.value_instruction]
  exact ⟨(AccountItem.extrasOf_renameItems id item.accounts).symm ▸ h.slots, h.extra⟩

/-- A result can be read. -/
theorem isAcceptable_normalize (hraw : raw.IsAcceptable P) :
    (normalize table raw).1.declared.IsAcceptable P :=
  hasParts_normalize hraw fun _ => isAcceptable_instruction

/-- What holds of all that an interface keeps uninterpreted holds of what the result keeps. -/
theorem holds_normalize (h : ∀ extra ∈ raw.extras, extra.Holds P) :
    ∀ extra ∈ (normalize table raw).1.declared.extras, extra.Holds P := by
  rw [normalize_eq]
  simp only [Declared.Interface.extras, Interface.declared, List.forall_mem_cons,
    List.forall_mem_append, List.forall_mem_map, List.forall_mem_flatMap, Option.mem_toList] at h ⊢
  obtain ⟨hextra, ⟨⟨hmetadata, hinstructions⟩, haccounts⟩, htypes⟩ := h
  refine ⟨hextra, ⟨⟨hmetadata, fun item hitem => ?_⟩, fun item hitem => ?_⟩, fun item hitem => ?_⟩
  · have hitems := hinstructions item hitem
    rw [instruction, Conversion.value_instruction]
    rwa [Declared.Instruction.extras, ← AccountItem.extrasOf_renameItems id] at hitems
  · rw [value_account]
    exact haccounts item hitem
  · rw [Conversion.value_definition]
    exact htypes item hitem

end CanonicalIdl.Shank
