import CanonicalIdl.Proofs.Interface.Rereading

/-!
# Declared interfaces that are written again

A declared interface that was read is written with everything that it kept.  Reading what was
written gives the interface back: every account item is of its kind at every depth, every list
of fields named or positional, every type of its shape, and every uninterpreted member in the
record it was in.

Main results:

- Theorem `readInterface_toJson`: a readable declared interface reads back.
- Theorem `readInterface_toJson_of_readInterface`: an interface that was read reads back.
-/

namespace CanonicalIdl.Declared

open Json Document

variable {P : Document → Prop}

/-- The optional flag of a declared slot is written whether it is set or not. -/
theorem writesOptional_bool : WritesOptional fun optional => [("optional", .bool optional)] where
  reads p flag hp := by
    refine ⟨some flag, rfl, fun rest => foldMembers_member rest ?_⟩
    simp [PartialReference.step, hp, once, ofJson, Document.flag]
  keys flag := by simp

/-- A declared instruction that was written is read back. -/
theorem readInstruction_toJson {instruction : Instruction} (h : instruction.IsReadable P) :
    readInstruction (ofJson instruction.toJson) = .ok instruction := by
  have haccounts : (ofJson (.array (instruction.accounts.map itemJson))).list readItem =
      .ok instruction.accounts :=
    list_ofJson_array_self fun item hitem =>
      readItem_toJson writesOptional_bool (h.accounts item hitem)
  have hargs : (ofJson (.array (instruction.args.map (Field.toJson TypeExpr.toJson)))).list
      readField = .ok instruction.args :=
    list_ofJson_array_self fun field _ => readField_toJson field
  have hread := readInstruction_of_members instruction.name instruction.docs
    (("accounts", .array (instruction.accounts.map itemJson)) ::
      ("args", .array (instruction.args.map (Field.toJson TypeExpr.toJson))) ::
      (optionalMember "discriminator" bytesJson instruction.discriminator ++
        [("legacyOptionalAccountsStrategy", .bool instruction.omitsMissing)]))
    h.extra.avoids fun rest => by
      simp only [List.append_assoc, List.cons_append, List.nil_append]
      rw [foldMembers_member _ (once_map_of_eq_ok rfl haccounts),
        foldMembers_member _ (once_map_of_eq_ok rfl hargs),
        foldMembers_optionalMember (fun p bytes => { p with discriminator := bytes.map some }) rfl
          (fun bytes => once_map_of_eq_ok rfl (orNull_list_byte bytes)),
        foldMembers_member _ rfl]
  simpa [Instruction.toJson] using hread

/-- A declared interface that was written is read back. -/
theorem readInterface_toJson {interface : Interface} (h : interface.IsReadable P) :
    readInterface (ofJson interface.toJson) = .ok interface := by
  have hinstructions : (ofJson (.array (interface.instructions.map Instruction.toJson))).list
      readInstruction = .ok interface.instructions :=
    list_ofJson_array_self fun instruction hmem =>
      readInstruction_toJson (h.instructions instruction hmem)
  have haccounts : (ofJson (.array (interface.accounts.map Account.toJson))).list readAccount =
      .ok interface.accounts :=
    list_ofJson_array_self fun account hmem => readAccount_toJson (h.accounts account hmem)
  have htypes : (ofJson (.array (interface.types.map (TypeDefinition.toJson
      TypeExpr.toJson)))).list readDefinition = .ok interface.types :=
    list_ofJson_array_self fun definition hmem =>
      readDefinition_toJson (h.types definition hmem).body (h.types definition hmem).extra
  have herrors : (ofJson (.array (interface.errors.map ErrorCode.toJson))).list readErrorCode =
      .ok interface.errors :=
    list_ofJson_array_self fun error _ => readErrorCode_toJson error
  have hread := readInterface_of_lists interface
    [("instructions", .array (interface.instructions.map Instruction.toJson)),
     ("accounts", .array (interface.accounts.map Account.toJson)),
     ("types", .array (interface.types.map (TypeDefinition.toJson TypeExpr.toJson))),
     ("errors", .array (interface.errors.map ErrorCode.toJson))]
    h.metadata h.extra fun rest => by
      simp only [List.cons_append, List.nil_append]
      rw [foldMembers_member _ (once_map_of_eq_ok rfl hinstructions),
        foldMembers_member _ (once_map_of_eq_ok rfl haccounts),
        foldMembers_member _ (once_map_of_eq_ok rfl htypes),
        foldMembers_member _ (once_map_of_eq_ok rfl herrors)]
  simpa [Interface.toJson] using hread

/-- An interface that was read from a document, in which no object has a key twice, is read
from its written form as it was. -/
theorem readInterface_toJson_of_readInterface {d : Document} {interface : Interface}
    (hkeys : d.Everywhere HasDistinctKeys) (h : readInterface d = .ok interface) :
    readInterface (ofJson interface.toJson) = .ok interface :=
  have hleaves : OfLeaves fun _ => True := ⟨fun _ _ => trivial, fun _ _ => trivial⟩
  readInterface_toJson (isReadable_of_readInterface hleaves
    (fun part hpart => ⟨trivial, hkeys part hpart⟩) h)

/-- An interface with a collection and, in it, a slot with a value under the key of collections,
with positional fields, and with types in two shapes. -/
def poolJson : Json :=
  .object [
    ("instructions", .array [.object [("name", .string "swap"),
      ("accounts", .array [.object [("name", .string "pool"), ("accounts", .array [.object
        [("name", .string "vault"), ("isMut", .bool true), ("accounts", .int 5)]])]]),
      ("args", .array [.object [("name", .string "amount"), ("type", .string "u64")]])]]),
    ("types", .array [.object [("name", .string "Pair"),
      ("type", .object [("kind", .string "struct"), ("fields", .array [.string "u8",
        .object [("defined", .object [("name", .string "Side")])]])]),
      ("repr", .object [("kind", .string "c")])]]),
    ("source", .int 1)]

/-- The interface that is read from it. -/
def poolInterface : Interface where
  address := none
  version := none
  name := none
  instructions := [{
    name := "swap", docs := [],
    accounts := [.collection "pool" [.reference
      ⟨"vault", true, false, false, [], none, .ofMembers [("accounts", .int 5)]⟩]],
    args := [⟨"amount", [], .named "u64"⟩],
    discriminator := none, omitsMissing := false, extra := .empty }]
  accounts := []
  types := [{
    name := "Pair", docs := [], generics := [],
    body := .struct (.tuple [.named "u8", .applied "Side" []]),
    extra := .ofMembers [("repr", .object [("kind", .string "c")])] }]
  errors := []
  metadata := none
  extra := .ofMembers [("source", .int 1)]

/-- The slot of the pool stays a slot, and the value that it keeps stays with it. -/
theorem readInterface_toJson_of_readInterface_pool :
    readInterface (ofJson poolJson) = .ok poolInterface ∧
      readInterface (ofJson poolInterface.toJson) = .ok poolInterface :=
  have h : readInterface (ofJson poolJson) = .ok poolInterface := rfl
  ⟨h, readInterface_toJson_of_readInterface (by decide +kernel) h⟩

end CanonicalIdl.Declared
