import CanonicalIdl.Proofs.Accounts.KeyNames
import CanonicalIdl.Proofs.Accounts.Leaves
import CanonicalIdl.Proofs.Naming.Conventions
import CanonicalIdl.Proofs.Normalization.Plain

/-!
# Default addresses of renamed accounts

On the path of anchor the names of accounts are made canonical, and on that of shank they are
kept.  The known address of an account is looked up by its name on both.  The look-up folds
the name, and of an ASCII name the canonical spelling folds to the same text: it changes the
case of letters and leaves out separators, and folding does not see either.  So a slot that
stands in no collection has the same default address on both paths.

Main results:

- Theorem `fold_joinHumps`: joining the humps of a name does not change what it folds to.
- Theorem `KnownAddress.ofName?_camelName`: an ASCII name keeps its known address.
- Theorem `accountKey?_normalizeBy`: the key of a slot that stands in no collection.
- Theorem `normalizeBy_known_eq`: its default address does not depend on the path.
-/

namespace CanonicalIdl

open Text

/-! ## Characters that folding does not tell apart -/

/-- A separator is one before and after it is made small, which changes nothing twice. -/
theorem toLower_ascii {c : Char} (h : c.toNat < 128) :
    isSeparator c.toLower = isSeparator c ∧ c.toLower.toLower = c.toLower :=
  of_mem_range (p := fun c => isSeparator c.toLower = isSeparator c ∧
    c.toLower.toLower = c.toLower) 0 128 (by decide +kernel) ⟨Nat.zero_le _, by omega⟩

/-- A character behind a dropped separator is no separator, and folding does not see its
capital. -/
theorem toUpper_of_takesHump {c : Char} (h : takesHump c = true) :
    isSeparator c = false ∧ isSeparator c.toUpper = false ∧ c.toUpper.toLower = c.toLower := by
  rcases Bool.or_eq_true_iff.mp h with hlower | hdigit
  · have hsmall := isSmall (.inl hlower)
    have hhump := isHump hlower
    exact ⟨hsmall.notSeparator, hhump.notSeparator, hhump.lowered.trans hsmall.lowered.symm⟩
  · have hcapital : c.toUpper = c := of_isDigit (p := fun c => c.toUpper = c) (by decide) hdigit
    have hsmall := isSmall (.inr hdigit)
    rw [hcapital]
    exact ⟨hsmall.notSeparator, hsmall.notSeparator, rfl⟩

namespace KnownAddress

/-! ## Folded names -/

theorem fold_cons (c : Char) (rest : List Char) :
    fold (c :: rest) = if isSeparator c then fold rest else c.toLower :: fold rest := by
  cases hc : isSeparator c <;> simp [fold, hc]

/-- Joining the humps of a name does not change what it folds to.  A pair that is joined loses
its separator, which folding leaves out anyway. -/
theorem fold_joinHumps (name : List Char) : fold (joinHumps name) = fold name := by
  fun_induction joinHumps name with
  | case1 => rfl
  | case2 c => rfl
  | case3 c next rest hjoined ih =>
    obtain ⟨hseparator, hhump⟩ := Bool.and_eq_true_iff.mp hjoined
    obtain ⟨hnext, hcapital, hlower⟩ := toUpper_of_takesHump hhump
    simp [fold_cons, hseparator, hnext, hcapital, hlower, ih]
  | case4 c next rest _ ih => rw [fold_cons, ih, ← fold_cons]

/-- Nor does making an ASCII name small. -/
theorem fold_lowered {name : List Char} (h : ∀ c ∈ name, c.toNat < 128) :
    fold (lowered name) = fold name := by
  rw [lowered_eq_map_toLower h]
  induction name with
  | nil => rfl
  | cons c rest ih =>
    obtain ⟨hseparator, hlower⟩ := toLower_ascii (h c List.mem_cons_self)
    rw [List.map_cons, fold_cons, fold_cons, hseparator, hlower,
      ih fun d hd => h d (List.mem_cons_of_mem c hd)]

/-- An ASCII name has the known address of its canonical spelling. -/
theorem ofName?_camelName {name : String} (h : ∀ c ∈ name.toList, c.toNat < 128) :
    ofName? (camelName name) = ofName? name := by
  apply ofName?_of_fold_eq
  rw [camelName, String.toList_ofList, fold_joinHumps, fold_lowered h]

/-- Beyond ASCII a letter may have a small form that the name of a known account is written
with, such as the sign for kelvin. -/
example : ofName? (camelName "cloc\u212a") ≠ ofName? "cloc\u212a" := by decide +kernel

end KnownAddress

/-! ## Slots that stand in no collection -/

/-- The key at a place among those of the instruction at a place. -/
def Interface.accountKey? (interface : Interface) (place keyPlace : Nat) : Option AccountKey :=
  interface.instructions[place]?.bind (·.accountKeys[keyPlace]?)

/-- The slot stands in no collection of the instruction at a place, behind as many other slots,
those in collections included, as the second number tells. -/
def Declared.Interface.HasOuterSlot (declared : Declared.Interface) (place keyPlace : Nat)
    (slot : AccountReference) : Prop :=
  ∃ instruction front back, declared.instructions[place]? = some instruction ∧
    instruction.accounts = front ++ .reference slot :: back ∧
    keyPlace = (AccountItem.slotsOfItems front).length

namespace AccountItem

mutual

/-- Renaming keeps the number of slots. -/
theorem length_slots_rename (f : String → String) :
    (item : AccountItem) → (item.rename f).slots.length = item.slots.length
  | .reference _ => rfl
  | .collection _ members => by
    rw [rename, slots, slots, length_slotsOfItems_renameItems f members]

theorem length_slotsOfItems_renameItems (f : String → String) : (items : List AccountItem) →
    (slotsOfItems (renameItems f items)).length = (slotsOfItems items).length
  | [] => rfl
  | item :: rest => by
    rw [renameItems, slotsOfItems, slotsOfItems, List.length_append, List.length_append,
      length_slots_rename f item, length_slotsOfItems_renameItems f rest]

end

/-- Behind the keys of the items in front of it stands the key of a slot, under its new name
alone. -/
theorem keysOfItems_renameItems_getElem? (f : String → String) (front back : List AccountItem)
    (slot : AccountReference) :
    (keysOfItems none (renameItems f (front ++ .reference slot :: back)))[
        (slotsOfItems front).length]? =
      some (AccountKey.ofReference { slot with name := f slot.name } (f slot.name)) := by
  have hlength : (keysOfItems none (renameItems f front)).length =
      (slotsOfItems front).length := by
    rw [length_keysOfItems, length_slotsOfItems_renameItems]
  rw [renameItems_eq_map, List.map_append, ← renameItems_eq_map, keysOfItems_eq_flatMap,
    List.flatMap_append, ← keysOfItems_eq_flatMap,
    List.getElem?_append_right (Nat.le_of_eq hlength), hlength, Nat.sub_self]
  rfl

end AccountItem

/-- The path of a generator renames accounts to this. -/
def Generator.accountName : Generator → String → String
  | .anchor => camelName
  | .shank => id

/-- On either path an instruction has the accounts that were declared, under the names of the
path, at its own place. -/
theorem accounts_normalizeBy (settings : Settings) (declared : Declared.Interface)
    (generator : Generator) :
    (normalizeBy settings declared generator).1.instructions.map (·.accounts) =
      declared.instructions.map fun instruction =>
        AccountItem.renameItems generator.accountName instruction.accounts := by
  cases generator with
  | anchor =>
    rw [normalizeBy, Anchor.instructions_normalize, Anchor.value_convert, List.map_map]
    refine List.map_congr_left fun instruction _ => ?_
    rw [Function.comp_apply, Anchor.instruction, Conversion.value_instruction]
    rfl
  | shank =>
    rw [normalizeBy, Shank.normalize_eq, List.map_map]
    refine List.map_congr_left fun instruction _ => ?_
    rw [Function.comp_apply, Shank.instruction, Conversion.value_instruction]
    rfl

/-- The key of a slot that stands in no collection has the name of the path, and a pinned
address or the known one of that name. -/
theorem accountKey?_normalizeBy (settings : Settings) {declared : Declared.Interface}
    (generator : Generator) {place keyPlace : Nat} {slot : AccountReference}
    (h : declared.HasOuterSlot place keyPlace slot) :
    (normalizeBy settings declared generator).1.accountKey? place keyPlace =
      some (AccountKey.ofReference { slot with name := generator.accountName slot.name }
        (generator.accountName slot.name)) := by
  obtain ⟨instruction, front, back, hplace, haccounts, rfl⟩ := h
  have hall := congrArg (·[place]?) (accounts_normalizeBy settings declared generator)
  simp only [List.getElem?_map, hplace, Option.map_some] at hall
  obtain ⟨converted, hconverted, hitems⟩ := Option.map_eq_some_iff.mp hall
  rw [Interface.accountKey?, hconverted, Option.bind_some, Instruction.accountKeys, hitems,
    haccounts, AccountItem.keysOfItems_renameItems_getElem?]

/-- Renaming does not change the known address of an ASCII name.  So a slot of such a name that
stands in no collection has the same default address on both paths: the one that it pins, or
the known one of its declared name. -/
theorem normalizeBy_known_eq {name : String} (h : ∀ c ∈ name.toList, c.toNat < 128) :
    KnownAddress.ofName? (camelName name) = KnownAddress.ofName? name ∧
      ∀ (settings : Settings) (declared : Declared.Interface) (place keyPlace : Nat)
        (slot : AccountReference), declared.HasOuterSlot place keyPlace slot → slot.name = name →
        ∃ renamed kept,
          (normalizeBy settings declared .anchor).1.accountKey? place keyPlace = some renamed ∧
          (normalizeBy settings declared .shank).1.accountKey? place keyPlace = some kept ∧
          renamed.name = camelName name ∧ kept.name = name ∧ renamed.known = kept.known ∧
          kept.known = (slot.address.map .fixed).or (KnownAddress.ofName? name) := by
  have hknown := KnownAddress.ofName?_camelName h
  refine ⟨hknown, fun settings declared place keyPlace slot hslot hname => ?_⟩
  subst hname
  refine ⟨_, _, accountKey?_normalizeBy settings .anchor hslot,
    accountKey?_normalizeBy settings .shank hslot, rfl, rfl, ?_, rfl⟩
  exact congrArg (slot.address.map KnownAddress.fixed).or hknown

/-- A transfer with a pool of two vaults in front of the token program. -/
def transferInterface : Declared.Interface where
  address := none
  version := none
  name := none
  instructions := [
    { name := "transfer", docs := [], args := [], discriminator := none, omitsMissing := false,
      extra := .empty
      accounts :=
        [.collection "pool" [.reference (plainSlot "from"), .reference (plainSlot "to")],
          .reference (plainSlot "Token-PROGRAM"), .reference (plainSlot "payer")] }]
  accounts := []
  types := []
  errors := []
  metadata := none
  extra := .empty

/-- Behind the vaults the token program is found on both paths, whatever its name looks like. -/
theorem normalizeBy_known_eq_tokenProgram :
    (∀ c ∈ "Token-PROGRAM".toList, c.toNat < 128) ∧
      transferInterface.HasOuterSlot 0 2 (plainSlot "Token-PROGRAM") ∧
      ∃ renamed kept,
        (normalizeBy {} transferInterface .anchor).1.accountKey? 0 2 = some renamed ∧
        (normalizeBy {} transferInterface .shank).1.accountKey? 0 2 = some kept ∧
        renamed.name = "tokenProgram" ∧ kept.name = "Token-PROGRAM" ∧
        renamed.known = kept.known ∧
        kept.known = some (.fixed "TokenkegQfeZyiNwAJbNbGKPFXCWuBvf9Ss623VQ5DA") := by
  have hascii : ∀ c ∈ "Token-PROGRAM".toList, c.toNat < 128 := by simp
  have hslot : transferInterface.HasOuterSlot 0 2 (plainSlot "Token-PROGRAM") :=
    ⟨_, [.collection "pool" [.reference (plainSlot "from"), .reference (plainSlot "to")]],
      [.reference (plainSlot "payer")], rfl, rfl, rfl⟩
  have hcamel : camelName "Token-PROGRAM" = "tokenProgram" := by decide +kernel
  have hknown : ((plainSlot "Token-PROGRAM").address.map KnownAddress.fixed).or
      (KnownAddress.ofName? "Token-PROGRAM") =
        some (.fixed "TokenkegQfeZyiNwAJbNbGKPFXCWuBvf9Ss623VQ5DA") := by decide +kernel
  refine ⟨hascii, hslot, ?_⟩
  rw [← hcamel, ← hknown]
  exact (normalizeBy_known_eq hascii).2 {} transferInterface 0 2 _ hslot rfl

end CanonicalIdl
