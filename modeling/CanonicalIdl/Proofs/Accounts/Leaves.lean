import CanonicalIdl.Accounts.Key
import CanonicalIdl.Normalization.Anchor

/-!
# Leaves of the declared accounts

The account items of a declared instruction are a tree whose leaves are the slots.  Renaming
the tree and then flattening it gives one key for each leaf, in the order of the tree; the name
of a key is spelled from the names on the way to its leaf.

Main results:

- Theorem `qualifiedName_spelledPath`: a collection's name goes on into the names of its members.
- Theorem `keys_rename`: the keys of a renamed item are those of its leaves.
- Theorem `ofName?_eq_none_of_infix`: no known address has a name with the mark of a collection.
- Theorem `accountKeys_instruction`: the keys of a converted instruction.
-/

namespace CanonicalIdl

/-- A slot and the names of the collections that it stands in, from the outside. -/
structure AccountLeaf where
  path : List String
  slot : AccountReference

mutual

/-- The leaves of an item that stands in some collections, in order. -/
def AccountItem.leaves (path : List String) : AccountItem → List AccountLeaf
  | .reference slot => [⟨path, slot⟩]
  | .collection name members => AccountItem.leavesOfItems (path ++ [name]) members

/-- The leaves of some items that stand in some collections, in order. -/
def AccountItem.leavesOfItems (path : List String) : List AccountItem → List AccountLeaf
  | [] => []
  | item :: rest => AccountItem.leaves path item ++ AccountItem.leavesOfItems path rest

end

/-- The leaves of the accounts of a declared instruction. -/
def Declared.Instruction.leaves (declared : Declared.Instruction) : List AccountLeaf :=
  AccountItem.leavesOfItems [] declared.accounts

/-! ## Names -/

/-- What a declared name adds to that of the collection it stands in. -/
def memberPart (name : String) : List Char :=
  "Item".toList ++ (capitalized (camelName name)).toList

/-- The name that is spelled from the declared names on a way into the tree. -/
def spelledPath : List String → String
  | [] => ""
  | first :: rest => String.ofList ((camelName first).toList ++ rest.flatMap memberPart)

/-- The full name of the collection that a way leads to, if it leads to one. -/
def collectionName (path : List String) : Option String :=
  if path = [] then none else some (spelledPath path)

/-- The name of a collection goes on into those of its members. -/
theorem qualifiedName_spelledPath (path : List String) (name : String) :
    qualifiedName (collectionName path) (camelName name) = spelledPath (path ++ [name]) := by
  cases path with
  | nil => simp [collectionName, qualifiedName, spelledPath]
  | cons first rest =>
    apply String.toList_injective
    simp [collectionName, qualifiedName, spelledPath, memberName, memberPart]

theorem collectionName_append (path : List String) (name : String) :
    collectionName (path ++ [name]) = some (spelledPath (path ++ [name])) := by
  simp [collectionName]

/-! ## Keys -/

namespace AccountLeaf

/-- The name of the key of a leaf. -/
def fullName (leaf : AccountLeaf) : String := spelledPath (leaf.path ++ [leaf.slot.name])

/-- The key of a leaf: it has all that the slot declares, and a known address by its name where
the slot pins none. -/
def key (leaf : AccountLeaf) : AccountKey where
  name := leaf.fullName
  writable := leaf.slot.writable
  signer := leaf.slot.signer
  optional := leaf.slot.optional
  docs := leaf.slot.docs
  known :=
    match leaf.slot.address with
    | some address => some (.fixed address)
    | none => KnownAddress.ofName? leaf.fullName

end AccountLeaf

namespace AccountItem

/-- A slot under its full name has the key of its leaf. -/
theorem ofReference_eq_key (path : List String) (slot : AccountReference) :
    AccountKey.ofReference { slot with name := camelName slot.name }
        (qualifiedName (collectionName path) (camelName slot.name)) =
      AccountLeaf.key ⟨path, slot⟩ := by
  rw [qualifiedName_spelledPath]
  cases haddress : slot.address <;>
    simp [AccountKey.ofReference, AccountLeaf.key, AccountLeaf.fullName, haddress]

mutual

/-- The keys of a renamed item are those of its leaves. -/
theorem keys_rename (path : List String) : (item : AccountItem) →
    (item.rename camelName).keys (collectionName path) = (item.leaves path).map AccountLeaf.key
  | .reference slot => by
    rw [rename, keys, leaves, ofReference_eq_key, List.map_singleton]
  | .collection name members => by
    rw [rename, keys, leaves, qualifiedName_spelledPath, ← collectionName_append]
    exact keysOfItems_renameItems (path ++ [name]) members

theorem keysOfItems_renameItems (path : List String) : (items : List AccountItem) →
    keysOfItems (collectionName path) (renameItems camelName items) =
      (leavesOfItems path items).map AccountLeaf.key
  | [] => rfl
  | item :: rest => by
    rw [renameItems, keysOfItems, leavesOfItems, List.map_append, keys_rename path item,
      keysOfItems_renameItems path rest]

end

mutual

/-- Every slot of an item is the slot of one leaf, in the same order. -/
theorem map_slot_leaves (path : List String) : (item : AccountItem) →
    (item.leaves path).map (·.slot) = item.slots
  | .reference slot => rfl
  | .collection name members => by
    rw [leaves, slots, map_slot_leavesOfItems (path ++ [name]) members]

theorem map_slot_leavesOfItems (path : List String) : (items : List AccountItem) →
    (leavesOfItems path items).map (·.slot) = slotsOfItems items
  | [] => rfl
  | item :: rest => by
    rw [leavesOfItems, slotsOfItems, List.map_append, map_slot_leaves path item,
      map_slot_leavesOfItems path rest]

end

end AccountItem

/-! ## Known addresses -/

namespace KnownAddress

theorem fold_append (front back : List Char) : fold (front ++ back) = fold front ++ fold back := by
  simp [fold]

/-- No name with the mark of a collection in it folds to that of a known address. -/
theorem ofFolded?_eq_none_of_infix {folded : List Char} (h : fold "Item".toList <:+: folded) :
    ofFolded? folded = none := by
  have hprogram : ¬ fold "Item".toList <:+: fold programAccount.toList := by decide +kernel
  have hknown : ∀ known ∈ wellKnown, ¬ fold "Item".toList <:+: fold known.1.toList := by
    decide +kernel
  have hne : folded ≠ fold programAccount.toList := by
    rintro rfl
    exact hprogram h
  have hfind : wellKnown.find? (fun known => fold known.1.toList == folded) = none := by
    rw [List.find?_eq_none]
    intro known hmem heq
    rw [← eq_of_beq heq] at h
    exact hknown known hmem h
  rw [ofFolded?, if_neg hne, hfind, Option.map_none]

theorem ofName?_eq_none_of_infix {name : String} (h : "Item".toList <:+: name.toList) :
    ofName? name = none := by
  obtain ⟨front, back, hname⟩ := h
  apply ofFolded?_eq_none_of_infix
  rw [← hname, fold_append, fold_append]
  exact ⟨fold front, fold back, rfl⟩

end KnownAddress

/-- The name of a leaf in a collection has the mark of a collection in it. -/
theorem AccountLeaf.infix_fullName {leaf : AccountLeaf} (h : leaf.path ≠ []) :
    "Item".toList <:+: leaf.fullName.toList := by
  obtain ⟨first, rest, hpath⟩ := List.exists_cons_of_ne_nil h
  rw [fullName, hpath, List.cons_append, spelledPath, String.toList_ofList, List.flatMap_append,
    List.flatMap_singleton, memberPart]
  exact ⟨(camelName first).toList ++ rest.flatMap memberPart,
    (capitalized (camelName leaf.slot.name)).toList, by simp⟩

/-! ## Instructions -/

theorem accounts_instruction (resolver : Resolver) (run : Run) (declared : Declared.Instruction) :
    ((Anchor.instruction declared).run resolver run).1.accounts =
      AccountItem.renameItems camelName declared.accounts := by
  simp [Anchor.instruction, Conversion.instruction]

/-- The keys of a converted instruction are those of the leaves of its declared accounts: one
for each slot, in the order of the tree, with the name that is spelled from the names on the way
to it.  A leaf in a collection has no known address but one that its slot pins. -/
theorem accountKeys_instruction (resolver : Resolver) (run : Run)
    (declared : Declared.Instruction) :
    ((Anchor.instruction declared).run resolver run).1.accountKeys =
        declared.leaves.map AccountLeaf.key ∧
      declared.leaves.map (·.slot) = AccountItem.slotsOfItems declared.accounts ∧
      ∀ leaf ∈ declared.leaves, leaf.path ≠ [] → leaf.slot.address = none →
        leaf.key.known = none := by
  refine ⟨?_, AccountItem.map_slot_leavesOfItems [] declared.accounts, ?_⟩
  · rw [Instruction.accountKeys, accounts_instruction]
    exact AccountItem.keysOfItems_renameItems [] declared.accounts
  · intro leaf _ hpath haddress
    rw [AccountLeaf.key, haddress]
    exact KnownAddress.ofName?_eq_none_of_infix (AccountLeaf.infix_fullName hpath)

/-- A slot of a name with nothing declared about it. -/
def plainSlot (name : String) : AccountReference :=
  ⟨name, false, false, false, [], none, .empty⟩

/-- A swap with two collections in one another and an empty one: the pool pins one address. -/
def swapInstruction : Declared.Instruction where
  name := "swap"
  docs := []
  accounts :=
    [.reference { plainSlot "fee_payer" with signer := true },
      .collection "token_pool"
        [.collection "no_slots" [],
          .collection "vault_pair"
            [.reference { plainSlot "token_a" with writable := true, docs := ["First."] },
              .reference { plainSlot "rent" with address := some "Pinned" }],
          .reference { plainSlot "clock" with optional := true }],
      .reference (plainSlot "token_program")]
  args := []
  discriminator := none
  omitsMissing := false
  extra := .empty

/-- The swap has five keys.  The clock in its pool has no known address, since its name tells the
pool. -/
theorem accountKeys_instruction_swap :
    ((Anchor.instruction swapInstruction).run Chain.standard.resolve Run.start).1.accountKeys =
        [⟨"feePayer", false, true, false, [], none⟩,
          ⟨"tokenPoolItemVaultPairItemTokenA", true, false, false, ["First."], none⟩,
          ⟨"tokenPoolItemVaultPairItemRent", false, false, false, [], some (.fixed "Pinned")⟩,
          ⟨"tokenPoolItemClock", false, false, true, [], none⟩,
          ⟨"tokenProgram", false, false, false, [],
            some (.fixed "TokenkegQfeZyiNwAJbNbGKPFXCWuBvf9Ss623VQ5DA")⟩] ∧
      (AccountLeaf.mk ["token_pool"] { plainSlot "clock" with optional := true }).key.known =
        none := by
  have h := accountKeys_instruction Chain.standard.resolve Run.start swapInstruction
  exact ⟨h.1.trans (by decide +kernel), h.2.2 _ (by simp [Declared.Instruction.leaves,
    swapInstruction, AccountItem.leavesOfItems, AccountItem.leaves, plainSlot]) (by simp) rfl⟩

end CanonicalIdl
