import CanonicalIdl.Interface.Basic
import CanonicalIdl.KnownAddress

/-!
# Account keys

The account items of an instruction are a tree of collections.  A key stands for one
slot of it, in the order of the tree; its name tells the collections that it stands in.

Main results:

- Theorem `length_keysOfItems`: there is one key for each slot.
-/

namespace CanonicalIdl

open Json

/-- An account slot with its full name and its default address. -/
structure AccountKey where
  name : String
  writable : Bool
  signer : Bool
  optional : Bool
  docs : List String
  known : Option KnownAddress
  deriving Repr, DecidableEq

namespace AccountKey

/-- The key of a slot under its full name.  A pinned address goes before a known one. -/
def ofReference (slot : AccountReference) (name : String) : AccountKey where
  name := name
  writable := slot.writable
  signer := slot.signer
  optional := slot.optional
  docs := slot.docs
  known := (slot.address.map .fixed).or (KnownAddress.ofName? name)

/-- The JSON form of a key. -/
def toJson (key : AccountKey) : Json :=
  .object ([("name", .string key.name), ("writable", .bool key.writable),
      ("signer", .bool key.signer), ("optional", .bool key.optional)] ++
    docsMember key.docs ++ optionalMember "knownPubkey" KnownAddress.toJson key.known)

end AccountKey

/-- The full name of an item in a collection, or of an item in none. -/
def qualifiedName : Option String → String → String
  | some collection, name => memberName collection name
  | none, name => name

mutual

/-- The keys of an item that stands in the collection of a full name, or in none. -/
def AccountItem.keys (collection : Option String) : AccountItem → List AccountKey
  | .reference slot => [AccountKey.ofReference slot (qualifiedName collection slot.name)]
  | .collection name members =>
    AccountItem.keysOfItems (some (qualifiedName collection name)) members

/-- The keys of some items, in order. -/
def AccountItem.keysOfItems (collection : Option String) : List AccountItem → List AccountKey
  | [] => []
  | item :: rest =>
    AccountItem.keys collection item ++ AccountItem.keysOfItems collection rest

end

mutual

/-- The slots of an item, in order. -/
def AccountItem.slots : AccountItem → List AccountReference
  | .reference slot => [slot]
  | .collection _ members => AccountItem.slotsOfItems members

/-- The slots of some items, in order. -/
def AccountItem.slotsOfItems : List AccountItem → List AccountReference
  | [] => []
  | item :: rest => AccountItem.slots item ++ AccountItem.slotsOfItems rest

end

/-- The account keys of an instruction. -/
def Instruction.accountKeys (instruction : Instruction) : List AccountKey :=
  AccountItem.keysOfItems none instruction.accounts

mutual

theorem AccountItem.length_keys (collection : Option String) :
    (item : AccountItem) → (item.keys collection).length = item.slots.length
  | .reference _ => by simp [AccountItem.keys, AccountItem.slots]
  | .collection name members => by
    simp [AccountItem.keys, AccountItem.slots,
      AccountItem.length_keysOfItems (some (qualifiedName collection name)) members]

/-- There is one key for each slot. -/
theorem AccountItem.length_keysOfItems (collection : Option String) :
    (items : List AccountItem) →
      (AccountItem.keysOfItems collection items).length = (AccountItem.slotsOfItems items).length
  | [] => rfl
  | item :: rest => by
    simp [AccountItem.keysOfItems, AccountItem.slotsOfItems,
      AccountItem.length_keys collection item, AccountItem.length_keysOfItems collection rest]

end

end CanonicalIdl
