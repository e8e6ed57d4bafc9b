import CanonicalIdl.Accounts.Supplied
import CanonicalIdl.Proofs.Accounts.Leaves
import Mathlib.Data.List.Infix
import Mathlib.Data.List.Nodup

/-!
# Names of account keys

The name of a key is glued together from the names on the way to its slot, with the mark of a
collection between them.  If no name on the way holds the mark, the first mark in a glued name
shows where its first part ends.  So items of one list that differ in name have keys that differ
in name, whatever collections lie below, and what is supplied for a key goes to no other one.

Main results:

- Theorem `eq_of_append_eq_append`: the part in front of the first mark can be told.
- Theorem `nodup_names_keysOfItems`: the keys of a list of items have different names if the
  items of each list have.
- Theorem `Instruction.nodup_names_accountKeys`: so have the keys of an instruction.
-/

namespace CanonicalIdl

/-! ## The mark of a collection -/

/-- What stands between the name of a collection and that of a member. -/
def collectionMark : List Char := "Item".toList

/-- The mark does not stand anywhere in the text. -/
def Unmarked (text : List Char) : Prop := ¬ collectionMark <:+: text

/-- Nothing, or a text that starts with the mark. -/
def IsMarkedTail (text : List Char) : Prop := text = [] ∨ collectionMark <+: text

instance (text : List Char) : Decidable (Unmarked text) :=
  inferInstanceAs (Decidable (¬ _))

/-- A tail does not start within another part of a name: the mark would have to overlap with
itself, and its first letter does not come in it again. -/
theorem eq_nil_of_unmarked_append {front rest tail : List Char} (h : Unmarked (front ++ rest))
    (hwhole : IsMarkedTail (rest ++ tail)) (htail : IsMarkedTail tail) : rest = [] := by
  rcases hwhole with hnil | ⟨behind, hbehind⟩
  · exact (List.append_eq_nil_iff.mp hnil).1
  rcases List.append_eq_append_iff.mp hbehind with ⟨more, hrest, -⟩ | ⟨shared, hmark, hshared⟩
  · have hinfix : collectionMark <:+: front ++ rest :=
      ⟨front, more, by rw [hrest, List.append_assoc]⟩
    exact absurd hinfix h
  -- the mark is made of `rest` and of what it shares with the tail
  cases rest with
  | nil => rfl
  | cons c others =>
    have hothers : others ++ shared = "tem".toList := (List.cons.inj hmark).2.symm
    rcases shared with _ | ⟨d, more⟩
    · have hinfix : collectionMark <:+: front ++ c :: others :=
        ⟨front, [], by rw [hmark, List.append_nil, List.append_nil]⟩
      exact absurd hinfix h
    · have hd : d ∈ "tem".toList := by
        rw [← hothers]
        exact List.mem_append_right others List.mem_cons_self
      have hfirst : d = 'I' := by
        rcases htail with rfl | ⟨behind, rfl⟩
        · cases hshared
        · exact (List.cons.inj hshared).1.symm
      subst hfirst
      exact absurd hd (by decide)

/-- The part in front of the first mark can be told. -/
theorem eq_of_append_eq_append {front other tail otherTail : List Char} (h : Unmarked front)
    (hother : Unmarked other) (htail : IsMarkedTail tail) (hotherTail : IsMarkedTail otherTail)
    (heq : front ++ tail = other ++ otherTail) : front = other := by
  rcases List.append_eq_append_iff.mp heq with ⟨rest, rfl, rfl⟩ | ⟨rest, rfl, rfl⟩
  · rw [eq_nil_of_unmarked_append hother htail hotherTail, List.append_nil]
  · rw [eq_nil_of_unmarked_append h hotherTail htail, List.append_nil]

/-! ## Names of keys -/

theorem toList_memberName (collection member : String) :
    (memberName collection member).toList =
      collection.toList ++ (collectionMark ++ (capitalized member).toList) := by
  rw [memberName, String.toList_append, String.toList_append, List.append_assoc, collectionMark]

namespace AccountItem

theorem keysOfItems_eq_flatMap (collection : Option String) (items : List AccountItem) :
    keysOfItems collection items = items.flatMap (keys collection) := by
  induction items with
  | nil => rfl
  | cons item rest ih => rw [keysOfItems, ih, List.flatMap_cons]

mutual

/-- The name of a key goes on behind the full name of its item with nothing or a mark. -/
theorem exists_tail_of_mem_keys (collection : Option String) : (item : AccountItem) →
    ∀ key ∈ item.keys collection, ∃ tail, IsMarkedTail tail ∧
      key.name.toList = (qualifiedName collection item.name).toList ++ tail
  | .reference slot, key, hkey => by
    obtain rfl := List.mem_singleton.mp hkey
    exact ⟨[], .inl rfl, (List.append_nil _).symm⟩
  | .collection name members, key, hkey => by
    obtain ⟨tail, htail⟩ :=
      exists_tail_of_mem_keysOfItems (qualifiedName collection name) members key hkey
    exact ⟨collectionMark ++ tail, .inr ⟨tail, rfl⟩, htail⟩

/-- The name of a key in a collection goes on behind that of the collection with a mark. -/
theorem exists_tail_of_mem_keysOfItems (collection : String) : (items : List AccountItem) →
    ∀ key ∈ keysOfItems (some collection) items, ∃ tail,
      key.name.toList = collection.toList ++ (collectionMark ++ tail)
  | [], _, hkey => absurd hkey List.not_mem_nil
  | item :: rest, key, hkey => by
    rcases List.mem_append.mp hkey with hkey | hkey
    · obtain ⟨tail, -, hname⟩ := exists_tail_of_mem_keys (some collection) item key hkey
      refine ⟨(capitalized item.name).toList ++ tail, ?_⟩
      rw [hname, qualifiedName, toList_memberName, List.append_assoc, List.append_assoc]
    · exact exists_tail_of_mem_keysOfItems collection rest key hkey

end

/-! ## Lists of items -/

mutual

/-- The lists of members inside an item, at every depth. -/
def memberLists : AccountItem → List (List AccountItem)
  | .reference _ => []
  | .collection _ members => members :: memberListsOf members

/-- The lists of members inside some items, at every depth. -/
def memberListsOf : List AccountItem → List (List AccountItem)
  | [] => []
  | item :: rest => memberLists item ++ memberListsOf rest

end

/-- A list of items and the lists of members inside it. -/
def itemLists (items : List AccountItem) : List (List AccountItem) :=
  items :: memberListsOf items

/-- The items of a list have no mark in their names, as they are written and with their first
letter capital, and no two names are equal but for their first letter. -/
structure TellApart (items : List AccountItem) : Prop where
  unmarked : ∀ item ∈ items, Unmarked item.name.toList ∧ Unmarked (capitalized item.name).toList
  nodup : (items.map fun item => capitalized item.name).Nodup

instance (items : List AccountItem) : Decidable (TellApart items) :=
  decidable_of_iff ((∀ item ∈ items, Unmarked item.name.toList ∧
      Unmarked (capitalized item.name).toList) ∧
      (items.map fun item => capitalized item.name).Nodup)
    ⟨fun ⟨hunmarked, hnodup⟩ => ⟨hunmarked, hnodup⟩, fun h => ⟨h.unmarked, h.nodup⟩⟩

theorem TellApart.tail {item : AccountItem} {rest : List AccountItem}
    (h : TellApart (item :: rest)) : TellApart rest :=
  ⟨(List.forall_mem_cons.mp h.unmarked).2, (List.nodup_cons.mp h.nodup).2⟩

/-- Items of one list have the same name if the names of keys in them are equal. -/
theorem capitalized_eq_of_mem_keys {collection : Option String} {item other : AccountItem}
    {key otherKey : AccountKey}
    (h : Unmarked item.name.toList ∧ Unmarked (capitalized item.name).toList)
    (hother : Unmarked other.name.toList ∧ Unmarked (capitalized other.name).toList)
    (hkey : key ∈ item.keys collection) (hotherKey : otherKey ∈ other.keys collection)
    (heq : key.name = otherKey.name) : capitalized item.name = capitalized other.name := by
  obtain ⟨tail, htail, hname⟩ := exists_tail_of_mem_keys collection item key hkey
  obtain ⟨otherTail, hotherTail, hotherName⟩ :=
    exists_tail_of_mem_keys collection other otherKey hotherKey
  have hglued : (qualifiedName collection item.name).toList ++ tail =
      (qualifiedName collection other.name).toList ++ otherTail := by
    rw [← hname, ← hotherName, heq]
  cases collection with
  | none =>
    have hnames := eq_of_append_eq_append h.1 hother.1 htail hotherTail hglued
    rw [String.toList_injective hnames]
  | some collection =>
    simp only [qualifiedName, toList_memberName, List.append_assoc, List.append_cancel_left_eq]
      at hglued
    exact String.toList_injective (eq_of_append_eq_append h.2 hother.2 htail hotherTail hglued)

mutual

/-- The keys of an item have different names. -/
theorem nodup_names_keys (collection : Option String) : (item : AccountItem) →
    (∀ items ∈ item.memberLists, TellApart items) →
    ((item.keys collection).map (·.name)).Nodup
  | .reference _, _ => List.nodup_singleton _
  | .collection name members, h => by
    obtain ⟨hmembers, hdeeper⟩ := List.forall_mem_cons.mp h
    exact nodup_names_keysOfItems (some (qualifiedName collection name)) members hmembers hdeeper

/-- The keys of a list of items have different names if the items of each list have. -/
theorem nodup_names_keysOfItems (collection : Option String) : (items : List AccountItem) →
    TellApart items → (∀ deeper ∈ memberListsOf items, TellApart deeper) →
    ((keysOfItems collection items).map (·.name)).Nodup
  | [], _, _ => List.nodup_nil
  | item :: rest, h, hdeeper => by
    obtain ⟨hitem, hrest⟩ := List.forall_mem_append.mp hdeeper
    rw [keysOfItems, List.map_append]
    refine List.nodup_append.mpr ⟨nodup_names_keys collection item hitem,
      nodup_names_keysOfItems collection rest h.tail hrest, ?_⟩
    intro name hname otherName hotherName heq
    obtain ⟨key, hkey, rfl⟩ := List.mem_map.mp hname
    obtain ⟨otherKey, hotherKey, rfl⟩ := List.mem_map.mp hotherName
    rw [keysOfItems_eq_flatMap] at hotherKey
    obtain ⟨other, hother, hotherKey⟩ := List.mem_flatMap.mp hotherKey
    have hsame : capitalized item.name = capitalized other.name :=
      capitalized_eq_of_mem_keys (h.unmarked item List.mem_cons_self)
        (h.unmarked other (List.mem_cons_of_mem item hother)) hkey hotherKey heq
    apply (List.nodup_cons.mp h.nodup).1
    exact List.mem_map.mpr ⟨other, hother, hsame.symm⟩

end

end AccountItem

/-! ## Instructions -/

/-- The account keys of an instruction have different names if in each list of its account
items the names tell the items apart.  Then an address that is supplied for one key changes what
is supplied for no other one. -/
theorem Instruction.nodup_names_accountKeys {instruction : Instruction}
    (h : ∀ items ∈ AccountItem.itemLists instruction.accounts, AccountItem.TellApart items) :
    (instruction.accountKeys.map (·.name)).Nodup ∧
      ∀ {i j : Nat} {key other : AccountKey}, instruction.accountKeys[i]? = some key →
        instruction.accountKeys[j]? = some other → i ≠ j →
        ∀ (supplied : Supplied) (address : String),
          (supplied.insert key.name address).get? other.name = supplied.get? other.name := by
  obtain ⟨hitems, hdeeper⟩ := List.forall_mem_cons.mp h
  have hnodup : (instruction.accountKeys.map (·.name)).Nodup :=
    AccountItem.nodup_names_keysOfItems none instruction.accounts hitems hdeeper
  refine ⟨hnodup, ?_⟩
  intro i j key other hkey hother hne supplied address
  have hnames : other.name ≠ key.name := by
    intro heq
    apply hne
    have hi : i < (instruction.accountKeys.map (·.name)).length := by
      rw [List.length_map]
      exact (List.getElem?_eq_some_iff.mp hkey).1
    refine (List.getElem?_inj hi hnodup).mp ?_
    rw [List.getElem?_map, List.getElem?_map, hkey, hother, Option.map_some, Option.map_some, heq]
  rw [Supplied.get?_insert, if_neg hnames]

/-- A trade with two pools of the same members, beside slots that are named much like those. -/
def tradeInstruction : Instruction where
  name := "trade"
  docs := []
  discriminator := none
  accounts :=
    [.reference (plainSlot "poolVault"),
      .collection "pool" [.reference (plainSlot "vault"),
        .collection "fees" [.reference (plainSlot "vault")]],
      .collection "poolIte" [.reference (plainSlot "mVault")],
      .collection "otherPool" [.reference (plainSlot "vault"),
        .collection "fees" [.reference (plainSlot "vault")]]]
  args := []
  omitsMissing := false
  extra := .empty

/-- The six keys of the trade have different names, and what is supplied for the vault of one
pool is not taken for that of the other. -/
theorem Instruction.nodup_names_accountKeys_trade :
    (∀ items ∈ AccountItem.itemLists tradeInstruction.accounts, AccountItem.TellApart items) ∧
      tradeInstruction.accountKeys.map (·.name) =
        ["poolVault", "poolItemVault", "poolItemFeesItemVault", "poolIteItemMVault",
          "otherPoolItemVault", "otherPoolItemFeesItemVault"] ∧
      (tradeInstruction.accountKeys.map (·.name)).Nodup ∧
      (Supplied.empty.insert "poolItemVault" "V").get? "otherPoolItemVault" = none := by
  have h : ∀ items ∈ AccountItem.itemLists tradeInstruction.accounts,
      AccountItem.TellApart items := by
    decide +kernel
  obtain ⟨hnodup, hsupplied⟩ := nodup_names_accountKeys h
  have hnone := @hsupplied 1 4 _ _ rfl rfl (by decide) .empty "V"
  exact ⟨h, by decide +kernel, hnodup, hnone⟩

/-- A name with a mark in it can stand for a way into a collection. -/
example :
    (AccountItem.keysOfItems none [.reference (plainSlot "poolItemVault"),
      .collection "pool" [.reference (plainSlot "vault")]]).map (·.name) =
        ["poolItemVault", "poolItemVault"] := by
  decide +kernel

end CanonicalIdl
