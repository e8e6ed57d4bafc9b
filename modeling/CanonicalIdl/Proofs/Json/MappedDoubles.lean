import CanonicalIdl.Proofs.Json.Everywhere
import CanonicalIdl.Proofs.Json.Members
import Mathlib

/-!
# Values with other floating-point numbers

When a value is written and read back, its floating-point numbers may have become others, and
nothing else has changed.  Keys and their order stay, so the canonical form of such a value is
that of the value it came from.

Main results:

- Theorem `mapDoubles_of_isNotDouble`: a value without floating-point numbers stays as it is.
- Theorem `canonical_mapDoubles`: bringing a value into canonical form does not touch its numbers.
-/

namespace CanonicalIdl.Json

/-! ## The values of members -/

section Members

variable {α β : Type} (f : α → β)

/-- The same keys with other values. -/
def mapMembers (members : List (String × α)) : List (String × β) :=
  members.map fun member => (member.1, f member.2)

/-- What stands under a key is replaced where it stands. -/
theorem lookup_mapMembers (members : List (String × α)) (key : String) :
    (mapMembers f members).lookup key = (members.lookup key).map f := by
  induction members with
  | nil => rfl
  | cons member rest ih =>
    rw [mapMembers, List.map_cons, lookup_cons, lookup_cons, ← mapMembers, ih]
    split <;> rfl

/-- Other values leave the keys in order. -/
theorem SortedMembers.mapMembers {members : List (String × α)} (h : SortedMembers members) :
    SortedMembers (mapMembers f members) :=
  List.pairwise_map.mpr h

/-- Values may be replaced before or after a member is put in. -/
theorem insertMember_mapMembers (key : String) (value : α) (members : List (String × α)) :
    insertMember key (f value) (mapMembers f members) =
      mapMembers f (insertMember key value members) := by
  induction members with
  | nil => rfl
  | cons member rest ih =>
    rw [mapMembers, List.map_cons, insertMember, insertMember, ← mapMembers, ih]
    split
    · rfl
    · split <;> rfl

/-- So they may for several members. -/
theorem insertMembers_mapMembers (members more : List (String × α)) :
    insertMembers (mapMembers f members) (mapMembers f more) =
      mapMembers f (insertMembers members more) := by
  induction more generalizing members with
  | nil => rfl
  | cons member rest ih =>
    change insertMembers (insertMember member.1 (f member.2) (mapMembers f members))
      (mapMembers f rest) = _
    rw [insertMember_mapMembers, ih]
    rfl

/-- So they may when members are sorted. -/
theorem sortMembers_mapMembers (members : List (String × α)) :
    sortMembers (mapMembers f members) = mapMembers f (sortMembers members) :=
  insertMembers_mapMembers f [] members

end Members

/-! ## Floating-point numbers -/

mutual

/-- The value with every floating-point number replaced. -/
def mapDoubles (f : Double → Double) : Json → Json
  | .double x => .double (f x)
  | .array items => .array (mapDoublesItems f items)
  | .object members => .object (mapDoublesMembers f members)
  | .null => .null
  | .bool b => .bool b
  | .int n => .int n
  | .string s => .string s

/-- The items of an array with every floating-point number replaced. -/
def mapDoublesItems (f : Double → Double) : List Json → List Json
  | [] => []
  | item :: rest => mapDoubles f item :: mapDoublesItems f rest

/-- The members of an object with every floating-point number replaced. -/
def mapDoublesMembers (f : Double → Double) : List (String × Json) → List (String × Json)
  | [] => []
  | (key, value) :: rest => (key, mapDoubles f value) :: mapDoublesMembers f rest

end

variable (f : Double → Double)

/-- The items of an array are treated one by one. -/
theorem mapDoublesItems_eq_map (items : List Json) :
    mapDoublesItems f items = items.map (mapDoubles f) := by
  induction items with
  | nil => rfl
  | cons item rest ih => rw [mapDoublesItems, ih, List.map_cons]

/-- So are the members of an object, and their keys stay. -/
theorem mapDoublesMembers_eq (members : List (String × Json)) :
    mapDoublesMembers f members = mapMembers (mapDoubles f) members := by
  induction members with
  | nil => rfl
  | cons member rest ih =>
    rw [mapDoublesMembers, ih]
    rfl

/-- Members may be treated in two parts. -/
theorem mapDoublesMembers_append (front back : List (String × Json)) :
    mapDoublesMembers f (front ++ back) =
      mapDoublesMembers f front ++ mapDoublesMembers f back := by
  simp [mapDoublesMembers_eq, mapMembers]

mutual

/-- A value without floating-point numbers stays as it is. -/
theorem mapDoubles_of_isNotDouble : (value : Json) →
    (Document.ofJson value).Everywhere Document.IsNotDouble → value.mapDoubles f = value
  | .null, _ | .bool _, _ | .int _, _ | .string _, _ => rfl
  | .double _, h => absurd h.self id
  | .array items, h => by
    rw [mapDoubles, mapDoublesItems_of_isNotDouble items (Document.everywhere_ofJson_array.mp h).2]
  | .object members, h => by
    rw [mapDoubles,
      mapDoublesMembers_of_isNotDouble members (Document.everywhere_ofJson_object.mp h).2]

/-- Items without floating-point numbers stay as they are. -/
theorem mapDoublesItems_of_isNotDouble : (items : List Json) →
    (∀ item ∈ items, (Document.ofJson item).Everywhere Document.IsNotDouble) →
    mapDoublesItems f items = items
  | [], _ => rfl
  | item :: rest, h => by
    obtain ⟨hitem, hrest⟩ := List.forall_mem_cons.mp h
    rw [mapDoublesItems, mapDoubles_of_isNotDouble item hitem,
      mapDoublesItems_of_isNotDouble rest hrest]

theorem mapDoublesMembers_of_isNotDouble : (members : List (String × Json)) →
    (∀ member ∈ members, (Document.ofJson member.2).Everywhere Document.IsNotDouble) →
    mapDoublesMembers f members = members
  | [], _ => rfl
  | (key, value) :: rest, h => by
    obtain ⟨hvalue, hrest⟩ := List.forall_mem_cons.mp h
    rw [mapDoublesMembers, mapDoubles_of_isNotDouble value hvalue,
      mapDoublesMembers_of_isNotDouble rest hrest]

end

mutual

/-- Bringing a value into canonical form does not touch its numbers. -/
theorem canonical_mapDoubles : (value : Json) →
    (value.mapDoubles f).canonical = value.canonical.mapDoubles f
  | .null | .bool _ | .int _ | .string _ | .double _ => rfl
  | .array items => by
    rw [mapDoubles, canonical, canonical, mapDoubles, canonicalItems_mapDoublesItems items]
  | .object members => by
    rw [mapDoubles, canonical, canonical, mapDoubles, canonicalMembers_mapDoublesMembers members,
      mapDoublesMembers_eq, mapDoublesMembers_eq, sortMembers_mapMembers]

theorem canonicalItems_mapDoublesItems : (items : List Json) →
    canonicalItems (mapDoublesItems f items) = mapDoublesItems f (canonicalItems items)
  | [] => rfl
  | item :: rest => by
    rw [mapDoublesItems, canonicalItems, canonicalItems, mapDoublesItems,
      canonical_mapDoubles item, canonicalItems_mapDoublesItems rest]

theorem canonicalMembers_mapDoublesMembers : (members : List (String × Json)) →
    canonicalMembers (mapDoublesMembers f members) = mapDoublesMembers f (canonicalMembers members)
  | [] => rfl
  | (key, value) :: rest => by
    rw [mapDoublesMembers, canonicalMembers, canonicalMembers, mapDoublesMembers,
      canonical_mapDoubles value, canonicalMembers_mapDoublesMembers rest]

end

/-- Uninterpreted members with other floating-point numbers. -/
def Extra.mapDoubles (extra : Extra) : Extra where
  entries := mapDoublesMembers f extra.entries
  sorted := mapDoublesMembers_eq f extra.entries ▸ extra.sorted.mapMembers _
  canonical := by rw [canonicalMembers_mapDoublesMembers, extra.canonical]

theorem Extra.entries_mapDoubles (extra : Extra) :
    (extra.mapDoubles f).entries = mapMembers (Json.mapDoubles f) extra.entries :=
  mapDoublesMembers_eq f extra.entries

/-- What is kept under a key is treated where it stands. -/
theorem Extra.get?_mapDoubles (extra : Extra) (key : String) :
    (extra.mapDoubles f).get? key = (extra.get? key).map (Json.mapDoubles f) := by
  rw [Extra.get?, Extra.entries_mapDoubles, lookup_mapMembers]
  rfl

end CanonicalIdl.Json
