import CanonicalIdl.Json.Value

/-!
# Members that nobody interprets

Some records keep the members whose keys they do not know.  They are kept in canonical
form, sorted by key, and are written behind the members that the record knows.

Main results:

- Theorem `ofMembers_entries`: the members that are kept are kept as they are.
-/

namespace CanonicalIdl.Json

/-- Uninterpreted members, in canonical form and sorted by key. -/
structure Extra where
  entries : List (String × Json)
  sorted : SortedMembers entries
  canonical : canonicalMembers entries = entries
  deriving Repr

namespace Extra

/-- No members. -/
def empty : Extra := ⟨[], List.Pairwise.nil, rfl⟩

instance : Inhabited Extra := ⟨empty⟩

/-- The members of an object in canonical form; of a repeated key the last one. -/
def ofMembers (members : List (String × Json)) : Extra where
  entries := sortMembers (canonicalMembers members)
  sorted := sorted_sortMembers _
  canonical := by
    rw [sortMembers, canonicalMembers_insertMembers, canonicalMembers_canonicalMembers]
    rfl

/-- The members of both; where both have a key, that of `own`. -/
def merge (base own : Extra) : Extra where
  entries := insertMembers base.entries own.entries
  sorted := sorted_insertMembers _ base.sorted
  canonical := by rw [canonicalMembers_insertMembers, base.canonical, own.canonical]

/-- Two collections with the same entries are the same. -/
theorem ext_entries {a b : Extra} (h : a.entries = b.entries) : a = b := by
  cases a
  cases b
  cases h
  rfl

/-- The members that are kept are kept as they are. -/
theorem ofMembers_entries (extra : Extra) : ofMembers extra.entries = extra := by
  apply ext_entries
  change sortMembers (canonicalMembers extra.entries) = extra.entries
  rw [extra.canonical, sortMembers_of_sorted extra.sorted]

end Extra

end CanonicalIdl.Json
