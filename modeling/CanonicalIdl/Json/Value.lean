import CanonicalIdl.Json.Double

/-!
# JSON values

A value keeps the members of an object in the order in which they were written, a
repeated key included.  Its canonical form has sorted keys and the last member of
each key.

Main results:

- Theorem `sorted_insertMember`: inserting keeps members sorted by key.
- Theorem `sorted_sortMembers`, `sortMembers_of_sorted`: sorting sorts, and changes nothing
  that is sorted.
- Theorem `canonical_canonical`: a canonical form is its own canonical form.
-/

namespace CanonicalIdl

/-- A JSON value.  Integers and floating-point numbers are kept apart. -/
inductive Json where
  | null
  | bool (b : Bool)
  | int (n : Int)
  | double (x : Json.Double)
  | string (s : String)
  | array (items : List Json)
  | object (members : List (String × Json))
  deriving Repr, Inhabited

namespace Json

/-- Members sorted by key, no key twice. -/
def SortedMembers {α : Type} (members : List (String × α)) : Prop :=
  members.Pairwise fun a b => a.1 < b.1

/-- Put a member at the place of its key, in exchange for an earlier member of that key. -/
def insertMember {α : Type} (key : String) (value : α) :
    List (String × α) → List (String × α)
  | [] => [(key, value)]
  | (k, v) :: rest =>
    if key < k then (key, value) :: (k, v) :: rest
    else if key = k then (key, value) :: rest
    else (k, v) :: insertMember key value rest

/-- Put further members in their places, one after another. -/
def insertMembers {α : Type} (members more : List (String × α)) : List (String × α) :=
  more.foldl (fun sorted member => insertMember member.1 member.2 sorted) members

/-- The members sorted by key; of a repeated key the last member stays. -/
def sortMembers {α : Type} (members : List (String × α)) : List (String × α) :=
  insertMembers [] members

mutual

/-- The value with the members of every object sorted, the last of each key. -/
def canonical : Json → Json
  | .array items => .array (canonicalItems items)
  | .object members => .object (sortMembers (canonicalMembers members))
  | value => value

/-- The canonical forms of the items of an array. -/
def canonicalItems : List Json → List Json
  | [] => []
  | item :: rest => canonical item :: canonicalItems rest

/-- The members of an object with their values in canonical form. -/
def canonicalMembers : List (String × Json) → List (String × Json)
  | [] => []
  | (key, value) :: rest => (key, canonical value) :: canonicalMembers rest

end

/-- The number of an integer or word as a value. -/
def ofNat (n : Nat) : Json := .int n

/-- A list of strings as a value. -/
def strings (texts : List String) : Json := .array (texts.map .string)

/-- A member that is written only when there is a value. -/
def optionalMember {α : Type} (key : String) (encode : α → Json) :
    Option α → List (String × Json)
  | some a => [(key, encode a)]
  | none => []

/-- A member that is written only when the list is not empty. -/
def listMember {α : Type} (key : String) (encode : α → Json) (items : List α) :
    List (String × Json) :=
  if items.isEmpty then [] else [(key, .array (items.map encode))]

/-- A member that is written only when it is true. -/
def flagMember (key : String) (flag : Bool) : List (String × Json) :=
  if flag then [(key, .bool true)] else []

/-! ## Sorted members -/

theorem mem_insertMember {α : Type} {key : String} {value : α} {members : List (String × α)}
    {member : String × α} (h : member ∈ insertMember key value members) :
    member = (key, value) ∨ member ∈ members := by
  induction members with
  | nil => simpa [insertMember] using h
  | cons head rest ih =>
    obtain ⟨k, v⟩ := head
    unfold insertMember at h
    split at h
    · simpa using h
    · split at h
      · rcases List.mem_cons.mp h with h | h
        · exact .inl h
        · exact .inr (List.mem_cons_of_mem _ h)
      · rcases List.mem_cons.mp h with h | h
        · exact .inr (by simp [h])
        · exact (ih h).imp id (List.mem_cons_of_mem _)

/-- Inserting keeps members sorted by key. -/
theorem sorted_insertMember {α : Type} {key : String} {value : α} {members : List (String × α)}
    (h : SortedMembers members) : SortedMembers (insertMember key value members) := by
  induction members with
  | nil => simp [insertMember, SortedMembers]
  | cons head rest ih =>
    obtain ⟨k, v⟩ := head
    have hrest : SortedMembers rest := (List.pairwise_cons.mp h).2
    have hhead : ∀ m ∈ rest, k < m.1 := (List.pairwise_cons.mp h).1
    unfold insertMember
    split
    · next hlt =>
      refine List.pairwise_cons.mpr ⟨?_, h⟩
      intro m hm
      rcases List.mem_cons.mp hm with rfl | hm
      · exact hlt
      · exact String.lt_trans hlt (hhead m hm)
    · next hnlt =>
      split
      · next heq =>
        subst heq
        exact List.pairwise_cons.mpr ⟨hhead, hrest⟩
      · next hne =>
        have hlt : k < key := by
          rcases Decidable.em (k < key) with hlt | hlt
          · exact hlt
          · exact absurd (String.le_antisymm (String.not_lt.mp hlt) (String.not_lt.mp hnlt)) hne
        refine List.pairwise_cons.mpr ⟨?_, ih hrest⟩
        intro m hm
        rcases mem_insertMember hm with rfl | hm
        · exact hlt
        · exact hhead m hm

/-- Inserting several members keeps members sorted by key. -/
theorem sorted_insertMembers {α : Type} {members : List (String × α)} (more : List (String × α))
    (h : SortedMembers members) : SortedMembers (insertMembers members more) := by
  induction more generalizing members with
  | nil => exact h
  | cons item rest ih => exact ih (sorted_insertMember h)

/-- Sorting sorts. -/
theorem sorted_sortMembers {α : Type} (members : List (String × α)) :
    SortedMembers (sortMembers members) :=
  sorted_insertMembers members List.Pairwise.nil

/-- A member with a key behind all others is put at the end. -/
theorem insertMember_of_forall_lt {α : Type} {members : List (String × α)} {key : String}
    {value : α} (h : ∀ member ∈ members, member.1 < key) :
    insertMember key value members = members ++ [(key, value)] := by
  induction members with
  | nil => rfl
  | cons head rest ih =>
    obtain ⟨hhead, hrest⟩ := List.forall_mem_cons.mp h
    have hnot : ¬ key < head.1 := String.lt_asymm hhead
    have hne : key ≠ head.1 := (String.ne_of_lt hhead).symm
    rw [insertMember, if_neg hnot, if_neg hne, ih hrest, List.cons_append]

theorem insertMembers_of_sorted {α : Type} {members more : List (String × α)}
    (h : SortedMembers (members ++ more)) : insertMembers members more = members ++ more := by
  induction more generalizing members with
  | nil => simp [insertMembers]
  | cons member rest ih =>
    have hlast : ∀ other ∈ members, other.1 < member.1 := fun other hother =>
      (List.pairwise_append.mp h).2.2 other hother member (by simp)
    rw [insertMembers, List.foldl_cons, ← insertMembers, insertMember_of_forall_lt hlast,
      ih (by simpa using h)]
    simp

/-- Sorted members are not changed by sorting. -/
theorem sortMembers_of_sorted {α : Type} {members : List (String × α)}
    (h : SortedMembers members) : sortMembers members = members :=
  insertMembers_of_sorted h

/-! ## Canonical forms -/

theorem canonicalMembers_insertMember (key : String) (value : Json)
    (members : List (String × Json)) :
    canonicalMembers (insertMember key value members) =
      insertMember key (canonical value) (canonicalMembers members) := by
  induction members with
  | nil => rfl
  | cons head rest ih =>
    obtain ⟨k, v⟩ := head
    simp only [insertMember, canonicalMembers]
    split
    · rfl
    · split
      · rfl
      · rw [canonicalMembers, ih]

/-- Canonical forms are put in as they are. -/
theorem canonicalMembers_insertMembers (members more : List (String × Json)) :
    canonicalMembers (insertMembers members more) =
      insertMembers (canonicalMembers members) (canonicalMembers more) := by
  induction more generalizing members with
  | nil => rfl
  | cons member rest ih =>
    simp only [insertMembers, List.foldl_cons, canonicalMembers] at ih ⊢
    rw [ih, canonicalMembers_insertMember]

mutual

/-- A canonical form is its own canonical form. -/
theorem canonical_canonical : (value : Json) → canonical (canonical value) = canonical value
  | .null | .bool _ | .int _ | .double _ | .string _ => rfl
  | .array items => by simp only [canonical, canonicalItems_canonicalItems items]
  | .object members => by
    have hsorted := sorted_sortMembers (canonicalMembers members)
    have hmembers : canonicalMembers (sortMembers (canonicalMembers members)) =
        sortMembers (canonicalMembers members) := by
      rw [sortMembers, canonicalMembers_insertMembers, canonicalMembers_canonicalMembers members]
      rfl
    rw [canonical, canonical, hmembers, sortMembers_of_sorted hsorted]

theorem canonicalItems_canonicalItems :
    (items : List Json) → canonicalItems (canonicalItems items) = canonicalItems items
  | [] => rfl
  | item :: rest => by
    simp only [canonicalItems, canonical_canonical item, canonicalItems_canonicalItems rest]

theorem canonicalMembers_canonicalMembers : (members : List (String × Json)) →
    canonicalMembers (canonicalMembers members) = canonicalMembers members
  | [] => rfl
  | (key, value) :: rest => by
    simp only [canonicalMembers, canonical_canonical value, canonicalMembers_canonicalMembers rest]

end

end Json

end CanonicalIdl
