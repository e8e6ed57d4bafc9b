import CanonicalIdl.Json.Extra
import Mathlib.Data.List.Induction

/-!
# Members by key

Putting members in changes what stands under their keys and nothing else, so merging
uninterpreted members overrides key by key.

Main results:

- Theorem `lookup_insertMembers`: what stands under a key after members were put in.
- Theorem `Extra.get?_merge`: merging overrides key by key.
-/

namespace CanonicalIdl.Json

section Members

variable {α : Type}

/-- The keys of members, in order. -/
def keys (members : List (String × α)) : List String := members.map Prod.fst

/-- Nothing is found under a key that no member has. -/
theorem lookup_eq_none_of_not_mem_keys {members : List (String × α)} {key : String}
    (h : key ∉ keys members) : members.lookup key = none := by
  rw [List.lookup_eq_none_iff]
  rintro ⟨k, v⟩ hmem
  have hne : key ≠ k := by
    rintro rfl
    exact h (List.mem_map_of_mem hmem)
  simpa using hne

/-- What is found under a key is the value of a member. -/
theorem mem_of_lookup {members : List (String × α)} {key : String} {value : α}
    (h : members.lookup key = some value) : (key, value) ∈ members := by
  obtain ⟨front, back, rfl, -⟩ := List.lookup_eq_some_iff.mp h
  simp

/-- Where no key stands twice, every member is found under its key. -/
theorem lookup_of_mem {members : List (String × α)} (h : (keys members).Nodup)
    {member : String × α} (hmember : member ∈ members) :
    members.lookup member.1 = some member.2 := by
  induction members with
  | nil => cases hmember
  | cons first rest ih =>
    obtain ⟨hfirst, hrest⟩ := List.nodup_cons.mp h
    rcases List.mem_cons.mp hmember with rfl | hmember
    · exact List.lookup_cons_self
    · have hne : (member.1 == first.1) = false := by
        rw [beq_eq_false_iff_ne]
        rintro heq
        exact hfirst (heq ▸ List.mem_map_of_mem hmember)
      rw [List.lookup_cons, hne]
      exact ih hrest hmember

/-- Leaving out members of other keys does not change what stands under a key. -/
theorem lookup_filter {members : List (String × α)} {p : String × α → Bool} {key : String}
    (h : ∀ value, p (key, value) = true) : (members.filter p).lookup key = members.lookup key := by
  induction members with
  | nil => rfl
  | cons member rest ih =>
    obtain ⟨k, value⟩ := member
    by_cases hkey : key = k
    · subst hkey
      rw [List.filter_cons_of_pos (h value), List.lookup_cons_self, List.lookup_cons_self]
    · have hne : (key == k) = false := by simpa using hkey
      rw [List.lookup_cons, hne, List.filter_cons]
      split
      · rw [List.lookup_cons, hne]
        exact ih
      · exact ih

/-- The first member is found under its key, and hides the others that have it. -/
theorem lookup_cons (key : String) (member : String × α) (rest : List (String × α)) :
    (member :: rest).lookup key = if key = member.1 then some member.2 else rest.lookup key := by
  rw [List.lookup_cons]
  by_cases h : key = member.1
  · simp [h]
  · have hb : (key == member.1) = false := by simpa using h
    simp [h, hb]

/-- A member that is put in is found under its key, and the others as before. -/
theorem lookup_insertMember (key : String) (member : String × α) (members : List (String × α)) :
    (insertMember member.1 member.2 members).lookup key =
      if key = member.1 then some member.2 else members.lookup key := by
  induction members with
  | nil => rw [insertMember, lookup_cons]
  | cons head rest ih =>
    unfold insertMember
    split
    · rw [lookup_cons]
    · split
      · next heq =>
        rw [lookup_cons, lookup_cons, ← heq]
        split <;> rfl
      · next hne =>
        rw [lookup_cons, lookup_cons, ih]
        by_cases hkey : key = head.1
        · have hother : key ≠ member.1 := fun h => hne (h.symm.trans hkey)
          rw [if_pos hkey, if_neg hother, if_pos hkey]
        · rw [if_neg hkey, if_neg hkey]

/-- After members were put in, under a key stands the last of them that has it, and else what
stood there before. -/
theorem lookup_insertMembers (key : String) (members more : List (String × α)) :
    (insertMembers members more).lookup key =
      (more.reverse.lookup key).or (members.lookup key) := by
  induction more using List.reverseRecOn with
  | nil => rfl
  | append_singleton front last ih =>
    rw [insertMembers, List.foldl_append, List.foldl_cons, List.foldl_nil, lookup_insertMember,
      ← insertMembers, ih, List.reverse_append, List.reverse_singleton, List.singleton_append,
      lookup_cons]
    split <;> rfl

/-! ## Sorted members -/

/-- Sorted members have distinct keys. -/
theorem SortedMembers.nodup_keys {members : List (String × α)} (h : SortedMembers members) :
    (keys members).Nodup :=
  List.pairwise_map.mpr (h.imp fun hlt => String.ne_of_lt hlt)

/-- Where no key stands twice, the order does not matter to look-up. -/
theorem lookup_reverse {members : List (String × α)} (h : (keys members).Nodup) (key : String) :
    members.reverse.lookup key = members.lookup key := by
  induction members with
  | nil => rfl
  | cons member rest ih =>
    obtain ⟨hmember, hrest⟩ := List.nodup_cons.mp h
    rw [List.reverse_cons, List.lookup_append, ih hrest, lookup_cons, lookup_cons]
    by_cases hkey : key = member.1
    · subst hkey
      rw [lookup_eq_none_of_not_mem_keys hmember]
      rfl
    · rw [if_neg hkey, if_neg hkey]
      simp

/-- Putting in members adds no members but these. -/
theorem mem_insertMembers {members more : List (String × α)} {member : String × α}
    (h : member ∈ insertMembers members more) : member ∈ members ∨ member ∈ more := by
  induction more generalizing members with
  | nil => exact .inl h
  | cons first rest ih =>
    rcases ih h with h | h
    · exact (mem_insertMember h).elim (fun h => .inr (h ▸ .head _)) .inl
    · exact .inr (.tail _ h)

/-! ## Distinct keys -/

/-- Under a new key a member is put in without another being lost. -/
theorem insertMember_perm {members : List (String × α)} {key : String} (h : key ∉ keys members)
    (value : α) : (insertMember key value members).Perm ((key, value) :: members) := by
  induction members with
  | nil => exact .refl _
  | cons head rest ih =>
    obtain ⟨hhead, hrest⟩ : key ≠ head.1 ∧ key ∉ keys rest := by simpa [keys] using h
    rw [insertMember, if_neg hhead]
    split
    · exact .refl _
    · exact ((ih hrest).cons head).trans (.swap _ _ _)

/-- So are several members with new keys. -/
theorem insertMembers_perm {members more : List (String × α)}
    (h : (keys (members ++ more)).Nodup) : (insertMembers members more).Perm (members ++ more) := by
  induction more generalizing members with
  | nil => simp [insertMembers]
  | cons first rest ih =>
    have hmove : (first :: members ++ rest).Perm (members ++ first :: rest) :=
      List.perm_middle.symm
    have hnodup : (keys (first :: members ++ rest)).Nodup := (hmove.map Prod.fst).nodup_iff.mpr h
    have hfirst : first.1 ∉ keys members := by
      have hnot := (List.nodup_cons.mp hnodup).1
      intro hmem
      obtain ⟨member, hmember, hkey⟩ := List.mem_map.mp hmem
      exact hnot (hkey ▸ List.mem_map_of_mem (List.mem_append_left _ hmember))
    have hput := insertMember_perm hfirst first.2
    have hkeys : (keys (insertMember first.1 first.2 members ++ rest)).Nodup :=
      ((hput.append_right rest).map Prod.fst).nodup_iff.mpr hnodup
    exact (ih hkeys).trans ((hput.append_right rest).trans hmove)

/-- Where no key stands twice, sorting only changes the order. -/
theorem sortMembers_perm {members : List (String × α)} (h : (keys members).Nodup) :
    (sortMembers members).Perm members := insertMembers_perm h

theorem lookup_sortMembers {members : List (String × α)} (h : (keys members).Nodup)
    (key : String) : (sortMembers members).lookup key = members.lookup key := by
  rw [sortMembers, lookup_insertMembers, lookup_reverse h]
  simp

end Members

/-! ## Canonical members -/

/-- The canonical form is taken of each member, in order. -/
theorem canonicalMembers_eq_map (members : List (String × Json)) :
    canonicalMembers members = members.map fun member => (member.1, canonical member.2) := by
  induction members with
  | nil => rfl
  | cons member rest ih => rw [canonicalMembers, ih, List.map_cons]

theorem keys_canonicalMembers (members : List (String × Json)) :
    keys (canonicalMembers members) = keys members := by
  rw [canonicalMembers_eq_map, keys, List.map_map]
  rfl

/-- What is found under a key in canonical form is the canonical form of what was found. -/
theorem lookup_canonicalMembers (members : List (String × Json)) (key : String) :
    (canonicalMembers members).lookup key = (members.lookup key).map canonical := by
  induction members with
  | nil => rfl
  | cons member rest ih =>
    obtain ⟨k, v⟩ := member
    rw [canonicalMembers, lookup_cons, lookup_cons, ih]
    split <;> rfl

/-! ## Uninterpreted members -/

namespace Extra

/-- The value under a key. -/
def get? (extra : Extra) (key : String) : Option Json := extra.entries.lookup key

/-- Merging overrides key by key. -/
theorem get?_merge (base own : Extra) (key : String) :
    (base.merge own).get? key = (own.get? key).or (base.get? key) := by
  rw [get?, merge, lookup_insertMembers, lookup_reverse own.sorted.nodup_keys]
  rfl

@[simp] theorem merge_empty (own : Extra) : empty.merge own = own :=
  ext_entries (sortMembers_of_sorted own.sorted)

end Extra

end CanonicalIdl.Json
