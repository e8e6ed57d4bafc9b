import CanonicalIdl.Declared.Reading
import CanonicalIdl.Proofs.Json.Members
import CanonicalIdl.Proofs.Json.Records

/-!
# Account items in canonical form

Whether a value is a list of account items does not depend on the order of the members in
it, as long as no key stands twice: a slot is accepted for what stands under its keys.  So a
value that nobody interprets because it is no list of items is none in canonical form either.

Main results:

- Theorem `isSome_referenceOfJson?_iff`: which members make a slot.
- Theorem `isSome_membersOfJson?_of_canonical`: what is a list of items in canonical form is
  one as it stands.
-/

namespace CanonicalIdl.Declared

open Json Document

/-! ## Fields of a slot -/

/-- The fields of a slot. -/
inductive SlotField where
  | name
  | writable
  | signer
  | optional
  | docs
  | address
  deriving DecidableEq

namespace SlotField

/-- The field of a key.  Each flag has two keys. -/
def ofKey? : String → Option SlotField
  | "name" => some .name
  | "writable" | "isMut" => some .writable
  | "signer" | "isSigner" => some .signer
  | "optional" | "isOptional" => some .optional
  | "docs" => some .docs
  | "address" => some .address
  | _ => none

/-- Whether a field takes a value. -/
def accepts (value : Document) : SlotField → Bool
  | .name => value.text.isOk
  | .writable | .signer | .optional => value.flag.isOk
  | .docs => (value.list text).isOk
  | .address => (value.orNull text).isOk

end SlotField

/-- Whether a field has been given. -/
def PartialReference.has (p : PartialReference) : SlotField → Bool
  | .name => p.name.isSome
  | .writable => p.writable.isSome
  | .signer => p.signer.isSome
  | .optional => p.optional.isSome
  | .docs => p.docs.isSome
  | .address => p.address.isSome

namespace PartialReference

/-- What a member that was taken tells: a known key gives its field, which has not been given
before and takes the value, and an unknown key gives no field. -/
def Took (p q : PartialReference) (value : Document) : Option SlotField → Prop
  | some field => p.has field = false ∧ field.accepts value = true ∧
      ∀ other, q.has other = (p.has other || other == field)
  | none => ∀ other, q.has other = p.has other

theorem took_of_once {p q : PartialReference} {α : Type} {value : Document} {field : SlotField}
    {given : Option α} {name : String} {reading : Reading α} {set : Option α → PartialReference}
    (h : (once given name reading).map set = .ok q) (hgiven : p.has field = given.isSome)
    (haccepts : field.accepts value = reading.isOk)
    (hset : ∀ a other, (set (some a)).has other = (p.has other || other == field)) :
    Took p q value (some field) := by
  obtain ⟨rfl, a, ha, rfl⟩ := once_map_eq_ok h
  exact ⟨hgiven, by rw [haccepts, ha]; rfl, hset a⟩

theorem took_of_step {p q : PartialReference} {key : String} {value : Document}
    (h : p.step key value = .ok q) : Took p q value (SlotField.ofKey? key) := by
  unfold step at h
  split at h
  -- a member of an unknown key is kept and gives no field
  case h_10 =>
    have hkey : SlotField.ofKey? key = none := by
      unfold SlotField.ofKey?
      split <;> simp_all
    obtain ⟨read, -, rfl⟩ := map_eq_ok.mp h
    rw [hkey]
    intro other
    cases other <;> rfl
  all_goals exact took_of_once h rfl rfl fun a other => by cases other <;> simp [has]

theorem exists_once_map {α β : Type} {given : Option α} {name : String} {reading : Reading α}
    (set : Option α → β) (hgiven : given.isSome = false) (hreading : reading.isOk = true) :
    ∃ b, (once given name reading).map set = .ok b := by
  cases given with
  | some a => cases hgiven
  | none =>
    cases reading with
    | error fault => cases hreading
    | ok a => exact ⟨_, rfl⟩

/-- A field that has not been given takes its value, and a member of an unknown key is kept. -/
theorem exists_step {p : PartialReference} {key : String} {value : Json}
    (h : ∀ field, SlotField.ofKey? key = some field →
      p.has field = false ∧ field.accepts (ofJson value) = true) :
    ∃ q, p.step key (ofJson value) = .ok q := by
  unfold step
  split
  · exact exists_once_map _ (h .name rfl).1 (h .name rfl).2
  · exact exists_once_map _ (h .writable rfl).1 (h .writable rfl).2
  · exact exists_once_map _ (h .writable rfl).1 (h .writable rfl).2
  · exact exists_once_map _ (h .signer rfl).1 (h .signer rfl).2
  · exact exists_once_map _ (h .signer rfl).1 (h .signer rfl).2
  · exact exists_once_map _ (h .optional rfl).1 (h .optional rfl).2
  · exact exists_once_map _ (h .optional rfl).1 (h .optional rfl).2
  · exact exists_once_map _ (h .docs rfl).1 (h .docs rfl).2
  · exact exists_once_map _ (h .address rfl).1 (h .address rfl).2
  · rw [read_ofJson]
    exact ⟨_, rfl⟩

end PartialReference

/-! ## Members of a slot -/

/-- The fields that some members give, in order. -/
def slotFields (members : List (String × Json)) : List SlotField :=
  members.filterMap fun member => SlotField.ofKey? member.1

/-- The fields that some members give take their values. -/
def Accepted (members : List (String × Json)) : Prop :=
  ∀ member ∈ members, ∀ field, SlotField.ofKey? member.1 = some field →
    field.accepts (ofJson member.2) = true

theorem slotFields_cons (key : String) (value : Json) (rest : List (String × Json)) :
    slotFields ((key, value) :: rest) = (SlotField.ofKey? key).toList ++ slotFields rest := by
  rw [slotFields, List.filterMap_cons]
  cases SlotField.ofKey? key <;> rfl

/-- Members that are taken give each field once, and a value that it takes. -/
theorem accepted_of_foldMembers {p q : PartialReference} {members : List (String × Json)}
    (h : foldMembers PartialReference.step p (ofMembers members) = .ok q) :
    Accepted members ∧ (slotFields members).Nodup ∧
      (∀ field ∈ slotFields members, p.has field = false) ∧
      ∀ field, q.has field = (p.has field || decide (field ∈ slotFields members)) := by
  induction members generalizing p with
  | nil =>
    obtain rfl := Except.ok.inj h
    simp [Accepted, slotFields]
  | cons member rest ih =>
    obtain ⟨key, value⟩ := member
    obtain ⟨next, hnext, h⟩ := bind_eq_ok.mp h
    obtain ⟨haccepted, hnodup, hfresh, hhas⟩ := ih h
    have htook := PartialReference.took_of_step hnext
    rw [slotFields_cons]
    cases hfield : SlotField.ofKey? key with
    | none =>
      rw [hfield] at htook
      have hsame : ∀ field, next.has field = p.has field := htook
      refine ⟨List.forall_mem_cons.mpr ⟨by simp [hfield], haccepted⟩, by simpa using hnodup, ?_, ?_⟩
      · simpa [hsame] using hfresh
      · intro field
        rw [hhas, hsame, Option.toList_none, List.nil_append]
    | some field =>
      rw [hfield] at htook
      obtain ⟨hfirst, haccepts, hset⟩ := htook
      have hnot : field ∉ slotFields rest := by
        intro hmem
        have hfalse := hfresh field hmem
        simp [hset] at hfalse
      refine ⟨List.forall_mem_cons.mpr ⟨?_, haccepted⟩, ?_, ?_, ?_⟩
      · rintro other hother
        obtain rfl : field = other := Option.some.inj (hfield.symm.trans hother)
        exact haccepts
      · exact List.nodup_cons.mpr ⟨hnot, hnodup⟩
      · rintro other hother
        rcases List.mem_cons.mp hother with rfl | hother
        · exact hfirst
        · have hfalse := hfresh other hother
          simp only [hset, Bool.or_eq_false_iff] at hfalse
          exact hfalse.1
      · intro other
        rw [hhas, hset]
        by_cases hother : other = field
        · simp [hother]
        · have hb : (other == field) = false := by simpa using hother
          simp [hother, hb]

/-- Members that give each field once and a value that it takes are taken. -/
theorem exists_foldMembers {p : PartialReference} {members : List (String × Json)}
    (haccepted : Accepted members) (hnodup : (slotFields members).Nodup)
    (hfresh : ∀ field ∈ slotFields members, p.has field = false) :
    ∃ q, foldMembers PartialReference.step p (ofMembers members) = .ok q := by
  induction members generalizing p with
  | nil => exact ⟨p, rfl⟩
  | cons member rest ih =>
    obtain ⟨key, value⟩ := member
    obtain ⟨hfirst, hrest⟩ := List.forall_mem_cons.mp haccepted
    rw [slotFields_cons] at hnodup hfresh
    obtain ⟨next, hnext⟩ : ∃ q, p.step key (ofJson value) = .ok q :=
      PartialReference.exists_step fun field hfield =>
        ⟨hfresh field (by simp [hfield]), hfirst field hfield⟩
    have htook := PartialReference.took_of_step hnext
    have hlater : ∀ field ∈ slotFields rest, next.has field = false := by
      intro field hmem
      have hbefore := hfresh field (List.mem_append_right _ hmem)
      cases hfield : SlotField.ofKey? key with
      | none =>
        rw [hfield] at htook
        rw [htook field, hbefore]
      | some given =>
        rw [hfield] at htook hnodup
        have hne : field ≠ given := by
          rintro rfl
          exact (List.nodup_cons.mp hnodup).1 hmem
        rw [htook.2.2, hbefore]
        simpa using hne
    obtain ⟨q, hq⟩ := ih hrest (List.nodup_append.mp hnodup).2.1 hlater
    exact ⟨q, bind_eq_ok.mpr ⟨next, hnext, hq⟩⟩

/-- An object is a slot exactly if it gives a name, each field once and values that the fields
take. -/
theorem isSome_referenceOfJson?_iff (members : List (String × Json)) :
    (referenceOfJson? (.object members)).isSome = true ↔
      Accepted members ∧ (slotFields members).Nodup ∧ .name ∈ slotFields members := by
  have hslot : (referenceOfJson? (.object members)).isSome =
      (readReference (ofJson (.object members))).isOk := by
    rw [referenceOfJson?, Option.isSome_map]
    cases readReference (ofJson (.object members)) <;> rfl
  rw [hslot]
  constructor
  · intro h
    cases hread : readReference (ofJson (.object members)) with
    | error fault => rw [hread] at h; cases h
    | ok slot =>
      obtain ⟨q, hq, hslot⟩ := bind_eq_ok.mp hread
      obtain ⟨name, hname, -⟩ := bind_eq_ok.mp hslot
      obtain ⟨haccepted, hnodup, -, hhas⟩ := accepted_of_foldMembers (foldMembers_of_members hq)
      have hgiven := hhas .name
      rw [PartialReference.has, required_eq_ok hname] at hgiven
      exact ⟨haccepted, hnodup, by simpa [PartialReference.has] using hgiven.symm⟩
  · rintro ⟨haccepted, hnodup, hname⟩
    obtain ⟨q, hq⟩ := @exists_foldMembers {} members haccepted hnodup
      fun field _ => by cases field <;> rfl
    have hgiven : q.has .name = true := by
      rw [(accepted_of_foldMembers hq).2.2.2]
      simpa using .inr hname
    obtain ⟨name, hq'⟩ := Option.isSome_iff_exists.mp hgiven
    rw [ofJson, readReference, members_of_foldMembers hq]
    simp [required, hq', Except.isOk, Except.toBool]

/-! ## Canonical form -/

theorem isOk_readEach_text_canonical (items : List Json) :
    (readEach text (ofItems (canonicalItems items))).isOk =
      (readEach text (ofItems items)).isOk := by
  induction items with
  | nil => rfl
  | cons item rest ih =>
    rw [canonicalItems, ofItems, ofItems, readEach, readEach]
    cases item with
    | string s =>
      simp only [canonical, ofJson, text, ok_bind]
      revert ih
      cases readEach text (ofItems (canonicalItems rest)) <;>
        cases readEach text (ofItems rest) <;> exact id
    | null | bool _ | int _ | double _ | array _ | object _ => rfl

theorem accepts_canonical (field : SlotField) (value : Json) :
    field.accepts (ofJson (canonical value)) = field.accepts (ofJson value) := by
  cases value with
  | null | bool _ | int _ | double _ | string _ => rfl
  | object members => cases field <;> rfl
  | array items =>
    cases field with
    | docs =>
      have hitems := isOk_readEach_text_canonical items
      simp only [SlotField.accepts, canonical, ofJson, list]
      revert hitems
      cases readEach text (ofItems (canonicalItems items)) <;>
        cases readEach text (ofItems items) <;> exact id
    | name | writable | signer | optional | address => rfl

/-- An object that is a slot in canonical form is one as it stands. -/
theorem isSome_referenceOfJson?_of_canonical {members : List (String × Json)}
    (hkeys : (keys members).Nodup)
    (h : (referenceOfJson? (canonical (.object members))).isSome = true) :
    (referenceOfJson? (.object members)).isSome = true := by
  rw [canonical, isSome_referenceOfJson?_iff] at h
  rw [isSome_referenceOfJson?_iff]
  have hperm := sortMembers_perm (keys_canonicalMembers members ▸ hkeys)
  have hfields : slotFields (canonicalMembers members) = slotFields members := by
    rw [slotFields, canonicalMembers_eq_map, List.filterMap_map]
    rfl
  have hfieldsPerm : (slotFields (sortMembers (canonicalMembers members))).Perm
      (slotFields members) := hfields ▸ hperm.filterMap _
  obtain ⟨haccepted, hnodup, hname⟩ := h
  refine ⟨?_, hfieldsPerm.nodup_iff.mp hnodup, hfieldsPerm.mem_iff.mp hname⟩
  rintro ⟨key, value⟩ hmember field hfield
  rw [← accepts_canonical]
  refine haccepted (key, canonical value) (hperm.mem_iff.mpr ?_) field hfield
  rw [canonicalMembers_eq_map]
  exact List.mem_map.mpr ⟨(key, value), hmember, rfl⟩

/-! ## Items -/

theorem string?_canonical (value : Json) :
    TypeExpr.string? (canonical value) = TypeExpr.string? value := by
  cases value <;> rfl

theorem hasKey_eq_false {key : String} {members : List (String × Json)} (h : key ∉ keys members) :
    TypeExpr.hasKey key members = false := by
  rw [TypeExpr.hasKey, List.any_eq_false]
  rintro member hmember
  simp only [beq_iff_eq]
  rintro rfl
  exact h (List.mem_map_of_mem hmember)

/-- Where no key stands twice, the only member of a key is the one that stands under it. -/
theorem only?_eq_lookup {members : List (String × Json)} (h : (keys members).Nodup)
    (key : String) : TypeExpr.only? key members = members.lookup key := by
  induction members with
  | nil => rfl
  | cons member rest ih =>
    obtain ⟨k, value⟩ := member
    obtain ⟨hfirst, hrest⟩ := List.nodup_cons.mp h
    rw [TypeExpr.only?, lookup_cons, ih hrest]
    by_cases hkey : k = key
    · subst hkey
      simp [hasKey_eq_false hfirst]
    · simp [hkey, Ne.symm hkey]

/-- Where no key stands twice, the items of a collection stand under their key. -/
theorem collected?_eq_lookup {members : List (String × Json)} (h : (keys members).Nodup) :
    collected? members = (members.lookup "accounts").bind membersOfJson? := by
  induction members with
  | nil => rfl
  | cons member rest ih =>
    obtain ⟨k, value⟩ := member
    obtain ⟨hfirst, hrest⟩ := List.nodup_cons.mp h
    rw [collected?, lookup_cons, ih hrest]
    by_cases hkey : k = "accounts"
    · subst hkey
      simp [hasKey_eq_false hfirst]
    · simp [hkey, Ne.symm hkey]

theorem hasDistinctKeys_object (members : List (String × Json)) :
    (ofJson (.object members)).HasDistinctKeys ↔ (keys members).Nodup := by
  have hkeys : (ofMembers members).filterMap (·.1.toOption) = keys members := by
    induction members with
    | nil => rfl
    | cons member rest ih =>
      rw [ofMembers, List.filterMap_cons, ih]
      rfl
  rw [← hkeys]
  rfl

theorem nodup_keys_of_hasDistinctKeys {members : List (String × Json)}
    (h : (ofJson (.object members)).HasDistinctKeys) : (keys members).Nodup :=
  (hasDistinctKeys_object members).mp h

mutual

/-- What is an item in canonical form is one as it stands. -/
theorem isSome_itemOfJson?_of_canonical : (value : Json) →
    (ofJson value).Everywhere HasDistinctKeys →
    (itemOfJson? (canonical value)).isSome = true → (itemOfJson? value).isSome = true
  | .null, _, h | .bool _, _, h | .int _, _, h | .double _, _, h | .string _, _, h => by cases h
  | .array [], _, h | .array [_], _, h | .array (_ :: _ :: _ :: _), _, h => by cases h
  | .array [name, members], hkeys, h => by
    have hmembers := isSome_membersOfJson?_of_canonical members
      ((everywhere_ofJson_array.mp hkeys).2 members (.tail _ (.head _)))
    simp only [canonical, canonicalItems, itemOfJson?, string?_canonical] at h ⊢
    cases hname : TypeExpr.string? name with
    | none => rw [hname] at h; cases h
    | some name =>
      cases hcanonical : membersOfJson? (canonical members) with
      | none => rw [hname, hcanonical] at h; cases h
      | some items =>
        obtain ⟨found, hfound⟩ := Option.isSome_iff_exists.mp (hmembers (by rw [hcanonical]; rfl))
        rw [hfound]
        rfl
  | .object members, hkeys, h => by
    have hdistinct := nodup_keys_of_hasDistinctKeys hkeys.self
    have hsorted : (keys (canonicalMembers members)).Nodup :=
      keys_canonicalMembers members ▸ hdistinct
    have hitems := isSome_of_canonicalMembers members (everywhere_ofJson_object.mp hkeys).2
    have hcollected : (collected? (sortMembers (canonicalMembers members))).isSome = true →
        (collected? members).isSome = true := by
      rw [collected?_eq_lookup (SortedMembers.nodup_keys (sorted_sortMembers _)),
        collected?_eq_lookup hdistinct, lookup_sortMembers hsorted, lookup_canonicalMembers]
      cases hlookup : members.lookup "accounts" with
      | none => exact id
      | some value => exact hitems _ (mem_of_lookup hlookup)
    have hname : (TypeExpr.only? "name" (sortMembers (canonicalMembers members))).bind
        TypeExpr.string? = (TypeExpr.only? "name" members).bind TypeExpr.string? := by
      rw [only?_eq_lookup (SortedMembers.nodup_keys (sorted_sortMembers _)),
        only?_eq_lookup hdistinct, lookup_sortMembers hsorted, lookup_canonicalMembers,
        Option.bind_map]
      exact congrArg _ (funext string?_canonical)
    have hslot := @isSome_referenceOfJson?_of_canonical members hdistinct
    simp only [canonical, itemOfJson?, hname] at h hslot ⊢
    generalize (TypeExpr.only? "name" members).bind TypeExpr.string? = name? at h ⊢
    cases name? with
    | none => exact hslot h
    | some name =>
      cases hc : collected? (sortMembers (canonicalMembers members)) with
      | some items =>
        obtain ⟨found, hfound⟩ := Option.isSome_iff_exists.mp (hcollected (by rw [hc]; rfl))
        rw [hfound]
        rfl
      | none =>
        rw [hc] at h
        cases collected? members with
        | some items => rfl
        | none => exact hslot h

/-- What is a list of items in canonical form is one as it stands. -/
theorem isSome_membersOfJson?_of_canonical : (value : Json) →
    (ofJson value).Everywhere HasDistinctKeys →
    (membersOfJson? (canonical value)).isSome = true → (membersOfJson? value).isSome = true
  | .null, _, h | .bool _, _, h | .int _, _, h | .double _, _, h | .string _, _, h
  | .object _, _, h => by cases h
  | .array items, hkeys, h => by
    simp only [canonical, membersOfJson?] at h ⊢
    exact isSome_itemsOfJson?_of_canonical items (everywhere_ofJson_array.mp hkeys).2 h

theorem isSome_itemsOfJson?_of_canonical : (items : List Json) →
    (∀ item ∈ items, (ofJson item).Everywhere HasDistinctKeys) →
    (itemsOfJson? (canonicalItems items)).isSome = true → (itemsOfJson? items).isSome = true
  | [], _, _ => rfl
  | item :: rest, hkeys, h => by
    obtain ⟨hitem, hrest⟩ := List.forall_mem_cons.mp hkeys
    have hfirst := isSome_itemOfJson?_of_canonical item hitem
    have hothers := isSome_itemsOfJson?_of_canonical rest hrest
    simp only [canonicalItems, itemsOfJson?] at h ⊢
    cases hc : itemOfJson? (canonical item) with
    | none => rw [hc] at h; cases h
    | some first =>
      cases hcs : itemsOfJson? (canonicalItems rest) with
      | none => rw [hc, hcs] at h; cases h
      | some others =>
        obtain ⟨a, ha⟩ := Option.isSome_iff_exists.mp (hfirst (by rw [hc]; rfl))
        obtain ⟨as, has⟩ := Option.isSome_iff_exists.mp (hothers (by rw [hcs]; rfl))
        rw [ha, has]
        rfl

theorem isSome_of_canonicalMembers : (members : List (String × Json)) →
    (∀ member ∈ members, (ofJson member.2).Everywhere HasDistinctKeys) →
    ∀ member ∈ members, (membersOfJson? (canonical member.2)).isSome = true →
      (membersOfJson? member.2).isSome = true
  | [], _, _, hmember, _ => by cases hmember
  | (key, value) :: rest, hkeys, member, hmember, h => by
    obtain ⟨hfirst, hrest⟩ := List.forall_mem_cons.mp hkeys
    rcases List.mem_cons.mp hmember with rfl | hmember
    · exact isSome_membersOfJson?_of_canonical value hfirst h
    · exact isSome_of_canonicalMembers rest hrest member hmember h

end

end CanonicalIdl.Declared
