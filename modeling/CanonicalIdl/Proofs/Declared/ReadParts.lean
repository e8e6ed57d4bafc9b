import CanonicalIdl.Accounts.Key
import CanonicalIdl.Proofs.Declared.CanonicalItems
import CanonicalIdl.Proofs.Declared.WrittenParts

/-!
# Parts that were read

A part that was read from a document can be written and read back: positional fields hold a
type, members that nobody interprets have keys that nobody knows, and no slot could be taken
for a collection once its members are sorted.  The last needs that no object of the document
has a key twice.

Main results:

- Theorem `isReadable_of_readBody`: the body of a definition or an account.
- Theorem `isReadable_of_readItem`: an item of the accounts of an instruction.
-/

namespace CanonicalIdl

open Json Document

/-! ## Members that nobody interprets -/

namespace Json

/-- A property of numbers and texts, which says nothing of containers. -/
structure Document.OfLeaves (P : Document → Prop) : Prop where
  array : ∀ items ending, P (.array items ending)
  object : ∀ members ending, P (.object members ending)

theorem Document.ofLeaves_isBounded : OfLeaves IsBounded := ⟨fun _ _ => trivial, fun _ _ => trivial⟩

section Canonical

variable {P : Document → Prop}

mutual

/-- A canonical form holds no other numbers and texts. -/
theorem everywhere_canonical (hP : Document.OfLeaves P) : (value : Json) →
    (ofJson value).Everywhere P → (ofJson (canonical value)).Everywhere P
  | .null, h | .bool _, h | .int _, h | .double _, h | .string _, h => h
  | .array items, h => by
    rw [canonical, everywhere_ofJson_array]
    exact ⟨hP.array _ _, everywhere_canonicalItems hP items (everywhere_ofJson_array.mp h).2⟩
  | .object members, h => by
    rw [canonical, everywhere_ofJson_object]
    have hmembers := everywhere_canonicalMembers hP members (everywhere_ofJson_object.mp h).2
    refine ⟨hP.object _ _, fun member hmember => ?_⟩
    rcases mem_insertMembers hmember with hmember | hmember
    · cases hmember
    · exact hmembers member hmember

/-- Bringing items into canonical form adds no other number. -/
theorem everywhere_canonicalItems (hP : Document.OfLeaves P) : (items : List Json) →
    (∀ item ∈ items, (ofJson item).Everywhere P) →
    ∀ item ∈ canonicalItems items, (ofJson item).Everywhere P
  | [], _ => by simp [canonicalItems]
  | item :: rest, h => by
    obtain ⟨hitem, hrest⟩ := List.forall_mem_cons.mp h
    exact List.forall_mem_cons.mpr ⟨everywhere_canonical hP item hitem,
      everywhere_canonicalItems hP rest hrest⟩

theorem everywhere_canonicalMembers (hP : Document.OfLeaves P) :
    (members : List (String × Json)) →
    (∀ member ∈ members, (ofJson member.2).Everywhere P) →
    ∀ member ∈ canonicalMembers members, (ofJson member.2).Everywhere P
  | [], _ => by simp [canonicalMembers]
  | (key, value) :: rest, h => by
    obtain ⟨hvalue, hrest⟩ := List.forall_mem_cons.mp h
    exact List.forall_mem_cons.mpr ⟨everywhere_canonical hP value hvalue,
      everywhere_canonicalMembers hP rest hrest⟩

end

end Canonical

namespace Extra

variable {P : Document → Prop} {known : List String}

/-- Where nothing is kept, no known key is. -/
theorem keeps_empty : empty.Keeps P known := nofun

/-- Members without a known key may be kept. -/
theorem keeps_ofMembers (hP : OfLeaves P) {members : List (String × Json)}
    (h : ∀ member ∈ members, member.1 ∉ known ∧ (ofJson member.2).Everywhere P) :
    (ofMembers members).Keeps P known := by
  intro member hmember
  rcases mem_insertMembers hmember with hmember | hmember
  · cases hmember
  · rw [canonicalMembers_eq_map] at hmember
    obtain ⟨original, horiginal, rfl⟩ := List.mem_map.mp hmember
    obtain ⟨hkey, hparts⟩ := h original horiginal
    exact ⟨hkey, everywhere_canonical hP original.2 hparts⟩

theorem Keeps.of_subset {extra : Extra} {fewer : List String} (h : extra.Keeps P known)
    (hsub : fewer ⊆ known) : extra.Keeps P fewer :=
  fun member hmember => ⟨fun hkey => (h member hmember).1 (hsub hkey), (h member hmember).2⟩

/-- Nothing is kept under a key that the record knows. -/
theorem Keeps.get?_eq_none {extra : Extra} {key : String} (h : extra.Keeps P known)
    (hkey : key ∈ known) : extra.get? key = none := by
  refine lookup_eq_none_of_not_mem_keys fun hmem => ?_
  obtain ⟨member, hmember, rfl⟩ := List.mem_map.mp hmem
  exact (h member hmember).1 hkey

theorem holds_empty : empty.Holds P := nofun

/-- What is kept in two places may be kept in one. -/
theorem Keeps.merge {base own : Extra} (hbase : base.Keeps P known)
    (hown : own.Keeps P known) : (base.merge own).Keeps P known :=
  fun member hmember => (mem_insertMembers hmember).elim (hbase member) (hown member)

theorem Holds.merge {base own : Extra} (hbase : base.Holds P)
    (hown : own.Holds P) : (base.merge own).Holds P :=
  fun member hmember => (mem_insertMembers hmember).elim (hbase member) (hown member)

end Extra

end Json

/-- A document with a property and without a key that stands twice. -/
def Json.Document.IsTidy (P : Document → Prop) (d : Document) : Prop := P d ∧ d.HasDistinctKeys

theorem Json.Document.Everywhere.of_isTidy {P : Document → Prop} {d : Document}
    (h : d.Everywhere (IsTidy P)) : d.Everywhere P :=
  fun part hpart => (h part hpart).1

/-- A document that is read as a whole keeps the properties of its parts. -/
theorem Json.Document.Everywhere.of_read {P : Document → Prop} {d : Document} (h : d.Everywhere P)
    {value : Json} (hread : d.read = .ok value) : (ofJson value).Everywhere P := by
  rwa [← eq_ofJson_of_read d hread]

namespace Declared

/-! ## Bodies -/

theorem isReadable_of_fieldsOfJson? {value : Json} {fields : Fields TypeExpr}
    (h : fieldsOfJson? value = some fields) : fields.IsReadable := by
  cases value with
  | array items =>
    rw [fieldsOfJson?] at h
    cases hnamed : items.mapM fieldOfJson? with
    | some named =>
      rw [hnamed] at h
      obtain rfl := Option.some.inj h
      trivial
    | none =>
      rw [hnamed] at h
      obtain ⟨types, htypes, rfl⟩ := Option.map_eq_some_iff.mp h
      cases items with
      | nil => cases hnamed
      | cons item rest =>
        rw [List.mapM_cons] at htypes
        obtain ⟨first, -, htypes⟩ := Option.bind_eq_some_iff.mp htypes
        obtain ⟨others, -, htypes⟩ := Option.bind_eq_some_iff.mp htypes
        rw [← Option.some.inj htypes]
        exact List.cons_ne_nil _ _
  | null | bool _ | int _ | double _ | string _ | object _ => cases h

/-- A form is told from a value that was read. -/
theorem fitting_eq_ok {α : Type} {choice : String} {ofJson? : Json → Option α} {d : Document}
    {a : α} (h : fitting choice ofJson? d = .ok a) :
    ∃ value, d.read = .ok value ∧ ofJson? value = some a := by
  obtain ⟨value, hvalue, h⟩ := bind_eq_ok.mp h
  refine ⟨value, hvalue, ?_⟩
  cases hfit : ofJson? value with
  | none => rw [hfit] at h; cases h
  | some found =>
    rw [hfit] at h
    rw [Except.ok.inj h]

/-- Fields that are read can be read back. -/
theorem isReadable_of_readFields {d : Document} {fields : Fields TypeExpr}
    (h : readFields d = .ok fields) : fields.IsReadable := by
  obtain ⟨value, -, hvalue⟩ := fitting_eq_ok h
  exact isReadable_of_fieldsOfJson? hvalue

/-- A variant of which the fields can be read back. -/
def HasReadableFields (variant : Variant TypeExpr) : Prop :=
  ∀ fields ∈ variant.fields, fields.IsReadable

theorem isReadable_of_orNull {d : Document} {fields : Option (Fields TypeExpr)}
    (h : d.orNull readFields = .ok fields) : ∀ given ∈ fields, given.IsReadable := by
  rintro given hgiven
  obtain rfl := Option.mem_def.mp hgiven
  exact isReadable_of_readFields (read_of_orNull h)

/-- So can those of a variant that is read. -/
theorem hasReadableFields_of_readVariant {d : Document} {variant : Variant TypeExpr}
    (h : readVariant d = .ok variant) : HasReadableFields variant := by
  cases d with
  | object ms ending =>
    obtain ⟨p, hp, h⟩ := bind_eq_ok.mp h
    obtain ⟨name, -, h⟩ := bind_eq_ok.mp h
    rw [← Except.ok.inj h]
    have hfields : ∀ given ∈ p.fields, ∀ fields ∈ given, fields.IsReadable := by
      refine foldMembers_induct (P := fun p : PartialVariant =>
        ∀ given ∈ p.fields, ∀ fields ∈ given, fields.IsReadable) (by simp) ?_
        (foldMembers_of_members hp)
      rintro key value before after - hbefore hstep
      unfold PartialVariant.step at hstep
      split at hstep
      · obtain ⟨-, name, -, rfl⟩ := once_map_eq_ok hstep
        exact hbefore
      · obtain ⟨-, fields, hfields, rfl⟩ := once_map_eq_ok hstep
        rintro given hgiven
        obtain rfl := Option.some.inj hgiven
        exact isReadable_of_orNull hfields
      · obtain ⟨-, -, rfl⟩ := map_eq_ok.mp hstep
        exact hbefore
    intro fields hgiven
    cases hp' : p.fields with
    | none => simp [hp'] at hgiven
    | some given =>
      rw [hp'] at hgiven
      exact hfields given hp' fields hgiven
  | array items ending =>
    refine Yields.of_fields ?_ h
    refine (yields_any _).andThen fun name _ => ?_
    exact (yields_nextFieldOr (by simp) fun d fields => isReadable_of_orNull).andThen
      fun fields hfields => yields_pure hfields
  | null | bool _ | int _ | double _ | string _ | unreadable _ _ => cases h

/-- A record with a single field has what the readers of the field give. -/
theorem of_readSingle {α : Type} {P : α → Prop} {key : String} {read : Document → Reading α}
    {take : FieldReader α} {finish : Option α → Reading α} {content : Json} {a : α}
    (hread : ∀ d a, read d = .ok a → P a) (htake : Yields P take)
    (hfinish : ∀ field a, finish field = .ok a → (∀ b ∈ field, P b) → P a)
    (h : readSingle key read take finish content = .ok a) : P a := by
  cases content with
  | array items => exact htake.of_fields h
  | object ms =>
    obtain ⟨field, hfield, h⟩ := bind_eq_ok.mp h
    refine hfinish field a h ?_
    refine foldMembers_induct (P := fun field => ∀ b ∈ field, P b) (by simp) ?_
      (foldMembers_of_members hfield)
    rintro k value before after - hbefore hstep
    split at hstep
    · cases before with
      | some b => cases hstep
      | none =>
        obtain ⟨b, hb, rfl⟩ := map_eq_ok.mp hstep
        simpa using hread value b hb
    · obtain ⟨-, -, rfl⟩ := map_eq_ok.mp hstep
      exact hbefore
  | null | bool _ | int _ | double _ | string _ => cases h

/-- The body of a definition or an account can be read back. -/
theorem isReadable_of_readBody {d : Document} {body : Body TypeExpr} (h : readBody d = .ok body) :
    body.IsReadable := by
  obtain ⟨⟨kind, content⟩, -, h⟩ := bind_eq_ok.mp h
  cases kind with
  | struct =>
    obtain ⟨fields, hfields, rfl⟩ := map_eq_ok.mp h
    have hdefault : Fields.IsReadable (.named [] : Fields TypeExpr) := trivial
    refine of_readSingle (P := Fields.IsReadable) (fun d a => isReadable_of_readFields)
      (yields_nextFieldOr hdefault fun d a => isReadable_of_readFields) ?_ hfields
    intro field fields hfinish hfield
    rw [← Except.ok.inj hfinish]
    cases field with
    | none => trivial
    | some fields => exact hfield fields rfl
  | enum =>
    obtain ⟨variants, hvariants, rfl⟩ := map_eq_ok.mp h
    have hlist : ∀ (d : Document) (variants : List (Variant TypeExpr)),
        d.list readVariant = .ok variants → ∀ variant ∈ variants, HasReadableFields variant := by
      intro d variants hlist variant hvariant
      obtain ⟨item, -, hitem⟩ :=
        mem_of_list (P := fun _ => True) hlist (fun _ _ => trivial) hvariant
      exact hasReadableFields_of_readVariant hitem
    refine of_readSingle (P := fun variants => ∀ variant ∈ variants, HasReadableFields variant)
      hlist (yields_nextFieldOr (by simp) hlist) ?_ hvariants
    intro field variants hfinish hfield
    rw [← Except.ok.inj hfinish]
    cases field with
    | none => simp
    | some variants => exact hfield variants rfl
  | aliasOf =>
    obtain ⟨type, -, rfl⟩ := map_eq_ok.mp h
    trivial

/-! ## Account items -/

/-- A member is kept with a reference if its key is not known. -/
theorem extra_of_step {p q : PartialReference} {key : String} {value : Json}
    (h : p.step key (ofJson value) = .ok q) :
    q.extra = p.extra ++ [(key, value)].filter (·.1 ∉ slotKeys) := by
  by_cases hkey : key ∈ slotKeys
  · rw [List.filter_eq_nil_iff.mpr (by simpa using hkey), List.append_nil]
    simp only [slotKeys, List.mem_cons, List.not_mem_nil, or_false] at hkey
    rcases hkey with rfl | rfl | rfl | rfl | rfl | rfl | rfl | rfl | rfl
    all_goals
      obtain ⟨-, _, -, rfl⟩ := once_map_eq_ok h
      rfl
  · rw [PartialReference.step_kept p key _ hkey, read_ofJson] at h
    rw [← Except.ok.inj h]
    simp [hkey]

/-- A slot keeps the members that it does not know. -/
theorem extra_of_foldMembers {p q : PartialReference} {members : List (String × Json)}
    (h : foldMembers PartialReference.step p (ofMembers members) = .ok q) :
    q.extra = p.extra ++ members.filter (·.1 ∉ slotKeys) := by
  induction members generalizing p with
  | nil =>
    obtain rfl := Except.ok.inj h
    simp
  | cons member rest ih =>
    obtain ⟨key, value⟩ := member
    obtain ⟨next, hnext, h⟩ := bind_eq_ok.mp h
    rw [ih h, extra_of_step hnext, List.append_assoc, ← List.filter_append, List.singleton_append]

theorem ofKey?_eq_name {key : String} (h : SlotField.ofKey? key = some .name) : key = "name" := by
  unfold SlotField.ofKey? at h
  split at h <;> simp_all

/-- A slot has a name. -/
theorem exists_name_of_reference {members : List (String × Json)} (hkeys : (keys members).Nodup)
    (h : (referenceOfJson? (.object members)).isSome = true) :
    ∃ name, (TypeExpr.only? "name" members).bind TypeExpr.string? = some name := by
  obtain ⟨haccepted, -, hname⟩ := (isSome_referenceOfJson?_iff members).mp h
  obtain ⟨⟨key, value⟩, hmember, hfield⟩ := List.mem_filterMap.mp hname
  obtain rfl := ofKey?_eq_name hfield
  have htext := haccepted _ hmember .name hfield
  cases value with
  | string name =>
    rw [only?_eq_lookup hkeys, lookup_of_mem hkeys hmember]
    exact ⟨name, rfl⟩
  | null | bool _ | int _ | double _ | array _ | object _ => cases htext

/-- The members that a slot keeps hold no items if the slot could not be taken for a
collection. -/
theorem collected?_ofMembers {members : List (String × Json)}
    (hkeys : (ofJson (.object members)).Everywhere HasDistinctKeys)
    (hnone : collected? members = none) :
    collected? (Extra.ofMembers (members.filter (·.1 ∉ slotKeys))).entries = none := by
  have hdistinct := nodup_keys_of_hasDistinctKeys hkeys.self
  have hkept : (keys (canonicalMembers (members.filter (·.1 ∉ slotKeys)))).Nodup := by
    rw [keys_canonicalMembers]
    exact hdistinct.sublist (List.filter_sublist.map _)
  have hunknown : "accounts" ∉ slotKeys := by decide
  have hlookup : (members.filter (·.1 ∉ slotKeys)).lookup "accounts" = members.lookup "accounts" :=
    lookup_filter fun _ => decide_eq_true hunknown
  rw [collected?_eq_lookup hdistinct] at hnone
  rw [collected?_eq_lookup (SortedMembers.nodup_keys (Extra.sorted _)), Extra.ofMembers,
    lookup_sortMembers hkept, lookup_canonicalMembers, hlookup]
  cases hvalue : members.lookup "accounts" with
  | none => rfl
  | some value =>
    rw [hvalue] at hnone
    have hdistinct' : (ofJson value).Everywhere HasDistinctKeys :=
      (everywhere_ofJson_object.mp hkeys).2 _ (mem_of_lookup hvalue)
    by_contra hsome
    have hitems := isSome_membersOfJson?_of_canonical value hdistinct'
      (Option.isSome_iff_ne_none.mpr hsome)
    rw [show membersOfJson? value = none from hnone] at hitems
    cases hitems

/-- A slot keeps the members that it does not know. -/
theorem extra_of_referenceOfJson? {members : List (String × Json)} {slot : AccountReference}
    (h : referenceOfJson? (.object members) = some (.reference slot)) :
    slot.extra = Extra.ofMembers (members.filter (·.1 ∉ slotKeys)) := by
  obtain ⟨found, hfound, heq⟩ := Option.map_eq_some_iff.mp h
  obtain rfl : found = slot := AccountItem.reference.inj heq
  cases hread : readReference (ofJson (.object members)) with
  | error fault => rw [hread] at hfound; cases hfound
  | ok given =>
    rw [hread] at hfound
    obtain rfl : given = found := Option.some.inj hfound
    obtain ⟨p, hp, hread⟩ := bind_eq_ok.mp hread
    obtain ⟨name, -, hread⟩ := bind_eq_ok.mp hread
    have hextra : p.extra = members.filter (·.1 ∉ slotKeys) :=
      extra_of_foldMembers (foldMembers_of_members hp)
    rw [← Except.ok.inj hread, ← hextra]

/-- A reference keeps what holds all through the object that it is told from. -/
theorem keeps_extra_of_referenceOfJson? {P : Document → Prop} (hP : OfLeaves P)
    {members : List (String × Json)} {slot : AccountReference}
    (hparts : (ofJson (.object members)).Everywhere P)
    (h : referenceOfJson? (.object members) = some (.reference slot)) :
    slot.extra.Keeps P slotKeys := by
  rw [extra_of_referenceOfJson? h]
  refine Extra.keeps_ofMembers hP fun member hmember => ?_
  obtain ⟨hmember, hkey⟩ := List.mem_filter.mp hmember
  exact ⟨by simpa using hkey, (everywhere_ofJson_object.mp hparts).2 member hmember⟩

/-- A property of every slot that is read where no collection can be. -/
def HoldsOfSlots (P : Document → Prop) (Q : AccountReference → Prop) : Prop :=
  ∀ members slot, (ofJson (.object members)).Everywhere P →
    ((TypeExpr.only? "name" members).bind TypeExpr.string? = none ∨ collected? members = none) →
    referenceOfJson? (.object members) = some (.reference slot) → Q slot

section Slots

variable {P : Document → Prop} {Q : AccountReference → Prop}

mutual

/-- What holds of every slot that could not be taken for a collection holds of all slots of an
account item that was read. -/
theorem forall_slots_of_itemOfJson? (hslot : HoldsOfSlots P Q) : (value : Json) →
    {item : AccountItem} → (ofJson value).Everywhere P → itemOfJson? value = some item →
    ∀ slot ∈ item.slots, Q slot
  | .null, _, _, h | .bool _, _, _, h | .int _, _, _, h | .double _, _, _, h
  | .string _, _, _, h => by cases h
  | .array [], _, _, h | .array [_], _, _, h | .array (_ :: _ :: _ :: _), _, _, h => by cases h
  | .array [name, members], item, hP, h => by
    have hmembers := @forall_slots_of_membersOfJson? hslot members
    rw [itemOfJson?] at h
    cases hname : TypeExpr.string? name with
    | none => rw [hname] at h; cases h
    | some name =>
      cases hitems : membersOfJson? members with
      | none => rw [hname, hitems] at h; cases h
      | some items =>
        rw [hname, hitems] at h
        rw [← Option.some.inj h]
        exact hmembers ((everywhere_ofJson_array.mp hP).2 _ (.tail _ (.head _))) hitems
  | .object members, item, hP, h => by
    have hitems := @forall_slots_of_collected? hslot members
    have hreference : ((TypeExpr.only? "name" members).bind TypeExpr.string? = none ∨
        collected? members = none) → referenceOfJson? (.object members) = some item →
        ∀ slot ∈ item.slots, Q slot := by
      intro hnone h
      obtain ⟨slot, -, rfl⟩ := Option.map_eq_some_iff.mp h
      exact List.forall_mem_singleton.mpr (hslot members slot hP hnone h)
    rw [itemOfJson?] at h
    cases hname : (TypeExpr.only? "name" members).bind TypeExpr.string? with
    | none =>
      rw [hname] at h
      exact hreference (.inl hname) h
    | some name =>
      cases hcollected : collected? members with
      | none =>
        rw [hname, hcollected] at h
        exact hreference (.inr hcollected) h
      | some items =>
        rw [hname, hcollected] at h
        rw [← Option.some.inj h]
        exact hitems (everywhere_ofJson_object.mp hP).2 hcollected

/-- What holds of references that are told from objects holds of all in a list of items. -/
theorem forall_slots_of_membersOfJson? (hslot : HoldsOfSlots P Q) : (value : Json) →
    {items : List AccountItem} → (ofJson value).Everywhere P → membersOfJson? value = some items →
    ∀ slot ∈ AccountItem.slotsOfItems items, Q slot
  | .null, _, _, h | .bool _, _, _, h | .int _, _, _, h | .double _, _, _, h
  | .string _, _, _, h | .object _, _, _, h => by cases h
  | .array items, _, hP, h => by
    rw [membersOfJson?] at h
    exact forall_slots_of_itemsOfJson? hslot items (everywhere_ofJson_array.mp hP).2 h

theorem forall_slots_of_itemsOfJson? (hslot : HoldsOfSlots P Q) : (values : List Json) →
    {items : List AccountItem} → (∀ value ∈ values, (ofJson value).Everywhere P) →
    itemsOfJson? values = some items →
    ∀ slot ∈ AccountItem.slotsOfItems items, Q slot
  | [], _, _, h => by
    obtain rfl := Option.some.inj h
    simp [AccountItem.slotsOfItems]
  | value :: rest, items, hP, h => by
    obtain ⟨hvalue, hrest⟩ := List.forall_mem_cons.mp hP
    have hfirst := @forall_slots_of_itemOfJson? hslot value
    have hothers := @forall_slots_of_itemsOfJson? hslot rest
    rw [itemsOfJson?] at h
    cases hitem : itemOfJson? value with
    | none => rw [hitem] at h; cases h
    | some item =>
      cases hitems : itemsOfJson? rest with
      | none => rw [hitem, hitems] at h; cases h
      | some others =>
        rw [hitem, hitems] at h
        rw [← Option.some.inj h]
        exact List.forall_mem_append.mpr ⟨hfirst hvalue hitem, hothers hrest hitems⟩

theorem forall_slots_of_collected? (hslot : HoldsOfSlots P Q) :
    (members : List (String × Json)) → {items : List AccountItem} →
    (∀ member ∈ members, (ofJson member.2).Everywhere P) → collected? members = some items →
    ∀ slot ∈ AccountItem.slotsOfItems items, Q slot
  | [], _, _, h => by cases h
  | (key, value) :: rest, items, hP, h => by
    obtain ⟨hvalue, hrest⟩ := List.forall_mem_cons.mp hP
    rw [collected?] at h
    split at h
    · split at h
      · cases h
      · exact forall_slots_of_membersOfJson? hslot value hvalue h
    · exact forall_slots_of_collected? hslot rest hrest h

end

/-- What holds of every slot that could not be taken for a collection holds of all slots of an
account item that was read. -/
theorem forall_slots_of_readItem (hslot : HoldsOfSlots P Q) {d : Document} {item : AccountItem}
    (hP : d.Everywhere P) (h : readItem d = .ok item) : ∀ slot ∈ item.slots, Q slot := by
  obtain ⟨value, hvalue, hitem⟩ := fitting_eq_ok h
  rw [eq_ofJson_of_read d hvalue] at hP
  exact forall_slots_of_itemOfJson? hslot value hP hitem

end Slots

variable {P : Document → Prop}

mutual

/-- An item can be read back if each of its slots can. -/
theorem isReadable_of_slots : (item : AccountItem) →
    (∀ slot ∈ item.slots, slot.extra.Keeps P slotKeys ∧
      collected? slot.extra.entries = none) → item.IsReadable P
  | .reference slot, h => h slot (.head _)
  | .collection _ members, h => areReadable_of_slots members h

/-- Items can be read back if their references can. -/
theorem areReadable_of_slots : (items : List AccountItem) →
    (∀ slot ∈ AccountItem.slotsOfItems items, slot.extra.Keeps P slotKeys ∧
      collected? slot.extra.entries = none) → AccountItem.AreReadable P items
  | [], _ => trivial
  | item :: rest, h =>
    have ⟨hitem, hrest⟩ := List.forall_mem_append.mp h
    ⟨isReadable_of_slots item hitem, areReadable_of_slots rest hrest⟩

end

/-- An account item that was read can be read back: where no key stands twice, no slot of it
could be taken for a collection. -/
theorem isReadable_of_readItem (hP : OfLeaves P) {d : Document} (htidy : d.Everywhere (IsTidy P))
    {item : AccountItem} (h : readItem d = .ok item) : item.IsReadable P := by
  refine isReadable_of_slots item (forall_slots_of_readItem ?_ htidy h)
  intro members slot htidy hnone hslot
  have hcollected : collected? members = none := by
    refine hnone.resolve_left fun hname => ?_
    obtain ⟨name, hsome⟩ := exists_name_of_reference (nodup_keys_of_hasDistinctKeys htidy.self.2)
      (Option.isSome_of_eq_some hslot)
    rw [hsome] at hname
    cases hname
  refine ⟨keeps_extra_of_referenceOfJson? hP htidy.of_isTidy hslot, ?_⟩
  rw [extra_of_referenceOfJson? hslot]
  exact collected?_ofMembers (fun part hpart => (htidy part hpart).2) hcollected

/-- What the slots of an account item that was read keep uninterpreted has keys that no slot
knows. -/
theorem keeps_extra_of_readItem (hP : OfLeaves P) {d : Document}
    (hparts : d.Everywhere P) {item : AccountItem} (h : readItem d = .ok item) :
    ∀ slot ∈ item.slots, slot.extra.Keeps P slotKeys :=
  forall_slots_of_readItem
    (fun _ _ hparts _ hslot => keeps_extra_of_referenceOfJson? hP hparts hslot) hparts h

end Declared

end CanonicalIdl
