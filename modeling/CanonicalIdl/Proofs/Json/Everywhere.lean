import CanonicalIdl.Json.Document

/-!
# Properties of all parts of a document

A property may be asked of a document and of all documents in it: that it is no
floating-point number, that it is no integer beyond 64 bits, or that it is no object with a
repeated key.  A document that can be read as a whole is the value that it reads as.

Main results:

- Theorem `eq_ofJson_of_read`: a document that is read is what its value is seen as.
- Theorem `everywhere_array`, `everywhere_object`: a property of all parts of a container.
-/

namespace CanonicalIdl.Json

namespace Document

mutual

/-- The document and all documents in it. -/
def walk : Document → List Document
  | .array items ending => .array items ending :: walkItems items
  | .object members ending => .object members ending :: walkMembers members
  | .null => [.null]
  | .bool b => [.bool b]
  | .int n => [.int n]
  | .double x => [.double x]
  | .string s => [.string s]
  | .unreadable whenRead whenSkipped => [.unreadable whenRead whenSkipped]

/-- All documents in some documents. -/
def walkItems : List Document → List Document
  | [] => []
  | item :: rest => walk item ++ walkItems rest

/-- All documents in the values of some members. -/
def walkMembers : List (Except Malformation String × Document) → List Document
  | [] => []
  | (_, value) :: rest => walk value ++ walkMembers rest

end

/-- A property of a document and of all documents in it. -/
def Everywhere (P : Document → Prop) (d : Document) : Prop := ∀ part ∈ d.walk, P part

instance (P : Document → Prop) [DecidablePred P] (d : Document) : Decidable (d.Everywhere P) :=
  inferInstanceAs (Decidable (∀ part ∈ d.walk, P part))

/-- A document is a part of itself. -/
theorem mem_walk_self (d : Document) : d ∈ d.walk := by
  cases d <;> simp [walk]

/-- The parts of an array are the parts of its items. -/
theorem mem_walkItems {part : Document} {items : List Document} :
    part ∈ walkItems items ↔ ∃ item ∈ items, part ∈ item.walk := by
  induction items with
  | nil => simp [walkItems]
  | cons item rest ih => simp [walkItems, ih]

/-- The parts of an object are the parts of its values. -/
theorem mem_walkMembers {part : Document}
    {members : List (Except Malformation String × Document)} :
    part ∈ walkMembers members ↔ ∃ member ∈ members, part ∈ member.2.walk := by
  induction members with
  | nil => simp [walkMembers]
  | cons member rest ih =>
    obtain ⟨key, value⟩ := member
    simp [walkMembers, ih]

namespace Everywhere

variable {P : Document → Prop}

theorem self {d : Document} (h : d.Everywhere P) : P d := h d d.mem_walk_self

/-- What holds all through an array holds all through each item. -/
theorem item {items : List Document} {ending : Ending} (h : (array items ending).Everywhere P)
    {item : Document} (hitem : item ∈ items) : item.Everywhere P :=
  fun part hpart => h part (List.mem_cons_of_mem _ (mem_walkItems.mpr ⟨item, hitem, hpart⟩))

/-- What holds all through an object holds all through each value. -/
theorem member {members : List (Except Malformation String × Document)} {ending : Ending}
    (h : (object members ending).Everywhere P) {member : Except Malformation String × Document}
    (hmember : member ∈ members) : member.2.Everywhere P :=
  fun part hpart => h part (List.mem_cons_of_mem _ (mem_walkMembers.mpr ⟨member, hmember, hpart⟩))

end Everywhere

/-- A property of all parts of an array. -/
theorem everywhere_array {P : Document → Prop} {items : List Document} {ending : Ending} :
    (array items ending).Everywhere P ↔
      P (.array items ending) ∧ ∀ item ∈ items, item.Everywhere P := by
  refine ⟨fun h => ⟨h.self, fun item hitem => h.item hitem⟩, fun ⟨hself, hitems⟩ part hpart => ?_⟩
  rcases List.mem_cons.mp hpart with rfl | hpart
  · exact hself
  · obtain ⟨item, hitem, hpart⟩ := mem_walkItems.mp hpart
    exact hitems item hitem part hpart

/-- A property of all parts of an object. -/
theorem everywhere_object {P : Document → Prop}
    {members : List (Except Malformation String × Document)} {ending : Ending} :
    (object members ending).Everywhere P ↔
      P (.object members ending) ∧ ∀ member ∈ members, member.2.Everywhere P := by
  refine ⟨fun h => ⟨h.self, fun member hmember => h.member hmember⟩,
    fun ⟨hself, hmembers⟩ part hpart => ?_⟩
  rcases List.mem_cons.mp hpart with rfl | hpart
  · exact hself
  · obtain ⟨member, hmember, hpart⟩ := mem_walkMembers.mp hpart
    exact hmembers member hmember part hpart

/-- No floating-point number. -/
def IsNotDouble : Document → Prop
  | .double _ => False
  | _ => True

/-- No integer beyond 64 bits. -/
def IsBounded : Document → Prop
  | .int n => -0x8000000000000000 ≤ n ∧ n < 0x10000000000000000
  | _ => True

/-- What is written is read back as it was. -/
def IsExact (d : Document) : Prop := d.IsNotDouble ∧ d.IsBounded

instance : DecidablePred IsNotDouble := fun d =>
  match d with
  | .double _ => .isFalse id
  | .null | .bool _ | .int _ | .string _ | .array _ _ | .object _ _ | .unreadable _ _ =>
    .isTrue trivial

instance : DecidablePred IsBounded := fun d =>
  match d with
  | .int n => inferInstanceAs (Decidable (-0x8000000000000000 ≤ n ∧ n < 0x10000000000000000))
  | .null | .bool _ | .double _ | .string _ | .array _ _ | .object _ _ | .unreadable _ _ =>
    .isTrue trivial

instance : DecidablePred IsExact := fun d =>
  inferInstanceAs (Decidable (d.IsNotDouble ∧ d.IsBounded))

/-- No key of an object stands twice. -/
def HasDistinctKeys : Document → Prop
  | .object members _ => (members.filterMap (·.1.toOption)).Nodup
  | _ => True

instance : DecidablePred HasDistinctKeys := fun d =>
  match d with
  | .object members _ => inferInstanceAs (Decidable ((members.filterMap (·.1.toOption)).Nodup))
  | .null | .bool _ | .int _ | .double _ | .string _ | .array _ _ | .unreadable _ _ =>
    .isTrue trivial

/-! ## Documents without faults -/

theorem mem_ofItems {d : Document} {items : List Json} :
    d ∈ ofItems items ↔ ∃ item ∈ items, d = ofJson item := by
  induction items with
  | nil => simp [ofItems]
  | cons item rest ih => simp [ofItems, ih]

theorem mem_ofMembers {member : Except Malformation String × Document}
    {members : List (String × Json)} :
    member ∈ ofMembers members ↔ ∃ m ∈ members, member = (.ok m.1, ofJson m.2) := by
  induction members with
  | nil => simp [ofMembers]
  | cons first rest ih =>
    obtain ⟨key, value⟩ := first
    simp [ofMembers, ih]

section Values

variable {P : Document → Prop} {items : List Json} {members : List (String × Json)}

/-- A property of all parts of an array that is a value. -/
theorem everywhere_ofJson_array :
    (ofJson (.array items)).Everywhere P ↔
      P (ofJson (.array items)) ∧ ∀ item ∈ items, (ofJson item).Everywhere P := by
  rw [ofJson, everywhere_array]
  refine and_congr_right fun _ => ⟨fun h item hitem => ?_, fun h d hd => ?_⟩
  · exact h _ (mem_ofItems.mpr ⟨item, hitem, rfl⟩)
  · obtain ⟨item, hitem, rfl⟩ := mem_ofItems.mp hd
    exact h item hitem

/-- A property of all parts of an object that is a value. -/
theorem everywhere_ofJson_object :
    (ofJson (.object members)).Everywhere P ↔
      P (ofJson (.object members)) ∧ ∀ member ∈ members, (ofJson member.2).Everywhere P := by
  rw [ofJson, everywhere_object]
  refine and_congr_right fun _ => ⟨fun h member hmember => ?_, fun h m hm => ?_⟩
  · exact h _ (mem_ofMembers.mpr ⟨member, hmember, rfl⟩)
  · obtain ⟨member, hmember, rfl⟩ := mem_ofMembers.mp hm
    exact h member hmember

end Values

mutual

/-- A document that is read is what its value is seen as. -/
theorem eq_ofJson_of_read : (d : Document) → {value : Json} → d.read = .ok value →
    d = ofJson value
  | .null, _, h | .bool _, _, h | .int _, _, h | .double _, _, h | .string _, _, h => by
    cases h
    rfl
  | .unreadable _ _, _, h => by cases h
  | .array items ending, value, h => by
    cases hitems : readItems items with
    | error fault => simp [read, hitems, bind, Except.bind] at h
    | ok values =>
      cases ending with
      | broken whenRead whenSkipped => simp [read, hitems, bind, Except.bind, Ending.read] at h
      | closed =>
        simp only [read, hitems, bind, Except.bind, Ending.read, pure, Except.pure,
          Except.ok.injEq] at h
        rw [← h, ofJson, ← eq_ofItems_of_readItems items hitems]
  | .object members ending, value, h => by
    cases hmembers : readMembers members with
    | error fault => simp [read, hmembers, bind, Except.bind] at h
    | ok values =>
      cases ending with
      | broken whenRead whenSkipped => simp [read, hmembers, bind, Except.bind, Ending.read] at h
      | closed =>
        simp only [read, hmembers, bind, Except.bind, Ending.read, pure, Except.pure,
          Except.ok.injEq] at h
        rw [← h, ofJson, ← eq_ofMembers_of_readMembers members hmembers]

/-- Items are read only if they are written forms of what is read. -/
theorem eq_ofItems_of_readItems : (items : List Document) → {values : List Json} →
    readItems items = .ok values → items = ofItems values
  | [], _, h => by
    cases h
    rfl
  | item :: rest, values, h => by
    cases hitem : item.read with
    | error fault => simp [readItems, hitem, bind, Except.bind] at h
    | ok value =>
      cases hrest : readItems rest with
      | error fault => simp [readItems, hitem, hrest, bind, Except.bind] at h
      | ok others =>
        simp only [readItems, hitem, hrest, bind, Except.bind, pure, Except.pure,
          Except.ok.injEq] at h
        rw [← h, ofItems, ← eq_ofJson_of_read item hitem, ← eq_ofItems_of_readItems rest hrest]

/-- So are members. -/
theorem eq_ofMembers_of_readMembers :
    (members : List (Except Malformation String × Document)) → {values : List (String × Json)} →
    readMembers members = .ok values → members = ofMembers values
  | [], _, h => by
    cases h
    rfl
  | (.error fault, _) :: _, _, h => by cases h
  | (.ok key, item) :: rest, values, h => by
    cases hitem : item.read with
    | error fault => simp [readMembers, hitem, bind, Except.bind] at h
    | ok value =>
      cases hrest : readMembers rest with
      | error fault => simp [readMembers, hitem, hrest, bind, Except.bind] at h
      | ok others =>
        simp only [readMembers, hitem, hrest, bind, Except.bind, pure, Except.pure,
          Except.ok.injEq] at h
        rw [← h, ofMembers, ← eq_ofJson_of_read item hitem,
          ← eq_ofMembers_of_readMembers rest hrest]

end

end Document

end CanonicalIdl.Json
