import CanonicalIdl.Proofs.Json.MappedDoubles
import CanonicalIdl.Proofs.Json.Records

/-!
# Documents that are followed up to a limit

A reader follows containers inside one another up to a limit.  A container beyond it can be
skipped and cannot be read, so a value that nests deeper is a document that cannot be read as a
whole.

Main results:

- Theorem `ofJsonWithin_of_nesting_le`: within the limit nothing is unreadable.
- Theorem `nesting_le_of_read`: a document that is read as a whole does not exceed the limit.
- Theorem `skip_ofJsonWithin`: beyond the limit everything can be skipped.
- Theorem `follows_list`, `follows_object`: readers that accept a value only if they can follow it
  down to its deepest container.
- Theorem `pairwise_keys_of_foldMembers`: a key that a reader takes once stands once.
-/

namespace CanonicalIdl.Json

mutual

/-- How many containers stand inside one another. -/
def nesting : Json → Nat
  | .array items => nestingItems items + 1
  | .object members => nestingMembers members + 1
  | .null | .bool _ | .int _ | .double _ | .string _ => 0

/-- The nesting of the deepest of some values. -/
def nestingItems : List Json → Nat
  | [] => 0
  | item :: rest => max (nesting item) (nestingItems rest)

/-- The nesting of the deepest value among some members. -/
def nestingMembers : List (String × Json) → Nat
  | [] => 0
  | (_, value) :: rest => max (nesting value) (nestingMembers rest)

end

/-- Items are nested as deep as the deepest of them. -/
theorem nestingItems_le_iff {items : List Json} {room : Nat} :
    nestingItems items ≤ room ↔ ∀ item ∈ items, nesting item ≤ room := by
  induction items with
  | nil => simp [nestingItems]
  | cons item rest ih => rw [nestingItems, Nat.max_le, ih, List.forall_mem_cons]

/-- So are the values of members. -/
theorem nestingMembers_le_iff {members : List (String × Json)} {room : Nat} :
    nestingMembers members ≤ room ↔ ∀ member ∈ members, nesting member.2 ≤ room := by
  induction members with
  | nil => simp [nestingMembers]
  | cons member rest ih =>
    obtain ⟨key, value⟩ := member
    rw [nestingMembers, Nat.max_le, ih, List.forall_mem_cons]

mutual

/-- Other floating-point numbers do not nest deeper. -/
theorem nesting_mapDoubles (f : Double → Double) : (value : Json) →
    nesting (value.mapDoubles f) = nesting value
  | .null | .bool _ | .int _ | .double _ | .string _ => rfl
  | .array items => by
    rw [mapDoubles, nesting, nesting, nestingItems_mapDoublesItems f items]
  | .object members => by
    rw [mapDoubles, nesting, nesting, nestingMembers_mapDoublesMembers f members]

theorem nestingItems_mapDoublesItems (f : Double → Double) : (items : List Json) →
    nestingItems (mapDoublesItems f items) = nestingItems items
  | [] => rfl
  | item :: rest => by
    rw [mapDoublesItems, nestingItems, nestingItems, nesting_mapDoubles f item,
      nestingItems_mapDoublesItems f rest]

theorem nestingMembers_mapDoublesMembers (f : Double → Double) : (members : List (String × Json)) →
    nestingMembers (mapDoublesMembers f members) = nestingMembers members
  | [] => rfl
  | (_, value) :: rest => by
    rw [mapDoublesMembers, nestingMembers, nestingMembers, nesting_mapDoubles f value,
      nestingMembers_mapDoublesMembers f rest]

end

namespace Document

mutual

/-- A value seen as a document of which containers inside more than `room` others cannot be
read. -/
def ofJsonWithin : Nat → Json → Document
  | _, .null => .null
  | _, .bool b => .bool b
  | _, .int n => .int n
  | _, .double x => .double x
  | _, .string s => .string s
  | room + 1, .array items => .array (ofItemsWithin room items) .closed
  | room + 1, .object members => .object (ofMembersWithin room members) .closed
  | 0, .array _ => .unreadable .tooDeep none
  | 0, .object _ => .unreadable .tooDeep none

/-- The items of an array as documents that are followed up to a limit. -/
def ofItemsWithin (room : Nat) : List Json → List Document
  | [] => []
  | item :: rest => ofJsonWithin room item :: ofItemsWithin room rest

/-- The members of an object as documents that are followed up to a limit. -/
def ofMembersWithin (room : Nat) :
    List (String × Json) → List (Except Malformation String × Document)
  | [] => []
  | (key, value) :: rest => (.ok key, ofJsonWithin room value) :: ofMembersWithin room rest

end

mutual

/-- Within the limit nothing is unreadable. -/
theorem ofJsonWithin_of_nesting_le : (value : Json) → {room : Nat} → nesting value ≤ room →
    ofJsonWithin room value = ofJson value
  | .null, _, _ | .bool _, _, _ | .int _, _, _ | .double _, _, _ | .string _, _, _ => by
    simp [ofJsonWithin, ofJson]
  | .array items, room, h => by
    obtain ⟨room, rfl⟩ : ∃ k, room = k + 1 := ⟨room - 1, by simp only [nesting] at h; omega⟩
    rw [ofJsonWithin, ofJson, ofItemsWithin_of_nesting_le items (Nat.le_of_succ_le_succ h)]
  | .object members, room, h => by
    obtain ⟨room, rfl⟩ : ∃ k, room = k + 1 := ⟨room - 1, by simp only [nesting] at h; omega⟩
    rw [ofJsonWithin, ofJson, ofMembersWithin_of_nesting_le members (Nat.le_of_succ_le_succ h)]

/-- Items with enough room around them are all there. -/
theorem ofItemsWithin_of_nesting_le : (items : List Json) → {room : Nat} →
    nestingItems items ≤ room → ofItemsWithin room items = ofItems items
  | [], _, _ => rfl
  | item :: rest, room, h => by
    obtain ⟨hitem, hrest⟩ := Nat.max_le.mp h
    rw [ofItemsWithin, ofItems, ofJsonWithin_of_nesting_le item hitem,
      ofItemsWithin_of_nesting_le rest hrest]

theorem ofMembersWithin_of_nesting_le : (members : List (String × Json)) → {room : Nat} →
    nestingMembers members ≤ room → ofMembersWithin room members = ofMembers members
  | [], _, _ => rfl
  | (key, value) :: rest, room, h => by
    obtain ⟨hvalue, hrest⟩ := Nat.max_le.mp h
    rw [ofMembersWithin, ofMembers, ofJsonWithin_of_nesting_le value hvalue,
      ofMembersWithin_of_nesting_le rest hrest]

end

mutual

/-- Beyond the limit everything can be skipped. -/
theorem skip_ofJsonWithin (room : Nat) : (value : Json) → (ofJsonWithin room value).skip = .ok ()
  | .null | .bool _ | .int _ | .double _ | .string _ => by simp [ofJsonWithin, skip]
  | .array items => by
    cases room with
    | zero => simp [ofJsonWithin, skip]
    | succ room => simp [ofJsonWithin, skip, skipItems_ofItemsWithin room items, Ending.skip]
  | .object members => by
    cases room with
    | zero => simp [ofJsonWithin, skip]
    | succ room => simp [ofJsonWithin, skip, skipMembers_ofMembersWithin room members, Ending.skip]

/-- Items can be skipped even where they are cut. -/
theorem skipItems_ofItemsWithin (room : Nat) : (items : List Json) →
    skipItems (ofItemsWithin room items) = .ok ()
  | [] => rfl
  | item :: rest => by
    simp [ofItemsWithin, skipItems, skip_ofJsonWithin room item, skipItems_ofItemsWithin room rest]

theorem skipMembers_ofMembersWithin (room : Nat) : (members : List (String × Json)) →
    skipMembers (ofMembersWithin room members) = .ok ()
  | [] => rfl
  | (key, value) :: rest => by
    simp [ofMembersWithin, skipMembers, skip_ofJsonWithin room value,
      skipMembers_ofMembersWithin room rest]

end

mutual

/-- A document that is read as a whole does not exceed the limit. -/
theorem nesting_le_of_read : (value : Json) → {room : Nat} → {found : Json} →
    (ofJsonWithin room value).read = .ok found → nesting value ≤ room
  | .null, _, _, _ | .bool _, _, _, _ | .int _, _, _, _ | .double _, _, _, _ | .string _, _, _, _ =>
    Nat.zero_le _
  | .array _, 0, _, h | .object _, 0, _, h => by cases h
  | .array items, room + 1, found, h => by
    obtain ⟨values, hvalues, -⟩ := bind_eq_ok.mp h
    exact Nat.succ_le_succ (nestingItems_le_of_readItems items hvalues)
  | .object members, room + 1, found, h => by
    obtain ⟨values, hvalues, -⟩ := bind_eq_ok.mp h
    exact Nat.succ_le_succ (nestingMembers_le_of_readMembers members hvalues)

/-- Items that were read had enough room. -/
theorem nestingItems_le_of_readItems : (items : List Json) → {room : Nat} → {found : List Json} →
    readItems (ofItemsWithin room items) = .ok found → nestingItems items ≤ room
  | [], _, _, _ => Nat.zero_le _
  | item :: rest, room, found, h => by
    obtain ⟨value, hvalue, h⟩ := bind_eq_ok.mp h
    obtain ⟨values, hvalues, -⟩ := bind_eq_ok.mp h
    exact Nat.max_le.mpr ⟨nesting_le_of_read item hvalue, nestingItems_le_of_readItems rest hvalues⟩

theorem nestingMembers_le_of_readMembers : (members : List (String × Json)) → {room : Nat} →
    {found : List (String × Json)} → readMembers (ofMembersWithin room members) = .ok found →
    nestingMembers members ≤ room
  | [], _, _, _ => Nat.zero_le _
  | (key, value) :: rest, room, found, h => by
    obtain ⟨value', hvalue, h⟩ := bind_eq_ok.mp h
    obtain ⟨values, hvalues, -⟩ := bind_eq_ok.mp h
    exact Nat.max_le.mpr
      ⟨nesting_le_of_read value hvalue, nestingMembers_le_of_readMembers rest hvalues⟩

end

/-! ## Readers that follow a value -/

/-- The reader accepts the value only if it can follow it down to its deepest container. -/
def Follows {α : Type} (read : Document → Reading α) (value : Json) : Prop :=
  ∀ ⦃room a⦄, read (ofJsonWithin room value) = .ok a → nesting value ≤ room

section Follows

variable {α β σ : Type} {read : Document → Reading α} {value : Json}

/-- What is no container is followed by every reader. -/
theorem follows_of_nesting_eq_zero (h : nesting value = 0) : Follows read value :=
  fun room _ _ => h.trans_le (Nat.zero_le room)

theorem follows_read (value : Json) : Follows Document.read value :=
  fun _ _ h => nesting_le_of_read value h

/-- Turning the answer into another one follows as far. -/
theorem Follows.map (h : Follows read value) (f : α → β) :
    Follows (fun d => (read d).map f) value := by
  intro room b hb
  obtain ⟨a, ha, -⟩ := map_eq_ok.mp hb
  exact h ha

/-- A field of a record that is read for the first time. -/
theorem Follows.once (h : Follows read value) {field : Option α} {name : String}
    {f : Option α → β} : Follows (fun d => (Document.once field name (read d)).map f) value := by
  intro room b hb
  obtain ⟨-, a, ha, -⟩ := once_map_eq_ok hb
  exact h ha

/-- So does a reader of values that may be null. -/
theorem Follows.orNull (h : Follows read value) : Follows (Document.orNull read) value := by
  intro room a ha
  unfold Document.orNull at ha
  split at ha
  · next hnull =>
    cases value with
    | array _ | object _ => cases room <;> cases hnull
    | null | bool _ | int _ | double _ | string _ => exact Nat.zero_le room
  · exact h.map some ha

/-- A list that is read has room for one more container around its items, which are all read. -/
theorem exists_of_list_ofJsonWithin {items : List Json} {room : Nat} {found : List α}
    (h : list read (ofJsonWithin room (.array items)) = .ok found) :
    ∃ inside, room = inside + 1 ∧ ∀ item ∈ items, ∃ a, read (ofJsonWithin inside item) = .ok a := by
  cases room with
  | zero => cases h
  | succ inside =>
    obtain ⟨values, hvalues, -⟩ := bind_eq_ok.mp h
    refine ⟨inside, rfl, ?_⟩
    clear h found
    induction items generalizing values with
    | nil => simp
    | cons item rest ih =>
      obtain ⟨a, ha, hvalues⟩ := bind_eq_ok.mp hvalues
      obtain ⟨others, hothers, -⟩ := bind_eq_ok.mp hvalues
      exact List.forall_mem_cons.mpr ⟨⟨a, ha⟩, ih others hothers⟩

/-- A list is followed if its items are. -/
theorem follows_list {items : List Json} (h : ∀ item ∈ items, Follows read item) :
    Follows (list read) (.array items) := by
  intro room found hfound
  obtain ⟨inside, rfl, hitems⟩ := exists_of_list_ofJsonWithin hfound
  refine Nat.succ_le_succ (nestingItems_le_iff.mpr fun item hitem => ?_)
  obtain ⟨a, ha⟩ := hitems item hitem
  exact h item hitem ha

/-- A list is followed into each item. -/
theorem follows_list_map {encode : β → Json} {values : List β}
    (h : ∀ value ∈ values, Follows read (encode value)) :
    Follows (list read) (.array (values.map encode)) :=
  follows_list (List.forall_mem_map.mpr h)

theorem follows_list_text (texts : List String) :
    Follows (list text) (.array (texts.map .string)) :=
  follows_list_map fun _ _ => follows_of_nesting_eq_zero rfl

variable {step : σ → String → Document → Reading σ}

/-- Every member of an object that is read is read. -/
theorem exists_of_foldMembers_ofMembersWithin {members : List (String × Json)} {room : Nat}
    {start state : σ} (h : foldMembers step start (ofMembersWithin room members) = .ok state) :
    ∀ member ∈ members, ∃ before after,
      step before member.1 (ofJsonWithin room member.2) = .ok after := by
  induction members generalizing start with
  | nil => simp
  | cons member rest ih =>
    obtain ⟨next, hnext, h⟩ := bind_eq_ok.mp h
    exact List.forall_mem_cons.mpr ⟨⟨start, next, hnext⟩, ih h⟩

/-- An object is followed if the reader passes each of its members to a reader that follows it. -/
theorem follows_object {start : σ} {members : List (String × Json)}
    (hread : ∀ ms, ∃ finish : σ → Reading α,
      read (.object ms .closed) = Document.members step start ms .closed >>= finish)
    (hdeep : ∀ a, read (.unreadable .tooDeep none) ≠ .ok a)
    (h : ∀ member ∈ members, ∀ state, Follows (step state member.1) member.2) :
    Follows read (.object members) := by
  intro room a ha
  cases room with
  | zero => exact absurd ha (hdeep a)
  | succ room =>
    obtain ⟨finish, hfinish⟩ := hread (ofMembersWithin room members)
    obtain ⟨state, hstate, -⟩ := bind_eq_ok.mp (hfinish.symm.trans ha)
    refine Nat.succ_le_succ (nestingMembers_le_iff.mpr fun member hmember => ?_)
    obtain ⟨before, after, hafter⟩ :=
      exists_of_foldMembers_ofMembersWithin (foldMembers_of_members hstate) member hmember
    exact h member hmember before hafter

end Follows

/-! ## Keys that are given once -/

section GivenOnce

variable {σ : Type} {step : σ → String → Document → Reading σ} {isGiven : σ → Prop} {key : String}
  {start state : σ} {members : List (String × Json)} {room : Nat}

/-- A reader that notes that a key was given, and stops where it is given again, reads no
object with that key twice. -/
theorem pairwise_keys_of_foldMembers
    (hkey : ∀ before value after, step before key value = .ok after →
      ¬ isGiven before ∧ isGiven after)
    (hkept : ∀ before other value after, step before other value = .ok after →
      isGiven before → isGiven after)
    (h : foldMembers step start (ofMembersWithin room members) = .ok state) :
    (keys members).Pairwise fun a b => a = key → b ≠ key := by
  -- once it is given the key stays given, so no member behind it has that key
  have hgiven : ∀ (members : List (String × Json)) (start : σ), isGiven start →
      foldMembers step start (ofMembersWithin room members) = .ok state →
      ∀ other ∈ keys members, other ≠ key := by
    intro members
    induction members with
    | nil => simp [keys]
    | cons member rest ih =>
      intro start hstart h
      obtain ⟨next, hnext, h⟩ := bind_eq_ok.mp h
      refine List.forall_mem_cons.mpr ⟨?_, ih next (hkept _ _ _ _ hnext hstart) h⟩
      rintro rfl
      exact (hkey _ _ _ hnext).1 hstart
  induction members generalizing start with
  | nil => exact .nil
  | cons member rest ih =>
    obtain ⟨next, hnext, h⟩ := bind_eq_ok.mp h
    refine .cons ?_ (ih h)
    rintro other hother rfl
    exact hgiven rest next (hkey _ _ _ hnext).2 h other hother

end GivenOnce

end Document

end CanonicalIdl.Json
