import CanonicalIdl.Json.Reader
import CanonicalIdl.Proofs.Json.Everywhere

/-!
# Laws of reading records

Two laws serve every record that is read member by member.  What a reader accepts was
accepted member by member, so a property of a record that every member keeps is one of the
whole record.  And a record that was written field by field is read field by field, whatever
fields are left out.

Main results:

- Theorem `foldMembers_induct`: what every member keeps the whole object keeps.
- Theorem `foldMembers_optionalMember`: a field that is written only when there is a value.
- Theorem `foldMembers_kept`: members that a record does not know are kept in order.
-/

namespace CanonicalIdl.Json

/-! ## Results -/

/-- A reading in two steps succeeds where both do. -/
theorem bind_eq_ok {α β : Type} {x : Reading α} {f : α → Reading β} {b : β} :
    x >>= f = .ok b ↔ ∃ a, x = .ok a ∧ f a = .ok b := by
  cases x <;> simp [bind, Except.bind]

/-- So does one whose answer is turned into another. -/
theorem map_eq_ok {α β : Type} {x : Reading α} {f : α → β} {b : β} :
    x.map f = .ok b ↔ ∃ a, x = .ok a ∧ f a = b := by
  cases x <;> simp [Except.map]

@[simp] theorem ok_bind {α β : Type} (a : α) (f : α → Reading β) :
    (Except.ok a : Reading α) >>= f = f a := rfl

@[simp] theorem pure_eq_ok {α : Type} (a : α) : (pure a : Reading α) = .ok a := rfl

@[simp] theorem ok_map {α β : Type} (a : α) (f : α → β) :
    (Except.ok a : Reading α).map f = .ok (f a) := rfl

/-- The items of a list, if it has any. -/
def given? {α : Type} (items : List α) : Option (List α) :=
  if items.isEmpty then none else some items

/-- A list that is left out because it is empty is read as empty. -/
@[simp] theorem getD_given? {α : Type} (items : List α) : (given? items).getD [] = items := by
  cases items <;> rfl

/-- A list that is given is the one that is written. -/
theorem eq_of_mem_given? {α : Type} {items found : List α} (h : found ∈ given? items) :
    found = items := by
  unfold given? at h
  split at h
  · cases h
  · exact (Option.some.inj h).symm

/-- A flag as a written member gives it: nothing when it is not set. -/
def givenFlag? (flag : Bool) : Option Bool :=
  if flag then some true else none

/-- A flag that is left out is read as not set. -/
@[simp] theorem getD_givenFlag? (flag : Bool) : (givenFlag? flag).getD false = flag := by
  cases flag <;> rfl

@[simp] theorem getD_map_some {α : Type} (value : Option α) :
    (value.map some).getD none = value := by
  cases value <;> rfl

@[simp] theorem getD_map_given? {α β : Type} (f : α → β) (items : List α) :
    ((given? items).map (List.map f)).getD [] = items.map f := by
  cases items <;> rfl

theorem listMember_eq_optionalMember {α : Type} (key : String) (encode : α → Json)
    (items : List α) :
    listMember key encode items =
      optionalMember key (fun items => .array (items.map encode)) (given? items) := by
  cases items <;> rfl

/-- What holds of a member that may be left out holds of its value, if there is one. -/
theorem forall_mem_optionalMember {α : Type} {P : String × Json → Prop} {key : String}
    {encode : α → Json} {value : Option α} :
    (∀ member ∈ optionalMember key encode value, P member) ↔
      ∀ a ∈ value, P (key, encode a) := by
  cases value <;> simp [optionalMember]

/-- What holds of a list that may be left out is asked only where it has items. -/
theorem forall_mem_listMember {α : Type} {P : String × Json → Prop} {key : String}
    {encode : α → Json} {items : List α} :
    (∀ member ∈ listMember key encode items, P member) ↔
      (items ≠ [] → P (key, .array (items.map encode))) := by
  cases items <;> simp [listMember]

namespace Document

/-! ## Parts of a reader -/

section Readers

variable {α β : Type} {read : Document → Reading α}

/-- A field that is read for the first time. -/
theorem once_map_eq_ok {field : Option α} {name : String} {reading : Reading α}
    {f : Option α → β} {b : β} (h : (once field name reading).map f = .ok b) :
    field = none ∧ ∃ a, reading = .ok a ∧ b = f (some a) := by
  cases field with
  | some a => cases h
  | none =>
    obtain ⟨field, hfield, rfl⟩ := map_eq_ok.mp h
    obtain ⟨a, ha, rfl⟩ := map_eq_ok.mp hfield
    exact ⟨rfl, a, ha, rfl⟩

/-- A field that was not given before takes what is read. -/
theorem once_map_of_eq_ok {field : Option α} {name : String} {reading : Reading α}
    {f : Option α → β} {a : α} (hfield : field = none) (hreading : reading = .ok a) :
    (once field name reading).map f = .ok (f (some a)) := by
  rw [hfield, hreading]
  rfl

/-- A required field that is found was given. -/
theorem required_eq_ok {field : Option α} {name : String} {a : α}
    (h : required field name = .ok a) : field = some a := by
  cases field with
  | some found => exact congrArg some (Except.ok.inj h)
  | none => cases h

/-- Each value of a list was read from some item. -/
theorem mem_of_readEach {items : List Document} {values : List α}
    (h : readEach read items = .ok values) {value : α} (hvalue : value ∈ values) :
    ∃ item ∈ items, read item = .ok value := by
  induction items generalizing values with
  | nil =>
    obtain rfl := Except.ok.inj h
    cases hvalue
  | cons item rest ih =>
    obtain ⟨first, hfirst, h⟩ := bind_eq_ok.mp h
    obtain ⟨others, hothers, h⟩ := bind_eq_ok.mp h
    obtain rfl := Except.ok.inj h
    rcases List.mem_cons.mp hvalue with rfl | hvalue
    · exact ⟨item, .head _, hfirst⟩
    · obtain ⟨found, hfound, hread⟩ := ih hothers hvalue
      exact ⟨found, .tail _ hfound, hread⟩

/-- An item of a list that was read, and the part of the document that it was read from. -/
theorem mem_of_list {P : Document → Prop} {d : Document} {values : List α}
    (h : d.list read = .ok values) (hd : d.Everywhere P) {value : α} (hvalue : value ∈ values) :
    ∃ item, item.Everywhere P ∧ read item = .ok value := by
  cases d with
  | array items ending =>
    obtain ⟨found, hfound, h⟩ := bind_eq_ok.mp h
    obtain ⟨u, -, h⟩ := bind_eq_ok.mp h
    obtain rfl := Except.ok.inj h
    obtain ⟨item, hitem, hread⟩ := mem_of_readEach hfound hvalue
    exact ⟨item, hd.item hitem, hread⟩
  | null | bool _ | int _ | double _ | string _ | object _ _ | unreadable _ _ => cases h

/-- A value that may be null is read as any other where it is given. -/
theorem read_of_orNull {d : Document} {a : α} (h : d.orNull read = .ok (some a)) :
    read d = .ok a := by
  unfold orNull at h
  split at h
  · cases h
  · obtain ⟨b, hb, heq⟩ := map_eq_ok.mp h
    rw [← Option.some.inj heq]
    exact hb

theorem orNull_of_ne {value : Json} (h : value ≠ .null) :
    (ofJson value).orNull read = (read (ofJson value)).map some := by
  cases value with
  | null => exact absurd rfl h
  | bool _ | int _ | double _ | string _ | array _ | object _ => rfl

/-- Values that were written one after another are read one after another. -/
theorem readEach_ofItems {encode : β → Json} {back : β → α} {values : List β}
    (h : ∀ value ∈ values, read (ofJson (encode value)) = .ok (back value)) :
    readEach read (ofItems (values.map encode)) = .ok (values.map back) := by
  induction values with
  | nil => rfl
  | cons value rest ih =>
    obtain ⟨hvalue, hrest⟩ := List.forall_mem_cons.mp h
    simp [ofItems, readEach, hvalue, ih hrest]

/-- A list that was written is read item by item. -/
theorem list_ofJson_array {encode : β → Json} {back : β → α} {values : List β}
    (h : ∀ value ∈ values, read (ofJson (encode value)) = .ok (back value)) :
    (ofJson (.array (values.map encode))).list read = .ok (values.map back) := by
  simp [ofJson, list, readEach_ofItems h, Ending.read]

/-- A list of which every item reads back reads back. -/
theorem list_ofJson_array_self {encode : α → Json} {values : List α}
    (h : ∀ value ∈ values, read (ofJson (encode value)) = .ok value) :
    (ofJson (.array (values.map encode))).list read = .ok values := by
  rw [@list_ofJson_array _ _ read encode id values h, List.map_id]

/-- A list of which every item is read is read. -/
theorem exists_list_ofJson_array {encode : β → Json} {values : List β}
    (h : ∀ value ∈ values, ∃ a, read (ofJson (encode value)) = .ok a) :
    ∃ found, (ofJson (.array (values.map encode))).list read = .ok found := by
  have hitems : ∃ found, readEach read (ofItems (values.map encode)) = .ok found := by
    induction values with
    | nil => exact ⟨[], rfl⟩
    | cons value rest ih =>
      obtain ⟨⟨a, ha⟩, hrest⟩ := List.forall_mem_cons.mp h
      obtain ⟨others, hothers⟩ := ih hrest
      exact ⟨a :: others, by simp [ofItems, readEach, ha, hothers]⟩
  obtain ⟨found, hfound⟩ := hitems
  exact ⟨found, by simp [ofJson, list, hfound, Ending.read]⟩

/-- A list of texts is read back. -/
theorem list_text_ofJson (texts : List String) :
    (ofJson (.array (texts.map .string))).list text = .ok texts :=
  list_ofJson_array_self fun _ _ => rfl

end Readers

/-! ## Lists of fields -/

section Fields

variable {α β : Type} {P : α → Prop} {Q : β → Prop}

/-- Whatever a reader takes from a list has the property. -/
def Yields (P : α → Prop) (reader : FieldReader α) : Prop :=
  ∀ rest a after, reader rest = .ok (a, after) → P a

theorem yields_pure {a : α} (h : P a) : Yields P (pure a) := by
  intro rest b after hb
  obtain ⟨rfl, -⟩ := Prod.mk.inj (Except.ok.inj hb)
  exact h

/-- What a reader yields may be handed to another one. -/
theorem Yields.andThen {reader : FieldReader β} {next : β → FieldReader α}
    (hreader : Yields Q reader) (hnext : ∀ b, Q b → Yields P (next b)) :
    Yields P (reader >>= next) := by
  intro rest a after ha
  obtain ⟨⟨b, between⟩, hb, ha⟩ := bind_eq_ok.mp ha
  exact hnext b (hreader rest b between hb) between a after ha

/-- Anything may stand in a field. -/
theorem yields_any (reader : FieldReader β) : Yields (fun _ => True) reader :=
  fun _ _ _ _ => trivial

theorem yields_nextField? {read : Document → Reading α} (h : ∀ d a, read d = .ok a → P a) :
    Yields (fun found : Option α => ∀ a ∈ found, P a) (nextField? read) := by
  intro rest found after hfound
  unfold nextField? at hfound
  split at hfound
  · obtain ⟨u, -, heq⟩ := map_eq_ok.mp hfound
    obtain ⟨rfl, -⟩ := Prod.mk.inj heq
    simp
  · next item items _ =>
    obtain ⟨a, ha, heq⟩ := map_eq_ok.mp hfound
    obtain ⟨rfl, -⟩ := Prod.mk.inj heq
    simpa using h item a ha

/-- A field, or a default at the end of the list. -/
theorem yields_nextFieldOr {default : α} {read : Document → Reading α} (hdefault : P default)
    (h : ∀ d a, read d = .ok a → P a) : Yields P (nextFieldOr default read) := by
  refine (yields_nextField? h).andThen fun found hfound => yields_pure ?_
  cases found with
  | none => exact hdefault
  | some a => exact hfound a rfl

/-- What fields are read as is what their reader yields. -/
theorem Yields.of_fields {reader : FieldReader α} (h : Yields P reader)
    {atEnd : Elements → Reading Unit} {items : List Document} {ending : Ending} {a : α}
    (ha : fields reader atEnd items ending = .ok a) : P a := by
  obtain ⟨⟨b, after⟩, hb, ha⟩ := bind_eq_ok.mp ha
  obtain ⟨u, -, ha⟩ := bind_eq_ok.mp ha
  rw [← Except.ok.inj ha]
  exact h _ b after hb

end Fields

/-! ## Members one after another -/

section Members

variable {σ α : Type} {step : σ → String → Document → Reading σ}

/-- What every member keeps the whole object keeps. -/
theorem foldMembers_induct {P : σ → Prop}
    {members : List (Except Malformation String × Document)} {start state : σ}
    (hstart : P start)
    (hstep : ∀ key value before after, (.ok key, value) ∈ members → P before →
      step before key value = .ok after → P after)
    (h : foldMembers step start members = .ok state) : P state := by
  induction members generalizing start with
  | nil =>
    obtain rfl := Except.ok.inj h
    exact hstart
  | cons member rest ih =>
    obtain ⟨fault | key, value⟩ := member
    · cases h
    · obtain ⟨next, hnext, h⟩ := bind_eq_ok.mp h
      exact ih (hstep key value start next (.head _) hstart hnext)
        (fun key value before after hmem => hstep key value before after (.tail _ hmem)) h

/-- The members of an object that is closed are read one after the other. -/
theorem members_of_foldMembers {start state : σ}
    {ms : List (Except Malformation String × Document)}
    (h : foldMembers step start ms = .ok state) : members step start ms .closed = .ok state := by
  rw [members, h]
  rfl

/-- Wherever an object was read, its members were read one after the other. -/
theorem foldMembers_of_members {start state : σ}
    {ms : List (Except Malformation String × Document)} {ending : Ending}
    (h : members step start ms ending = .ok state) : foldMembers step start ms = .ok state := by
  obtain ⟨found, hfound, h⟩ := bind_eq_ok.mp h
  obtain ⟨u, -, h⟩ := bind_eq_ok.mp h
  obtain rfl := Except.ok.inj h
  exact hfound

variable {state : σ} {key : String}

/-- A field that is always written. -/
theorem foldMembers_member {next : σ} {value : Json} (rest : List (String × Json))
    (h : step state key (ofJson value) = .ok next) :
    foldMembers step state (ofMembers ((key, value) :: rest)) =
      foldMembers step next (ofMembers rest) := by
  simp [ofMembers, foldMembers, h]

/-- A field that is written only when there is a value, and can be read then. -/
theorem foldMembers_optionalMember_of_mem {encode : α → Json} (set : σ → Option α → σ)
    {value : Option α} (hnone : set state none = state)
    (hsome : ∀ a ∈ value, step state key (ofJson (encode a)) = .ok (set state (some a)))
    (rest : List (String × Json)) :
    foldMembers step state (ofMembers (optionalMember key encode value ++ rest)) =
      foldMembers step (set state value) (ofMembers rest) := by
  cases value with
  | none => rw [hnone]; rfl
  | some a => exact foldMembers_member rest (hsome a rfl)

/-- A field that is written only when there is a value. -/
theorem foldMembers_optionalMember {encode : α → Json} (set : σ → Option α → σ)
    (hnone : set state none = state)
    (hsome : ∀ a, step state key (ofJson (encode a)) = .ok (set state (some a)))
    (value : Option α) (rest : List (String × Json)) :
    foldMembers step state (ofMembers (optionalMember key encode value ++ rest)) =
      foldMembers step (set state value) (ofMembers rest) :=
  foldMembers_optionalMember_of_mem set hnone (fun a _ => hsome a) rest

/-- A flag that is written only when it is true. -/
theorem foldMembers_flagMember (set : σ → Option Bool → σ) (hnone : set state none = state)
    (htrue : step state key (ofJson (.bool true)) = .ok (set state (some true)))
    (flag : Bool) (rest : List (String × Json)) :
    foldMembers step state (ofMembers (flagMember key flag ++ rest)) =
      foldMembers step (set state (givenFlag? flag)) (ofMembers rest) := by
  cases flag with
  | false => exact congrArg (foldMembers step · (ofMembers rest)) hnone.symm
  | true => exact foldMembers_member rest htrue

/-- Members that a record does not know are kept in order. -/
theorem foldMembers_kept {known : List String} (add : σ → List (String × Json) → σ)
    (hnil : ∀ state, add state [] = state)
    (hcons : ∀ state member rest, add (add state [member]) rest = add state (member :: rest))
    (hstep : ∀ state key value, key ∉ known →
      step state key value = value.read.map fun value => add state [(key, value)])
    (state : σ) {members : List (String × Json)} (h : ∀ member ∈ members, member.1 ∉ known) :
    foldMembers step state (ofMembers members) = .ok (add state members) := by
  induction members generalizing state with
  | nil => rw [hnil]; rfl
  | cons member rest ih =>
    obtain ⟨key, value⟩ := member
    obtain ⟨hmember, hrest⟩ := List.forall_mem_cons.mp h
    have hfirst : step state key (ofJson value) = .ok (add state [(key, value)]) := by
      rw [hstep state key _ hmember, read_ofJson]
      rfl
    rw [foldMembers_member rest hfirst, ih _ hrest, hcons]

end Members

end Document

end CanonicalIdl.Json
