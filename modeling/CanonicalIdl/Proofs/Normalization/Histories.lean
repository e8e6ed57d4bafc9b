import CanonicalIdl.Proofs.Normalization.Lifting
import Mathlib.Data.Set.Card

/-!
# Histories of collections

Definitions are put into a collection and names are taken out of it, in any order.  What the
collection then holds is told by the history of these changes alone.  A name is stored if it was
put in after it was last taken out, with the definition that was put in last.  The stored names
stand in the order in which each was first put in after it was last taken out: a change of a
definition keeps its place, and a name that was taken out and is put in again goes to the end.

Main results:

- Theorem `existsUnique_entersAt`: a stored name has a place in the history.
- Theorems `Follows.insert`, `Follows.erase`: one more change, and what it does to the collection.
- Theorem `follows_after`: a collection follows its whole history.
- Theorem `after_isOrderedMap`: stored names, look-up, order, sizes and answers of a history.
- Theorem `Anchor.types_convert_eq_after`: the history of the types of an interface.
-/

namespace CanonicalIdl

namespace Definitions

/-! ## Changes and what they leave -/

/-- A change of a collection. -/
inductive Change where
  | insert (definition : Definition)
  | erase (name : String)

/-- The name that a change is about. -/
def Change.name : Change → String
  | .insert definition => definition.name
  | .erase name => name

/-- The collection that a change leaves. -/
def change (definitions : Definitions) : Change → Definitions
  | .insert definition => definitions.insert definition
  | .erase name => definitions.erase name

/-- What a change answers: taking out a name answers the definition that is taken out. -/
def answer? (definitions : Definitions) : Change → Option Definition
  | .insert _ => none
  | .erase name => definitions.get? name

/-- The answers to changes that are made one after another, and the collection that they
leave. -/
def replay (definitions : Definitions) : List Change → List (Option Definition) × Definitions
  | [] => ([], definitions)
  | first :: rest =>
    let (answers, final) := (definitions.change first).replay rest
    (definitions.answer? first :: answers, final)

/-- The answers to the changes of a history that starts with nothing stored. -/
def answers (history : List Change) : List (Option Definition) := (empty.replay history).1

/-- The collection that a history leaves. -/
def after (history : List Change) : Definitions := (empty.replay history).2

theorem replay_append (definitions : Definitions) (front back : List Change) :
    definitions.replay (front ++ back) =
      ((definitions.replay front).1 ++ ((definitions.replay front).2.replay back).1,
        ((definitions.replay front).2.replay back).2) := by
  induction front generalizing definitions with
  | nil => rfl
  | cons first rest ih => simp [replay, ih]

theorem length_replay (definitions : Definitions) (changes : List Change) :
    (definitions.replay changes).1.length = changes.length := by
  induction changes generalizing definitions with
  | nil => rfl
  | cons first rest ih => simp [replay, ih]

@[simp] theorem after_nil : after [] = empty := rfl

/-- One more change is made to what the changes before it have left. -/
theorem after_concat (history : List Change) (last : Change) :
    after (history ++ [last]) = (after history).change last := by
  rw [after, replay_append]
  rfl

/-- A change is answered by what the changes before it have left. -/
theorem answers_getElem? (front back : List Change) (middle : Change) :
    (answers (front ++ middle :: back))[front.length]? = some ((after front).answer? middle) := by
  have hlength : (empty.replay front).1.length = front.length := length_replay empty front
  rw [answers, replay_append, List.getElem?_append_right (Nat.le_of_eq hlength), hlength,
    Nat.sub_self]
  rfl

/-- Definitions that are put in one after another are a history without erasures. -/
theorem ofList_eq_after (definitions : List Definition) :
    ofList definitions = after (definitions.map .insert) := by
  induction definitions using List.reverseRecOn with
  | nil => rfl
  | append_singleton front definition ih =>
    rw [List.map_append, List.map_singleton, after_concat, ← ih, ofList, List.foldl_append]
    rfl

/-! ## What a history tells -/

/-- The name was put in after it was last taken out. -/
def IsPresent (history : List Change) (name : String) : Prop :=
  ∃ definition front back, history = front ++ .insert definition :: back ∧
    definition.name = name ∧ Change.erase name ∉ back

/-- The definition was put in, and no change of its name was made since. -/
def IsLast (history : List Change) (definition : Definition) : Prop :=
  ∃ front back, history = front ++ .insert definition :: back ∧
    ∀ later ∈ back, later.name ≠ definition.name

/-- The change at the place is the first that puts the name in after it was last taken out. -/
def EntersAt (history : List Change) (name : String) (place : Nat) : Prop :=
  ∃ definition front back, history = front ++ .insert definition :: back ∧
    definition.name = name ∧ Change.erase name ∉ back ∧
    ¬ IsPresent front name ∧ place = front.length

/-- A list with one more item is split at that item or at an earlier one. -/
theorem exists_split_concat {α : Type} {items : List α} {last middle : α}
    {P : List α → List α → Prop} :
    (∃ front back, items ++ [last] = front ++ middle :: back ∧ P front back) ↔
      (last = middle ∧ P items []) ∨
        ∃ front back, items = front ++ middle :: back ∧ P front (back ++ [last]) := by
  constructor
  · rintro ⟨front, back, hsplit, h⟩
    rcases List.eq_nil_or_concat' back with rfl | ⟨rest, other, rfl⟩
    · obtain ⟨rfl, hlast⟩ := List.append_inj' hsplit rfl
      exact .inl ⟨List.head_eq_of_cons_eq hlast, h⟩
    · rw [← List.cons_append, ← List.append_assoc] at hsplit
      obtain ⟨rfl, hlast⟩ := List.append_inj' hsplit rfl
      obtain rfl := List.head_eq_of_cons_eq hlast
      exact .inr ⟨front, rest, rfl, h⟩
  · rintro (⟨rfl, h⟩ | ⟨front, back, rfl, h⟩)
    · exact ⟨items, [], rfl, h⟩
    · exact ⟨front, back ++ [last], by simp, h⟩

/-! ### One more change -/

section OneMore

variable {history : List Change} {name erased : String} {definition : Definition}

theorem not_isPresent_nil : ¬ IsPresent [] name := by
  rintro ⟨other, front, back, hsplit, -⟩
  simp at hsplit

theorem not_isLast_nil : ¬ IsLast [] definition := by
  rintro ⟨front, back, hsplit, -⟩
  simp at hsplit

theorem isPresent_insert : IsPresent (history ++ [.insert definition]) name ↔
    definition.name = name ∨ IsPresent history name := by
  simp [IsPresent, exists_split_concat, exists_or]

theorem isPresent_erase : IsPresent (history ++ [.erase erased]) name ↔
    name ≠ erased ∧ IsPresent history name := by
  simp only [IsPresent, exists_split_concat, reduceCtorEq, false_and, false_or, List.mem_append,
    List.mem_singleton, Change.erase.injEq, not_or]
  constructor
  · rintro ⟨other, front, back, hsplit, hname, hkept, hne⟩
    exact ⟨hne, other, front, back, hsplit, hname, hkept⟩
  · rintro ⟨hne, other, front, back, hsplit, hname, hkept⟩
    exact ⟨other, front, back, hsplit, hname, hkept, hne⟩

theorem isLast_insert {other : Definition} : IsLast (history ++ [.insert definition]) other ↔
    other = definition ∨ other.name ≠ definition.name ∧ IsLast history other := by
  simp only [IsLast, exists_split_concat, List.forall_mem_append, List.forall_mem_singleton]
  constructor
  · rintro (⟨hinsert, -⟩ | ⟨front, back, hsplit, hlater, hne⟩)
    · exact .inl (Change.insert.inj hinsert).symm
    · exact .inr ⟨hne.symm, front, back, hsplit, hlater⟩
  · rintro (rfl | ⟨hne, front, back, hsplit, hlater⟩)
    · exact .inl ⟨rfl, by simp⟩
    · exact .inr ⟨front, back, hsplit, hlater, hne.symm⟩

theorem isLast_erase : IsLast (history ++ [.erase erased]) definition ↔
    definition.name ≠ erased ∧ IsLast history definition := by
  simp only [IsLast, exists_split_concat, reduceCtorEq, false_and, false_or,
    List.forall_mem_append, List.forall_mem_singleton]
  constructor
  · rintro ⟨front, back, hsplit, hlater, hne⟩
    exact ⟨hne.symm, front, back, hsplit, hlater⟩
  · rintro ⟨hne, front, back, hsplit, hlater⟩
    exact ⟨front, back, hsplit, hlater, hne.symm⟩

/-- A name enters with an insertion only if it was not present before. -/
theorem entersAt_insert {place : Nat} : EntersAt (history ++ [.insert definition]) name place ↔
    (definition.name = name ∧ ¬ IsPresent history name ∧ place = history.length) ∨
      EntersAt history name place := by
  simp [EntersAt, exists_split_concat, exists_or]

theorem entersAt_erase {place : Nat} :
    EntersAt (history ++ [.erase erased]) name place ↔
      name ≠ erased ∧ EntersAt history name place := by
  simp only [EntersAt, exists_split_concat, reduceCtorEq, false_and, false_or, List.mem_append,
    List.mem_singleton, Change.erase.injEq, not_or]
  constructor
  · rintro ⟨other, front, back, hsplit, hname, ⟨hkept, hne⟩, henters⟩
    exact ⟨hne, other, front, back, hsplit, hname, hkept, henters⟩
  · rintro ⟨hne, other, front, back, hsplit, hname, hkept, henters⟩
    exact ⟨other, front, back, hsplit, hname, ⟨hkept, hne⟩, henters⟩

/-- A name that enters somewhere is present. -/
theorem EntersAt.isPresent {place : Nat} (h : EntersAt history name place) :
    IsPresent history name := by
  obtain ⟨other, front, back, hsplit, hname, hkept, -⟩ := h
  exact ⟨other, front, back, hsplit, hname, hkept⟩

theorem EntersAt.lt_length {place : Nat} (h : EntersAt history name place) :
    place < history.length := by
  obtain ⟨other, front, back, rfl, -, -, -, rfl⟩ := h
  simp

/-- A name that is present has entered at exactly one place.  The induction goes back along the
history: a name that was not present before enters with the last change. -/
theorem existsUnique_entersAt (h : IsPresent history name) :
    ∃! place, EntersAt history name place := by
  induction history using List.reverseRecOn with
  | nil => exact absurd h not_isPresent_nil
  | append_singleton front last ih =>
    cases last with
    | insert definition =>
      by_cases hold : IsPresent front name
      · obtain ⟨place, henters, hunique⟩ := ih hold
        refine ⟨place, entersAt_insert.mpr (.inr henters), ?_⟩
        intro other hother
        rcases entersAt_insert.mp hother with ⟨-, hnew, -⟩ | hother
        · exact absurd hold hnew
        · exact hunique other hother
      · have hname : definition.name = name := (isPresent_insert.mp h).resolve_right hold
        refine ⟨front.length, entersAt_insert.mpr (.inl ⟨hname, hold, rfl⟩), ?_⟩
        intro other hother
        rcases entersAt_insert.mp hother with ⟨-, -, hlast⟩ | hother
        · exact hlast
        · exact absurd hother.isPresent hold
    | erase erased =>
      obtain ⟨hne, hpresent⟩ := isPresent_erase.mp h
      obtain ⟨place, henters, hunique⟩ := ih hpresent
      exact ⟨place, entersAt_erase.mpr ⟨hne, henters⟩,
        fun other hother => hunique other (entersAt_erase.mp hother).2⟩

end OneMore

/-! ## Collections that follow a history -/

/-- A collection holds what a history tells: each present name once, with the definition that was
put in last, in the order in which the names entered. -/
structure Follows (history : List Change) (definitions : Definitions) : Prop where
  nodup : definitions.names.Nodup
  present : ∀ name, name ∈ definitions.names ↔ IsPresent history name
  last : ∀ name definition, definitions.get? name = some definition ↔
    definition.name = name ∧ IsLast history definition
  ordered : definitions.names.Pairwise fun name later =>
    ∀ i j, EntersAt history name i → EntersAt history later j → i < j

theorem get?_erase {definitions : Definitions} (h : definitions.names.Nodup)
    (name other : String) :
    (definitions.erase name).get? other =
      if other = name then none else definitions.get? other := by
  rw [get?, toList_erase h, List.find?_filter]
  split
  · next heq =>
    apply List.find?_eq_none.mpr
    intro definition _
    simp [heq]
  · next hne =>
    rw [get?]
    congr 1
    funext definition
    by_cases hname : definition.name = other
    · simp [hname, hne]
    · simp [hname]

theorem follows_empty : Follows [] empty where
  nodup := List.nodup_nil
  present _ := iff_of_false List.not_mem_nil not_isPresent_nil
  last _ _ := iff_of_false (by rintro ⟨⟩) fun h => not_isLast_nil h.2
  ordered := List.Pairwise.nil

namespace Follows

variable {history : List Change} {definitions : Definitions}

/-- After one more insertion the collection follows the longer history.  A name that was there
keeps its place, and a new one enters behind all others. -/
theorem insert (h : Follows history definitions) (definition : Definition) :
    Follows (history ++ [.insert definition]) (definitions.insert definition) where
  nodup := nodup_names_insert definition h.nodup
  present name := by
    rw [names_insert, isPresent_insert, ← h.present]
    split
    · next hmem =>
      refine ⟨.inr, ?_⟩
      rintro (rfl | hname)
      · exact hmem
      · exact hname
    · rw [List.mem_append, List.mem_singleton, eq_comm, or_comm]
  last name other := by
    rw [get?_insert, isLast_insert]
    split
    · next hname =>
      rw [Option.some_inj, eq_comm]
      refine ⟨fun heq => ⟨heq ▸ hname, .inl heq⟩, ?_⟩
      rintro ⟨hother, heq | ⟨hne, -⟩⟩
      · exact heq
      · exact absurd (hother.trans hname.symm) hne
    · next hname =>
      rw [h.last]
      constructor
      · rintro ⟨hother, hlast⟩
        exact ⟨hother, .inr ⟨fun heq => hname (heq.symm.trans hother), hlast⟩⟩
      · rintro ⟨hother, rfl | ⟨-, hlast⟩⟩
        · exact absurd hother hname
        · exact ⟨hother, hlast⟩
  ordered := by
    -- A name that is stored already does not enter by being put in once more.
    have hold : ∀ name ∈ definitions.names, ∀ place,
        EntersAt (history ++ [.insert definition]) name place → EntersAt history name place := by
      intro name hmem place henters
      rcases entersAt_insert.mp henters with ⟨-, hnew, -⟩ | henters
      · exact absurd ((h.present name).mp hmem) hnew
      · exact henters
    have hkept := List.Pairwise.imp_of_mem
      (fun {name later} hname hlater hlt i j hi hj =>
        hlt i j (hold name hname i hi) (hold later hlater j hj)) h.ordered
    rw [names_insert]
    split
    · exact hkept
    · next hnot =>
      refine List.pairwise_append.mpr ⟨hkept, List.pairwise_singleton _ _, ?_⟩
      intro name hname later hlater i j hi hj
      obtain rfl := List.mem_singleton.mp hlater
      rcases entersAt_insert.mp hj with ⟨-, -, rfl⟩ | henters
      · exact (hold name hname i hi).lt_length
      · exact absurd ((h.present _).mpr henters.isPresent) hnot

/-- So it does after one more erasure. -/
theorem erase (h : Follows history definitions) (name : String) :
    Follows (history ++ [.erase name]) (definitions.erase name) where
  nodup := nodup_names_erase name h.nodup
  present other := by
    rw [names_erase h.nodup, isPresent_erase, ← h.present, List.mem_filter, and_comm]
    simp
  last other definition := by
    rw [get?_erase h.nodup, isLast_erase]
    split
    · next heq =>
      refine iff_of_false (by rintro ⟨⟩) ?_
      rintro ⟨rfl, hne, -⟩
      exact hne heq
    · next hne =>
      rw [h.last]
      constructor
      · rintro ⟨hother, hlast⟩
        exact ⟨hother, hother ▸ hne, hlast⟩
      · rintro ⟨hother, -, hlast⟩
        exact ⟨hother, hlast⟩
  ordered := by
    rw [names_erase h.nodup]
    refine List.Pairwise.imp ?_ (h.ordered.filter _)
    intro other later hlt i j hi hj
    exact hlt i j (entersAt_erase.mp hi).2 (entersAt_erase.mp hj).2

theorem change (h : Follows history definitions) (last : Change) :
    Follows (history ++ [last]) (definitions.change last) := by
  cases last with
  | insert definition => exact h.insert definition
  | erase name => exact h.erase name

/-- There are as many definitions as names are present. -/
theorem size_eq (h : Follows history definitions) :
    definitions.size = {name | IsPresent history name}.ncard := by
  have hset : {name | IsPresent history name} = (definitions.names.toFinset : Set String) := by
    ext name
    rw [Set.mem_ofPred_eq, ← h.present, Finset.mem_coe, List.mem_toFinset]
  rw [hset, Set.ncard_coe_finset, List.toFinset_card_of_nodup h.nodup, names, List.length_map]
  rfl

theorem isEmpty_iff (h : Follows history definitions) :
    definitions.isEmpty = true ↔ {name | IsPresent history name} = ∅ := by
  rw [isEmpty, List.isEmpty_iff, ← List.map_eq_nil_iff (f := (·.name)), ← names,
    List.eq_nil_iff_forall_not_mem, Set.eq_empty_iff_forall_notMem]
  exact forall_congr' fun name => not_congr (h.present name)

end Follows

/-- A collection follows its whole history. -/
theorem follows_after (history : List Change) : Follows history (after history) := by
  induction history using List.reverseRecOn with
  | nil => exact follows_empty
  | append_singleton front last ih =>
    rw [after_concat]
    exact ih.change last

/-- A name that was taken out and is put in again stands behind the others. -/
example : (after [.insert (.simple "Vault" .emptyStruct), .insert (.simple "Pool" .emptyStruct),
    .erase "Vault", .insert (.simple "Vault" .emptyStruct)]).names = ["Pool", "Vault"] := by
  decide

/-! ## Registered definitions -/

theorem registered_foldl_register (run : Run) (definitions : List Definition) :
    (definitions.foldl Run.register run).registered = run.registered ++ definitions := by
  induction definitions generalizing run with
  | nil => simp
  | cons first rest ih => rw [List.foldl_cons, ih, Run.register, List.append_assoc]; rfl

/-- Registering definitions is a history without erasures. -/
theorem generated_eq_after (definitions : List Definition) :
    (definitions.foldl Run.register .start).generated = after (definitions.map .insert) := by
  rw [Run.generated, registered_foldl_register, ofList_eq_after]
  rfl

/-- A collection is the ordered map that its history tells, whatever was put in and taken out.
Taking out a name answers with the definition that is present then, if there is one, and leaves
all others as they are, in their order.  Registering definitions makes the collection of a
history without erasures. -/
theorem after_isOrderedMap :
    (∀ history, Follows history (after history) ∧
      (∀ name, IsPresent history name ↔ ∃! place, EntersAt history name place) ∧
      (after history).size = {name | IsPresent history name}.ncard ∧
      ((after history).isEmpty = true ↔ {name | IsPresent history name} = ∅)) ∧
    (∀ front name back, ∃ answer,
      (answers (front ++ .erase name :: back))[front.length]? = some answer ∧
        (∀ definition, answer = some definition ↔
          definition.name = name ∧ IsLast front definition) ∧
        (after (front ++ [.erase name])).toList =
          (after front).toList.filter (·.name ≠ name)) ∧
    ∀ registered : List Definition,
      (registered.foldl Run.register .start).generated = after (registered.map .insert) := by
  refine ⟨fun history => ?_, fun front name back => ?_, generated_eq_after⟩
  · have h := follows_after history
    refine ⟨h, fun name => ⟨existsUnique_entersAt, fun henters => ?_⟩, h.size_eq, h.isEmpty_iff⟩
    obtain ⟨place, hplace, -⟩ := henters
    exact hplace.isPresent
  · have h := follows_after front
    refine ⟨(after front).get? name, answers_getElem? front back (.erase name), h.last name, ?_⟩
    rw [after_concat]
    exact toList_erase h.nodup name

end Definitions

/-! ## The types of an interface -/

namespace Anchor

open Definitions

/-- The types that accounts leave are left when the names of the accounts are taken out. -/
theorem types_accounts_eq_replay (read : List Char → TypeTree) (types : Definitions)
    (declared : List Declared.Account) :
    ((accounts types declared).value read).2 =
      (types.replay (declared.map fun account => .erase account.name)).2 := by
  induction declared generalizing types with
  | nil => rfl
  | cons first rest ih =>
    have hleft : ((account types first).value read).2 = types.erase first.name :=
      congrArg Definitions.mk (types_account read first)
    simp [accounts, hleft, ih, replay, Definitions.change]

/-- The types that an interface is left with: its declared types are put in, and then the names
of its accounts are taken out. -/
theorem types_convert_eq_after (read : List Char → TypeTree) (declared : Declared.Interface) :
    ((convert declared).value read).types =
      after ((declared.types.map fun definition =>
          .insert ((Conversion.definition camelName definition).value read)) ++
        declared.accounts.map fun account => .erase account.name) := by
  rw [value_convert, types_accounts_eq_replay, ofList_eq_after, after, after, replay_append,
    List.map_map]
  rfl

end Anchor

end CanonicalIdl
