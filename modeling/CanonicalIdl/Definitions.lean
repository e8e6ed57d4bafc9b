import CanonicalIdl.Interface.Parts
import CanonicalIdl.TypeTree

/-!
# Collections of type definitions

Definitions are kept in the order in which their names were first put in.  Putting in a
name again changes the definition at its place; a name that was taken out and is put in
again stands at the end.

Main results:

- Theorem `get?_insert`: what each operation does to look-up.
- Theorem `names_insert`: what inserting does to the order of names.
- Theorem `nodup_names_insert`, `nodup_names_erase`: no name is ever stored twice.
-/

namespace CanonicalIdl

/-- A type definition in canonical form. -/
abbrev Definition := TypeDefinition TypeTree

/-- Definitions in the order of their names' first insertion. -/
structure Definitions where
  toList : List Definition
  deriving Inhabited

namespace Definitions

/-- No definitions. -/
def empty : Definitions := ⟨[]⟩

/-- The stored names in order. -/
def names (definitions : Definitions) : List String :=
  definitions.toList.map (·.name)

/-- The definition of a name. -/
def get? (definitions : Definitions) (name : String) : Option Definition :=
  definitions.toList.find? (·.name == name)

/-- Exchange the definition of the same name, or put the definition at the end. -/
def put (definition : Definition) : List Definition → List Definition
  | [] => [definition]
  | d :: rest => if d.name = definition.name then definition :: rest else d :: put definition rest

/-- Put in a definition, in exchange for one of the same name. -/
def insert (definitions : Definitions) (definition : Definition) : Definitions :=
  ⟨put definition definitions.toList⟩

/-- Put in definitions one after another. -/
def ofList (definitions : List Definition) : Definitions :=
  definitions.foldl insert empty

/-- Take out the definition of a name. -/
def erase (definitions : Definitions) (name : String) : Definitions :=
  ⟨definitions.toList.eraseP (·.name == name)⟩

/-- The number of definitions. -/
def size (definitions : Definitions) : Nat :=
  definitions.toList.length

/-- Whether there are no definitions. -/
def isEmpty (definitions : Definitions) : Bool :=
  definitions.toList.isEmpty

/-- Whether a name is stored. -/
def contains (definitions : Definitions) (name : String) : Bool :=
  definitions.toList.any (·.name == name)

/-! ## Names and look-up -/

theorem map_name_put (definition : Definition) (items : List Definition) :
    (put definition items).map (·.name) =
      if definition.name ∈ items.map (·.name) then items.map (·.name)
      else items.map (·.name) ++ [definition.name] := by
  induction items with
  | nil => simp [put]
  | cons d rest ih =>
    unfold put
    by_cases hd : d.name = definition.name
    · simp [hd]
    · have hne : ¬ definition.name = d.name := fun h => hd h.symm
      simp only [hd, if_false, List.map_cons, ih, List.mem_cons, hne, false_or]
      split <;> simp

/-- Inserting keeps the order of the names and puts a new one at the end. -/
theorem names_insert (definitions : Definitions) (definition : Definition) :
    (definitions.insert definition).names =
      if definition.name ∈ definitions.names then definitions.names
      else definitions.names ++ [definition.name] :=
  map_name_put definition definitions.toList

/-- Inserting stores no name twice. -/
theorem nodup_names_insert {definitions : Definitions} (definition : Definition)
    (h : definitions.names.Nodup) : (definitions.insert definition).names.Nodup := by
  rw [names_insert]
  split
  · exact h
  · next hmem =>
    refine List.nodup_append.mpr ⟨h, by simp, ?_⟩
    intro a ha b hb
    have hb : b = definition.name := by simpa using hb
    subst hb
    rintro rfl
    exact hmem ha

/-- Taking out stores no name twice. -/
theorem nodup_names_erase {definitions : Definitions} (name : String)
    (h : definitions.names.Nodup) : (definitions.erase name).names.Nodup :=
  h.sublist (List.Sublist.map _ List.eraseP_sublist)

theorem find?_put (definition : Definition) (items : List Definition) (name : String) :
    (put definition items).find? (·.name == name) =
      if definition.name = name then some definition else items.find? (·.name == name) := by
  induction items with
  | nil => by_cases h : definition.name = name <;> simp [put, h]
  | cons d rest ih =>
    unfold put
    by_cases hd : d.name = definition.name
    · by_cases h : definition.name = name
      · simp [hd, h]
      · simp [hd, h]
    · simp only [hd, if_false, List.find?_cons, ih]
      by_cases h : definition.name = name
      · have hdn : (d.name == name) = false := by
          rw [beq_eq_false_iff_ne, ← h]
          exact hd
        simp [h, hdn]
      · simp [h]

/-- After an insertion the new definition is found under its name, and under every other
name what was found before. -/
theorem get?_insert (definitions : Definitions) (definition : Definition) (name : String) :
    (definitions.insert definition).get? name =
      if definition.name = name then some definition else definitions.get? name :=
  find?_put definition definitions.toList name

end Definitions

end CanonicalIdl
