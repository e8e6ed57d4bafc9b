import CanonicalIdl.Definitions
import Mathlib.Data.List.Induction
import Mathlib.Data.List.Nodup

/-!
# The last definition of each name

A collection that definitions are put into one after another holds the last one of each
name, in the order in which the names first came.  This is said of lists alone, without the
exchanges that a collection makes on the way.

Main results:

- Theorem `toList_eq_filterMap`: a collection is known by its names and by look-up.
- Theorem `toList_ofList`: what a collection holds that definitions were put into.
- Theorem `toList_erase`: what is left when a name is taken out.
- Theorem `lastOfEach_map`: a change that keeps the names goes with taking the last definitions.
-/

namespace CanonicalIdl

/-- Where no key stands twice, an item is found by its own. -/
theorem find?_key_of_mem {α : Type} {items : List α} {key : α → String}
    (hnodup : (items.map key).Nodup) {item : α} (h : item ∈ items) :
    items.find? (key · == key item) = some item := by
  cases hfind : items.find? (key · == key item) with
  | none =>
    have hnone := List.find?_eq_none.mp hfind item h
    simp at hnone
  | some found =>
    have hfound : found ∈ items := List.mem_of_find?_eq_some hfind
    have hkey : key found = key item := by simpa using List.find?_some hfind
    rw [List.inj_on_of_nodup_map hnodup hfound h hkey]

namespace Definitions

/-- The last definition of a name. -/
def last? {τ : Type} (definitions : List (TypeDefinition τ)) (name : String) :
    Option (TypeDefinition τ) :=
  definitions.reverse.find? (·.name == name)

/-- The last definition of each name, in the order in which the names first come. -/
def lastOfEach {τ : Type} (definitions : List (TypeDefinition τ)) : List (TypeDefinition τ) :=
  (definitions.map (·.name)).eraseDups.filterMap (last? definitions)

/-- Definitions may be changed before or after the last ones are taken, if they keep their
names. -/
theorem lastOfEach_map {σ τ : Type} {f : TypeDefinition σ → TypeDefinition τ}
    (hname : ∀ d, (f d).name = d.name) (definitions : List (TypeDefinition σ)) :
    lastOfEach (definitions.map f) = (lastOfEach definitions).map f := by
  have hlast : ∀ name, last? (definitions.map f) name = (last? definitions name).map f := by
    intro name
    rw [last?, last?, ← List.map_reverse, List.find?_map]
    simp only [Function.comp_def, hname]
  have hnames : (definitions.map f).map (·.name) = definitions.map (·.name) := by
    rw [List.map_map]
    exact List.map_congr_left fun d _ => hname d
  rw [lastOfEach, lastOfEach, hnames, List.map_filterMap]
  exact List.filterMap_congr fun name _ => hlast name

/-- A definition put behind others is the last of its name. -/
theorem last?_append_singleton (definitions : List Definition) (definition : Definition)
    (name : String) :
    last? (definitions ++ [definition]) name =
      if definition.name = name then some definition else last? definitions name := by
  rw [last?, List.reverse_append, List.reverse_singleton, List.singleton_append, List.find?_cons]
  by_cases h : definition.name = name
  · simp [h]
  · have hb : (definition.name == name) = false := by simpa using h
    simp [h, hb, last?]

theorem mem_of_mem_lastOfEach {τ : Type} {definitions : List (TypeDefinition τ)}
    {definition : TypeDefinition τ} (h : definition ∈ lastOfEach definitions) :
    definition ∈ definitions := by
  obtain ⟨name, -, hlast⟩ := List.mem_filterMap.mp h
  exact List.mem_reverse.mp (List.mem_of_find?_eq_some hlast)

/-! ## Collections by names and look-up -/

theorem name_of_get? {definitions : Definitions} {definition : Definition} {name : String}
    (h : definitions.get? name = some definition) : definition.name = name := by
  simpa using List.find?_some h

/-- Under its name a definition is found that is stored, as no name is stored twice. -/
theorem get?_of_mem {definitions : Definitions} {definition : Definition}
    (hnodup : definitions.names.Nodup) (h : definition ∈ definitions.toList) :
    definitions.get? definition.name = some definition :=
  find?_key_of_mem hnodup h

/-- A collection is known by its names and by what is found under them. -/
theorem toList_eq_filterMap {definitions : Definitions} (h : definitions.names.Nodup) :
    definitions.toList = definitions.names.filterMap definitions.get? := by
  rw [names, List.filterMap_map]
  have hself : ∀ definition ∈ definitions.toList,
      (definitions.get? ∘ (·.name)) definition = some definition :=
    fun definition hdefinition => get?_of_mem h hdefinition
  rw [List.filterMap_congr hself, List.filterMap_some]

/-! ## Putting in -/

theorem removeAll_singleton (name : String) (names : List String) :
    [name].removeAll names = if name ∈ names then [] else [name] := by
  by_cases h : name ∈ names <;> simp [List.removeAll, h]

/-- Names that are put in one after another stand in the order in which they first come, and
under each the last definition of the name is found. -/
theorem names_get?_ofList (definitions : List Definition) :
    (ofList definitions).names = (definitions.map (·.name)).eraseDups ∧
      (ofList definitions).names.Nodup ∧
      ∀ name, (ofList definitions).get? name = last? definitions name := by
  induction definitions using List.reverseRecOn with
  | nil => exact ⟨rfl, List.nodup_nil, fun _ => rfl⟩
  | append_singleton front definition ih =>
    obtain ⟨hnames, hnodup, hget⟩ := ih
    have hinsert : ofList (front ++ [definition]) = (ofList front).insert definition := by
      rw [ofList, List.foldl_append, ofList, List.foldl_cons, List.foldl_nil]
    have hmem : definition.name ∈ (ofList front).names ↔
        definition.name ∈ front.map (·.name) := by rw [hnames, List.mem_eraseDups]
    refine ⟨?_, ?_, ?_⟩
    · rw [hinsert, names_insert, List.map_append, List.map_singleton, List.eraseDups_append,
        ← hnames, removeAll_singleton, ite_congr (propext hmem) (fun _ => rfl) (fun _ => rfl)]
      split <;> simp [List.eraseDups_cons]
    · rw [hinsert]
      exact nodup_names_insert definition hnodup
    · intro name
      rw [hinsert, get?_insert, last?_append_singleton, hget]

/-- A collection that definitions were put into holds the last one of each name, in the order
in which the names first came. -/
theorem toList_ofList (definitions : List Definition) :
    (ofList definitions).toList = lastOfEach definitions := by
  obtain ⟨hnames, hnodup, hget⟩ := names_get?_ofList definitions
  rw [toList_eq_filterMap hnodup, hnames, lastOfEach]
  exact List.filterMap_congr fun name _ => hget name

/-- The names of the last definitions are all names, each where it first comes. -/
theorem names_lastOfEach (definitions : List Definition) :
    (lastOfEach definitions).map (·.name) = (definitions.map (·.name)).eraseDups := by
  rw [← toList_ofList]
  exact (names_get?_ofList definitions).1

theorem nodup_names_ofList (definitions : List Definition) : (ofList definitions).names.Nodup :=
  (names_get?_ofList definitions).2.1

/-! ## Taking out -/

/-- Where no name is stored twice, taking out a name leaves the definitions of all others. -/
theorem toList_erase {definitions : Definitions} (h : definitions.names.Nodup) (name : String) :
    (definitions.erase name).toList = definitions.toList.filter (·.name ≠ name) := by
  obtain ⟨items⟩ := definitions
  simp only [names, erase] at h ⊢
  induction items with
  | nil => rfl
  | cons first rest ih =>
    obtain ⟨hfirst, hrest⟩ := List.nodup_cons.mp h
    by_cases hname : first.name = name
    · have hkept : ∀ definition ∈ rest, decide (definition.name ≠ name) = true := by
        intro definition hdefinition
        have hne : definition.name ≠ name := by
          rintro heq
          exact hfirst (List.mem_map.mpr ⟨definition, hdefinition, heq.trans hname.symm⟩)
        simpa using hne
      rw [List.eraseP_cons_of_pos (by simpa using hname),
        List.filter_cons_of_neg (by simpa using hname), List.filter_eq_self.mpr hkept]
    · rw [List.eraseP_cons_of_neg (by simpa using hname),
        List.filter_cons_of_pos (by simpa using hname), ih hrest]

/-- Taking out a name leaves all other names in their order. -/
theorem names_erase {definitions : Definitions} (h : definitions.names.Nodup) (name : String) :
    (definitions.erase name).names = definitions.names.filter (· ≠ name) := by
  rw [names, toList_erase h, names, List.filter_map]
  rfl

end Definitions

end CanonicalIdl
