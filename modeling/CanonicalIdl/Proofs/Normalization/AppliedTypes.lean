import CanonicalIdl.Proofs.Normalization.Spelling
import CanonicalIdl.Proofs.Resolution.FixedPoint

/-!
# Applied types, written as text or written out

A type that is applied to arguments may be written as one text or as a name with a list of
types.  In the text the name is read together with its arguments, while a name that is
written out is read alone and then given the arguments.  The rules for `Vec`, `Option` and
the maps look at both, so they never fire on the second way, and the brackets and commas in
the name of an argument matter in the first way only.

Main results:

- Theorem `tree_applied`: what an applied type that is written out is converted to.
- Theorem `Legible.of_levels_le`: levels below a tree do not count for its legibility.
- Theorem `tree_applied_eq_ofText_iff`: when both ways mean the same.
-/

namespace CanonicalIdl

open Declared (TypeExpr GenericArgument)
open Text

/-! ## Names of types -/

/-- A name that a program may give to a type: letters, numbers and underscores, and no word of
the language. -/
structure IsTypeName (name : String) : Prop where
  nonempty : name.toList ≠ []
  characters : ∀ c ∈ name.toList, isAlphanumeric c = true ∨ c = '_'
  not_word : ¬ Primitive.IsWord name.toList
  not_hash : name ≠ "Node"

instance (name : String) : Decidable (IsTypeName name) :=
  decidable_of_iff (name.toList ≠ [] ∧
      name.toList.all (fun c => isAlphanumeric c || c == '_') = true ∧
      ¬ Primitive.IsWord name.toList ∧ name ≠ "Node")
    ⟨fun ⟨hne, hchars, hword, hhash⟩ => ⟨hne, by simpa using hchars, hword, hhash⟩,
      fun h => ⟨h.nonempty, by simpa using h.characters, h.not_word, h.not_hash⟩⟩

namespace IsTypeName

variable {name : String}

theorem isQualifiedName (h : IsTypeName name) : Builtin.isQualifiedName name.toList = true := by
  rw [Builtin.isQualifiedName, Bool.and_eq_true]
  refine ⟨by simpa using h.nonempty, List.all_eq_true.mpr fun c hc => ?_⟩
  rcases h.characters c hc with halpha | rfl
  · simp [Builtin.isPathChar, halpha]
  · rfl

theorem isName (h : IsTypeName name) : IsName name.toList :=
  isName_of_isQualifiedName h.isQualifiedName

/-- A name without colons is its own last segment. -/
theorem lastSegment_eq (h : IsTypeName name) :
    Builtin.lastSegment name.toList = name.toList := by
  have hcolon : ':' ∉ name.toList := by
    intro hmem
    rcases h.characters ':' hmem with halpha | heq
    · exact absurd halpha (by decide +kernel)
    · exact absurd heq (by decide)
  refine Builtin.lastSegment_of_isLastSegment (.inl ⟨rfl, fun hinfix => hcolon ?_⟩)
  exact hinfix.subset (by decide)

/-- The built-in rules for applied types that such a name falls under. -/
theorem covers_iff (h : IsTypeName name) (count : Nat) :
    Builtin.Covers name.toList count ↔
      (count = 1 ∧ (name = "Vec" ∨ name = "Option")) ∨
        (count = 2 ∧ "Map".toList <:+ name.toList) := by
  rw [Builtin.Covers, Builtin.isMapName, h.isQualifiedName, h.lastSegment_eq, Bool.true_and,
    List.isSuffixOf_iff_suffix, String.toList_inj, String.toList_inj]

/-- A name of a type is read as a reference of that name. -/
theorem readWithin_eq (h : IsTypeName name) (levels : Nat) :
    TypeTree.readWithin .standard (levels + 1) name.toList = .bare name := by
  have hhash : name.toList ≠ "Node".toList := fun heq => h.not_hash (String.toList_inj.mp heq)
  rw [TypeTree.readWithin_succ _ _ h.isName.trimmed,
    Shape.ofText_name h.isName h.not_word hhash, Shape.tree, String.ofList_toList]

end IsTypeName

/-! ## Legible trees and their levels -/

namespace TypeTree

/-- A tree that is legible at more levels than it has is legible at those that it has. -/
theorem Legible.of_levels_le {levels : Nat} {tree : TypeTree} (h : tree.Legible (levels + 1))
    (hlevels : tree.levels ≤ levels) : tree.Legible levels := by
  induction levels generalizing tree with
  | zero =>
    have hpos := tree.levels_pos
    omega
  | succ levels ih =>
    refine ⟨h.1, fun child hchild => ih (h.2 child hchild) ?_⟩
    have hlt := levels_lt_of_child hchild
    omega

/-- A name in front of trees that are found again in their texts is found again with them
exactly if no built-in rule is for it and the trees stay apart. -/
theorem ofText_applied_eq_iff {name : String} {trees : List TypeTree} (hname : IsName name.toList)
    (hne : trees ≠ []) (hback : ∀ tree ∈ trees, ofText tree.text = tree)
    (hlevels : ∀ tree ∈ trees, tree.levels ≤ 63) :
    ofText (reference name trees).text = reference name trees ↔
      ¬ Builtin.Covers name.toList trees.length ∧ ApartAsArguments (trees.map render) := by
  have hchildren : ∀ tree ∈ trees, tree.SettledWithin 63 ∧ tree.Legible 63 := by
    intro tree htree
    have hread := hback tree htree
    rw [ofText_eq_readWithin, text, String.toList_ofList] at hread
    obtain ⟨hsettled, hlegible⟩ := readWithin_render_eq_iff.mp hread
    exact ⟨hsettled.of_succ, Legible.of_levels_le hlegible (hlevels tree htree)⟩
  have hsettled : (reference name trees).SettledWithin 64 ↔
      ¬ Builtin.Covers name.toList trees.length := by
    rw [SettledWithin, settled_applied hne]
    constructor
    · rintro ⟨⟨-, -, hcovers⟩, -⟩
      exact hcovers
    · intro hcovers
      have hangle : '<' ∉ name.toList := hname.not_mem rfl
      exact ⟨⟨hname.trimmed, hangle, hcovers⟩, fun tree htree => (hchildren tree htree).1⟩
  have hlegible : (reference name trees).Legible 64 ↔ ApartAsArguments (trees.map render) :=
    and_iff_left fun tree htree => (hchildren tree htree).2
  rw [ofText_eq_readWithin, text, String.toList_ofList, ← hsettled, ← hlegible]
  exact readWithin_render_eq_iff

end TypeTree

/-! ## Both ways -/

namespace Conversion

/-- The tree that a declared type is converted to under the built-in rules, in a run. -/
def tree (run : Run) (declared : TypeExpr) : TypeTree :=
  ((type declared).run Chain.standard.resolve run).1

/-- The built-in rules read every text the same in every run. -/
theorem tree_eq_value (run : Run) (declared : TypeExpr) :
    tree run declared = (type declared).value (TypeTree.readWithin .standard Chain.depthLimit) := by
  have hreads : ReadsAs Chain.standard.resolve run.expanding
      (TypeTree.readWithin .standard Chain.depthLimit) := by
    intro text later hlater
    have hforget := Chain.standard.forgetful_resolveWithin Chain.depthLimit text
    exact ⟨Chain.resolve_plain .standard _ text later, (hforget.expanding later).trans hlater⟩
  exact (Script.run_of_readsAs hreads (type declared) rfl).1

/-- A name of a type that is applied to types is a reference of that name to their trees,
whatever the name is. -/
theorem tree_applied (run : Run) {name : String} (hname : IsTypeName name)
    (arguments : List TypeExpr) :
    tree run (.applied name (arguments.map .type)) =
      .reference name (arguments.map (tree run)) := by
  have hbare : TypeTree.readWithin .standard Chain.depthLimit name.toList = .bare name :=
    hname.readWithin_eq 63
  have hvalues := @value_arguments (TypeTree.readWithin .standard Chain.depthLimit)
    (arguments.map fun argument => (argument, tree run argument)) (by simp [tree_eq_value])
  rw [tree_eq_value, value_applied hbare]
  simpa [Function.comp_def] using hvalues

/-- A name that is applied to types which are written out means the same as its text exactly
if it has no rule for so many arguments and the texts of its arguments stay apart. -/
theorem tree_applied_eq_ofText_iff (run : Run) {name : String} {arguments : List TypeExpr}
    (hname : IsTypeName name) (hne : arguments ≠ [])
    (hback : ∀ argument ∈ arguments,
      TypeTree.ofText (tree run argument).text = tree run argument)
    (hlevels : ∀ argument ∈ arguments, (tree run argument).levels ≤ 63) :
    tree run (.applied name (arguments.map .type)) =
        TypeTree.ofText (String.ofList (TypeTree.appliedText name.toList
          (arguments.map fun argument => (tree run argument).render))) ↔
      (arguments.length = 1 → name ≠ "Vec" ∧ name ≠ "Option") ∧
        (arguments.length = 2 → ¬ "Map".toList <:+ name.toList) ∧
        ApartAsArguments (arguments.map fun argument => (tree run argument).render) := by
  have htrees : arguments.map (tree run) ≠ [] := by simpa using hne
  have htext : String.ofList (TypeTree.appliedText name.toList
      (arguments.map fun argument => (tree run argument).render)) =
        (TypeTree.reference name (arguments.map (tree run))).text := by
    rw [TypeTree.text, TypeTree.render_applied htrees, List.map_map]
    rfl
  rw [tree_applied run hname, htext, eq_comm,
    TypeTree.ofText_applied_eq_iff hname.isName htrees (List.forall_mem_map.mpr hback)
      (List.forall_mem_map.mpr hlevels),
    hname.covers_iff, List.length_map, List.map_map]
  simp only [not_or, not_and, and_assoc]
  rfl

/-- A name without a rule of its own, applied to a word and a list. -/
theorem tree_applied_eq_ofText_pair :
    tree .start (.applied "Pair" [.type (.named "U64"), .type (.vec (.named "u8"))]) =
      TypeTree.ofText "Pair<u64, Vec<u8>>" := by
  have hpair := @tree_applied_eq_ofText_iff .start "Pair" [.named "U64", .vec (.named "u8")]
    (by decide +kernel) (by decide) (by decide +kernel) (by decide +kernel)
  exact hpair.mpr ⟨by decide, by decide, rfl, 0, rfl⟩

/-- The name of a list, written out in front of its only argument, stays a name. -/
theorem tree_applied_ne_ofText_vec :
    IsTypeName "Vec" ∧ tree .start (.named "u8") = .primitive .u8 ∧
      TypeTree.ofText (TypeTree.primitive .u8).text = .primitive .u8 ∧
      (TypeTree.primitive .u8).levels ≤ 63 ∧
      tree .start (.applied "Vec" [.type (.named "u8")]) ≠ TypeTree.ofText "Vec<u8>" := by
  decide +kernel

end Conversion

end CanonicalIdl
