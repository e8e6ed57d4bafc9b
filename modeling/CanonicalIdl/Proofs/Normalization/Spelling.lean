import CanonicalIdl.Normalization.Conversion
import CanonicalIdl.Proofs.Resolution.Grammar
import CanonicalIdl.Proofs.Resolution.Memory
import CanonicalIdl.Proofs.Resolution.RoundTrip

/-!
# Spellings of a type

A generator may write a type as one text, or write out its shape and spell the types in it,
each in its own way.  All spellings of a tree are converted to it, however the two ways are
mixed.  A text is followed for 64 levels only, and a shape that is written out for any
number of levels.

Main results:

- Theorem `value_type_of_spells`: a spelling of a tree is converted to it wherever the trees
  that are written as text read back.
- Theorem `Spells.run_type`: under the built-in rules every spelling of an unmistakable tree
  is converted to it.
-/

namespace CanonicalIdl

open Declared (TypeExpr GenericArgument)
open Text

/-- The declared types that spell a tree. -/
inductive Spells : TypeExpr → TypeTree → Prop
  /-- The text of the tree. -/
  | named {tree : TypeTree} (hlevels : tree.levels ≤ 64) : Spells (.named tree.text) tree
  /-- The text of the tree as the name of a `defined` type. -/
  | definedText {tree : TypeTree} (hlevels : tree.levels ≤ 64) :
      Spells (.defined tree.text) tree
  /-- The same with an empty list of arguments. -/
  | appliedText {tree : TypeTree} (hlevels : tree.levels ≤ 64) :
      Spells (.applied tree.text []) tree
  /-- A word for a primitive, in any case. -/
  | word {text : String} {p : Primitive}
      (hword : (asciiLowered text.toList, p) ∈ Primitive.words) :
      Spells (.named text) (.primitive p)
  | option {inner : TypeExpr} {tree : TypeTree} (hinner : Spells inner tree) :
      Spells (.option inner) (.option tree)
  | coption {inner : TypeExpr} {tree : TypeTree} (hinner : Spells inner tree) :
      Spells (.coption inner) (.option tree)
  | vec {inner : TypeExpr} {tree : TypeTree} (hinner : Spells inner tree) :
      Spells (.vec inner) (.vec tree)
  | array {element : TypeExpr} {tree : TypeTree} {length : UInt64}
      (helement : Spells element tree) : Spells (.array element length) (.array tree length)
  | tuple {items : List (TypeExpr × TypeTree)} (hitems : ∀ item ∈ items, Spells item.1 item.2) :
      Spells (.tuple (items.map Prod.fst)) (.tuple (items.map Prod.snd))
  | hashMap {key value : TypeExpr} {k v : TypeTree} (hkey : Spells key k)
      (hvalue : Spells value v) : Spells (.hashMap key value) (.hashMap k v)
  | bTreeMap {key value : TypeExpr} {k v : TypeTree} (hkey : Spells key k)
      (hvalue : Spells value v) : Spells (.bTreeMap key value) (.bTreeMap k v)
  | defined {name : String} : Spells (.defined name) (.bare name)
  | generic {name : String} : Spells (.generic name) (.bare name)
  | applied {name : String} {arguments : List (TypeExpr × TypeTree)} (hne : arguments ≠ [])
      (harguments : ∀ argument ∈ arguments, Spells argument.1 argument.2) :
      Spells (.applied name (arguments.map fun argument => .type argument.1))
        (.reference name (arguments.map Prod.snd))

namespace TypeTree

/-- The name of a reference is taken for nothing else, with its arguments and without them. -/
def IsUnmistakable : TypeTree → Prop
  | .reference name arguments =>
    IsName name.toList ∧ ¬ Primitive.IsWord name.toList ∧ name ≠ "Node" ∧
      (arguments.length = 1 → name ≠ "Vec" ∧ name ≠ "Option") ∧
      (arguments.length = 2 → ¬ "Map".toList <:+ name.toList)
  | _ => True

instance (tree : TypeTree) : Decidable tree.IsUnmistakable :=
  match tree with
  | .reference _ _ => inferInstanceAs (Decidable (_ ∧ _))
  | .primitive _ | .option _ | .vec _ | .array _ _ | .tuple _ | .hashMap _ _ | .bTreeMap _ _ =>
    .isTrue trivial

/-- The names of all references in the tree are taken for nothing else. -/
def Unmistakable (tree : TypeTree) : Prop := ∀ node ∈ tree.walk, node.IsUnmistakable

instance (tree : TypeTree) : Decidable tree.Unmistakable :=
  inferInstanceAs (Decidable (∀ node ∈ tree.walk, node.IsUnmistakable))

namespace Unmistakable

variable {tree : TypeTree}

theorem of_child (h : tree.Unmistakable) {child : TypeTree} (hchild : child ∈ tree.children) :
    child.Unmistakable :=
  fun node hnode => h node (mem_walk_of_child hchild hnode)

/-- The name of an unmistakable reference is one without its arguments too. -/
theorem name {name : String} {arguments : List TypeTree}
    (h : (reference name arguments).Unmistakable) : (bare name).Canonical := by
  obtain ⟨hname, hword, hnode, -, -⟩ := h _ (mem_walk_self _)
  intro node hmem
  obtain rfl : node = bare name := by simpa [walk, walkItems] using hmem
  exact ⟨hname, hword, hnode⟩

theorem canonical (h : tree.Unmistakable) : tree.Canonical := by
  intro node hnode
  have hname := h node hnode
  cases node with
  | reference name arguments =>
    obtain ⟨hname, hword, hhash, hsingle, hmap⟩ := hname
    cases arguments with
    | nil => exact ⟨hname, hword, hhash⟩
    | cons first rest => exact ⟨hname, hsingle, hmap⟩
  | primitive _ | option _ | vec _ | array _ _ | tuple _ | hashMap _ _ | bTreeMap _ _ => trivial

end Unmistakable

end TypeTree

/-! ## Values of spelled types -/

namespace Conversion

section Lists

variable {read : List Char → TypeTree} {pairs : List (TypeExpr × TypeTree)}

theorem value_types (h : ∀ pair ∈ pairs, (type pair.1).value read = pair.2) :
    (types (pairs.map Prod.fst)).value read = pairs.map Prod.snd := by
  induction pairs with
  | nil => rfl
  | cons pair rest ih =>
    obtain ⟨hpair, hrest⟩ := List.forall_mem_cons.mp h
    simp [types, hpair, ih hrest]

theorem value_arguments (h : ∀ pair ∈ pairs, (type pair.1).value read = pair.2) :
    (arguments (pairs.map fun pair => .type pair.1)).value read = pairs.map Prod.snd := by
  induction pairs with
  | nil => rfl
  | cons pair rest ih =>
    obtain ⟨hpair, hrest⟩ := List.forall_mem_cons.mp h
    simp [arguments, argument, hpair, ih hrest]

end Lists

/-- Arguments that are written out replace those of the reference that the name is read as. -/
theorem value_applied {read : List Char → TypeTree} {name : String} {args : List GenericArgument}
    (h : read name.toList = .bare name) :
    (type (.applied name args)).value read = .reference name ((arguments args).value read) := by
  cases args with
  | nil => simp [type, arguments, h]
  | cons first rest => simp [type, h]

end Conversion

open Conversion in
/-- A spelling of a tree is converted to it where the text of an unmistakable tree of at most 64
levels reads back. -/
theorem value_type_of_spells {read : List Char → TypeTree}
    (hread : ∀ tree : TypeTree, tree.Canonical → tree.levels ≤ 64 →
      read tree.text.toList = tree)
    (hword : ∀ text p, (asciiLowered text, p) ∈ Primitive.words → read text = .primitive p)
    {declared : TypeExpr} {tree : TypeTree} (h : Spells declared tree) (htree : tree.Unmistakable) :
    (type declared).value read = tree := by
  have hbare : ∀ {name : String} {arguments : List TypeTree},
      (TypeTree.reference name arguments).Unmistakable → read name.toList = .bare name := by
    intro name arguments hreference
    have hback := hread (.bare name) hreference.name
      (by simp [TypeTree.levels, TypeTree.levelsItems])
    rwa [TypeTree.text, TypeTree.render_bare, String.ofList_toList] at hback
  induction h with
  | named hlevels => exact hread _ htree.canonical hlevels
  | definedText hlevels => exact hread _ htree.canonical hlevels
  | appliedText hlevels =>
    have hback := hread _ htree.canonical hlevels
    rw [type, Script.value_bind, Script.value_ask, hback]
    split <;> rfl
  | word hp => exact hword _ _ hp
  | option hinner ih => simp [type, ih (htree.of_child (by simp [TypeTree.children]))]
  | coption hinner ih => simp [type, ih (htree.of_child (by simp [TypeTree.children]))]
  | vec hinner ih => simp [type, ih (htree.of_child (by simp [TypeTree.children]))]
  | array helement ih => simp [type, ih (htree.of_child (by simp [TypeTree.children]))]
  | tuple hitems ih =>
    have hvalues := value_types fun item hitem =>
      ih item hitem (htree.of_child (List.mem_map_of_mem hitem))
    simp [type, hvalues]
  | hashMap hkey hvalue ihkey ihvalue =>
    have hk := ihkey (htree.of_child (by simp [TypeTree.children]))
    have hv := ihvalue (htree.of_child (by simp [TypeTree.children]))
    simp [type, hk, hv]
  | bTreeMap hkey hvalue ihkey ihvalue =>
    have hk := ihkey (htree.of_child (by simp [TypeTree.children]))
    have hv := ihvalue (htree.of_child (by simp [TypeTree.children]))
    simp [type, hk, hv]
  | defined => exact hbare htree
  | generic => rfl
  | applied hne harguments ih =>
    have hvalues := value_arguments fun argument hargument =>
      ih argument hargument (htree.of_child (List.mem_map_of_mem hargument))
    rw [value_applied (hbare htree), hvalues]

/-- Under the built-in rules every spelling of an unmistakable tree is converted to it, whatever
the run has brought about before. -/
theorem Spells.run_type {declared : TypeExpr} {tree : TypeTree} (h : Spells declared tree)
    (htree : tree.Unmistakable) (run : Run) :
    ((Conversion.type declared).run Chain.standard.resolve run).1 = tree := by
  have hreads : ReadsAs Chain.standard.resolve run.expanding
      (TypeTree.readWithin .standard Chain.depthLimit) := by
    intro text run' hrun'
    have hforget := Chain.standard.forgetful_resolveWithin Chain.depthLimit text
    exact ⟨Chain.resolve_plain .standard _ text run', (hforget.expanding run').trans hrun'⟩
  rw [(Script.run_of_readsAs hreads (Conversion.type declared) rfl).1]
  refine value_type_of_spells ?_ ?_ h htree
  · intro tree hcanonical hlevels
    rw [← TypeTree.ofText_eq_readWithin]
    exact (TypeTree.ofText_text_of_canonical hcanonical).2.1 hlevels
  · intro text p hword
    exact (Denotes.word hword : Denotes Chain.depthLimit text (.primitive p)).readWithin_eq

/-- A map of which the key is spelled by text and the value by its shape. -/
theorem Spells.run_type_mixed :
    Spells (.hashMap (.named "[u8; 4]")
          (.applied "Pair" [.type (.generic "T"), .type (.named "U64")]))
        (.hashMap (.array (.primitive .u8) 4)
          (.reference "Pair" [.bare "T", .primitive .u64])) ∧
      ((Conversion.type (.hashMap (.named "[u8; 4]")
          (.applied "Pair" [.type (.generic "T"), .type (.named "U64")]))).run
        Chain.standard.resolve .start).1 =
        .hashMap (.array (.primitive .u8) 4) (.reference "Pair" [.bare "T", .primitive .u64]) := by
  have hkey : Spells (.named "[u8; 4]") (.array (.primitive .u8) 4) :=
    @Spells.named (.array (.primitive .u8) 4) (by decide)
  have hword : Spells (.named "U64") (.primitive .u64) := .word (by decide)
  have hvalue : Spells (.applied "Pair" [.type (.generic "T"), .type (.named "U64")])
      (.reference "Pair" [.bare "T", .primitive .u64]) :=
    @Spells.applied "Pair" [(.generic "T", .bare "T"), (.named "U64", .primitive .u64)]
      (by simp) (by simpa using ⟨.generic, hword⟩)
  have hspells := Spells.hashMap hkey hvalue
  exact ⟨hspells, hspells.run_type (by decide) .start⟩

end CanonicalIdl
