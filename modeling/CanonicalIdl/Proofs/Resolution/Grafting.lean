import CanonicalIdl.Proofs.Resolution.Levels
import CanonicalIdl.Proofs.Resolution.Shape

/-!
# Trees in place of leaves

The leaves of a type tree are its primitives and its references without arguments.  A graft
puts another tree in place of each leaf and keeps every other node with its constructor.
Reading a type expression comes leaf by leaf to the same tree whether the grafts are made
below its root or on the tree as a whole.

Main results:

- Theorem `graft_of_not_isLeaf`: a node that is no leaf stays, over grafted children.
- Theorem `exists_leaf_of_mem_walk_graft`: the leaves of a graft come from the trees put in.
- Theorem `Shape.graft_tree`: a graft of the tree of a shape is made in the parts of the shape.
-/

namespace CanonicalIdl

namespace TypeTree

/-- A primitive, or a reference without arguments. -/
def isLeaf : TypeTree → Bool
  | .primitive _ => true
  | .reference _ [] => true
  | _ => false

section Graft

variable (onPrimitive : Primitive → TypeTree) (onName : String → TypeTree)

mutual

/-- The tree with another tree in place of each leaf. -/
def graft : TypeTree → TypeTree
  | .primitive p => onPrimitive p
  | .option inner => .option (graft inner)
  | .vec inner => .vec (graft inner)
  | .array element length => .array (graft element) length
  | .tuple items => .tuple (graftItems items)
  | .hashMap key value => .hashMap (graft key) (graft value)
  | .bTreeMap key value => .bTreeMap (graft key) (graft value)
  | .reference name [] => onName name
  | .reference name (first :: rest) => .reference name (graft first :: graftItems rest)

/-- The trees with other trees in place of their leaves. -/
def graftItems : List TypeTree → List TypeTree
  | [] => []
  | item :: rest => graft item :: graftItems rest

end

theorem graftItems_eq_map (items : List TypeTree) :
    graftItems onPrimitive onName items = items.map (graft onPrimitive onName) := by
  induction items with
  | nil => simp only [graftItems, List.map_nil]
  | cons item rest ih => simp only [graftItems, ih, List.map_cons]

@[simp] theorem graft_primitive (p : Primitive) :
    (primitive p).graft onPrimitive onName = onPrimitive p := by
  simp only [graft]

/-- A name without arguments is what takes its place. -/
@[simp] theorem graft_bare (name : String) :
    (bare name).graft onPrimitive onName = onName name := by
  simp only [graft]

/-- A node that is no leaf stays, over grafted children. -/
theorem graft_of_not_isLeaf {tree : TypeTree} (h : tree.isLeaf = false) :
    tree.graft onPrimitive onName = tree.mapChildren (graft onPrimitive onName) := by
  cases tree with
  | primitive p => cases h
  | tuple items => simp only [graft, mapChildren, graftItems_eq_map]
  | reference name arguments =>
    cases arguments with
    | nil => cases h
    | cons first rest => simp only [graft, mapChildren, graftItems_eq_map, List.map_cons]
  | _ => simp only [graft, mapChildren]

/-- The items of a tuple are treated one by one. -/
theorem graft_tuple (items : List TypeTree) :
    (tuple items).graft onPrimitive onName = .tuple (items.map (graft onPrimitive onName)) :=
  graft_of_not_isLeaf onPrimitive onName rfl

/-- A name in front of arguments stays. -/
theorem graft_reference {arguments : List TypeTree} (h : arguments ≠ []) (name : String) :
    (reference name arguments).graft onPrimitive onName =
      .reference name (arguments.map (graft onPrimitive onName)) := by
  cases arguments with
  | nil => exact absurd rfl h
  | cons first rest => exact graft_of_not_isLeaf onPrimitive onName rfl

/-- Whatever the map, its keys and values are treated. -/
theorem graft_mapTree (base : List Char) (key value : TypeTree) :
    (Builtin.mapTree base key value).graft onPrimitive onName =
      Builtin.mapTree base (key.graft onPrimitive onName) (value.graft onPrimitive onName) := by
  unfold Builtin.mapTree
  split
  · exact graft_of_not_isLeaf onPrimitive onName rfl
  · split
    · simp only [graft, graftItems]
    · exact graft_of_not_isLeaf onPrimitive onName rfl

@[simp] theorem isLeaf_mapChildren (f : TypeTree → TypeTree) (tree : TypeTree) :
    (tree.mapChildren f).isLeaf = tree.isLeaf := by
  cases tree with
  | reference name arguments => cases arguments <;> rfl
  | _ => rfl

@[simp] theorem children_mapChildren (f : TypeTree → TypeTree) (tree : TypeTree) :
    (tree.mapChildren f).children = tree.children.map f := by
  cases tree <;> rfl

/-- The leaves of a graft stand in the trees that were put in place of leaves. -/
theorem exists_leaf_of_mem_walk_graft {tree leaf : TypeTree} (hleaf : leaf.isLeaf = true)
    (h : leaf ∈ (tree.graft onPrimitive onName).walk) :
    (∃ p, .primitive p ∈ tree.walk ∧ leaf ∈ (onPrimitive p).walk) ∨
      ∃ name, .bare name ∈ tree.walk ∧ leaf ∈ (onName name).walk := by
  induction tree using induction_children with
  | step tree ih =>
    by_cases htree : tree.isLeaf = true
    · cases tree with
      | primitive p => exact .inl ⟨p, mem_walk_self _, by simpa using h⟩
      | reference name arguments =>
        cases arguments with
        | nil => exact .inr ⟨name, mem_walk_self _, by simpa using h⟩
        | cons first rest => cases htree
      | _ => cases htree
    · have hnode : tree.isLeaf = false := by simpa using htree
      rw [graft_of_not_isLeaf onPrimitive onName hnode, walk_eq, List.mem_cons] at h
      rcases h with rfl | h
      · rw [isLeaf_mapChildren, hnode] at hleaf
        cases hleaf
      · rw [children_mapChildren, List.flatMap_map, List.mem_flatMap] at h
        obtain ⟨child, hchild, hmem⟩ := h
        rcases ih child hchild hmem with ⟨p, hp, hput⟩ | ⟨name, hname, hput⟩
        · exact .inl ⟨p, mem_walk_of_child hchild hp, hput⟩
        · exact .inr ⟨name, mem_walk_of_child hchild hname, hput⟩

end Graft

end TypeTree

namespace Shape

open TypeTree

/-- A name that stands alone in a shape is the whole text, and one that is applied has arguments. -/
def NamesIn (text : List Char) : Shape → Prop
  | .bare name => name = text
  | .applied _ arguments => arguments ≠ []
  | _ => True

theorem namesIn_ofText (text : List Char) : (ofText text).NamesIn text := by
  rcases ofText_cases text with ⟨p, -, heq⟩ | ⟨-, heq⟩ | ⟨inner, -, heq⟩ |
    ⟨element, length, n, -, -, -, heq⟩ | heq <;> rw [heq]
  · trivial
  · trivial
  · trivial
  · trivial
  · unfold ofApplication
    split
    · rfl
    · split
      · trivial
      · split
        · trivial
        · exact List.cons_ne_nil _ _
    · split
      · trivial
      · exact List.cons_ne_nil _ _
    · assumption

/-- The shape of a text that is a name is the whole text. -/
theorem eq_of_ofText_eq_bare {text name : List Char} (h : ofText text = .bare name) :
    name = text := by
  have hnames := namesIn_ofText text
  rwa [h] at hnames

/-- A name is applied to at least one argument. -/
theorem ofText_ne_applied_nil {text name : List Char} : ofText text ≠ .applied name [] := by
  intro h
  have hnames := namesIn_ofText text
  rw [h] at hnames
  exact hnames rfl

/-- A graft of the tree of a shape is made in the parts of the shape.  A word may come to
another table this way; a name that is the whole shape has to stay. -/
theorem graft_tree {table other : PrimitiveWords} {onPrimitive : Primitive → TypeTree}
    {onName : String → TypeTree} {read : List Char → TypeTree} {shape : Shape}
    (hword : ∀ p, (table.tree p).graft onPrimitive onName = other.tree p)
    (hbyte : onPrimitive .u8 = .primitive .u8)
    (hname : ∀ name, shape = .bare name ∨ shape = .applied name [] →
      onName (String.ofList name) = .bare (String.ofList name)) :
    (shape.tree table read).graft onPrimitive onName =
      shape.tree other fun text => (read text).graft onPrimitive onName := by
  cases shape with
  | primitive p => exact hword p
  | map base key value => exact graft_mapTree onPrimitive onName base (read key) (read value)
  | tuple items => simp only [tree, graft_tuple, List.map_map, Function.comp_def]
  | node => simp only [tree, byteArray, graft, hbyte]
  | bare name => rw [tree, tree, graft_bare, hname name (.inl rfl)]
  | applied name arguments =>
    cases arguments with
    | nil => rw [tree, tree, List.map_nil, List.map_nil, graft_bare, hname name (.inr rfl)]
    | cons first rest =>
      have hne : (first :: rest).map read ≠ [] := List.cons_ne_nil _ _
      simp only [tree, graft_reference onPrimitive onName hne, List.map_map, Function.comp_def]
  | _ => simp only [tree, graft]

end Shape

end CanonicalIdl
