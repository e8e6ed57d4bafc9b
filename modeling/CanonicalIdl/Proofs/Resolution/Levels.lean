import CanonicalIdl.Proofs.Resolution.Rendering

/-!
# Trees level by level

Most that is done to a type tree is done to its root and then to the trees directly
below it.  This module names those trees, so that a statement about all shapes of trees
needs no case for each, and it defines what is left of a tree when only so many of its
levels are kept: a tree below the last level becomes a name that reads like it.

Main results:

- Theorem `induction_children`: what passes from the children to a tree holds of all trees.
- Theorem `cut_of_levels_le`: a tree that is not deeper than the cut stays as it is.
- Theorem `render_cut`: a cut does not change the text of a tree.
-/

namespace CanonicalIdl

namespace TypeTree

/-! ## The trees below a root -/

/-- The trees directly below the root. -/
def children : TypeTree → List TypeTree
  | .primitive _ => []
  | .option inner => [inner]
  | .vec inner => [inner]
  | .array element _ => [element]
  | .tuple items => items
  | .hashMap key value => [key, value]
  | .bTreeMap key value => [key, value]
  | .reference _ arguments => arguments

/-- The same root over other children. -/
def mapChildren (f : TypeTree → TypeTree) : TypeTree → TypeTree
  | .primitive p => .primitive p
  | .option inner => .option (f inner)
  | .vec inner => .vec (f inner)
  | .array element length => .array (f element) length
  | .tuple items => .tuple (items.map f)
  | .hashMap key value => .hashMap (f key) (f value)
  | .bTreeMap key value => .bTreeMap (f key) (f value)
  | .reference name arguments => .reference name (arguments.map f)

/-- Only what is put in place of a child matters. -/
theorem mapChildren_congr {f g : TypeTree → TypeTree} {tree : TypeTree}
    (h : ∀ child ∈ tree.children, f child = g child) :
    tree.mapChildren f = tree.mapChildren g := by
  cases tree with
  | primitive p => rfl
  | option inner => rw [mapChildren, mapChildren, h inner (by simp [children])]
  | vec inner => rw [mapChildren, mapChildren, h inner (by simp [children])]
  | array element length => rw [mapChildren, mapChildren, h element (by simp [children])]
  | tuple items =>
    have hitems : items.map f = items.map g := List.map_congr_left h
    rw [mapChildren, mapChildren, hitems]
  | hashMap key value =>
    rw [mapChildren, mapChildren, h key (by simp [children]), h value (by simp [children])]
  | bTreeMap key value =>
    rw [mapChildren, mapChildren, h key (by simp [children]), h value (by simp [children])]
  | reference name arguments =>
    have harguments : arguments.map f = arguments.map g := List.map_congr_left h
    rw [mapChildren, mapChildren, harguments]

@[simp] theorem mapChildren_id (tree : TypeTree) : tree.mapChildren id = tree := by
  cases tree <;> simp [mapChildren]

/-- Children that read the same leave the text of the tree as it is. -/
theorem render_mapChildren {f : TypeTree → TypeTree} {tree : TypeTree}
    (h : ∀ child ∈ tree.children, (f child).render = child.render) :
    (tree.mapChildren f).render = tree.render := by
  cases tree with
  | primitive p => rfl
  | option inner =>
    have hinner : (f inner).render = inner.render := h inner (by simp [children])
    rw [mapChildren, render_option, render_option, hinner]
  | vec inner =>
    have hinner : (f inner).render = inner.render := h inner (by simp [children])
    rw [mapChildren, render_vec, render_vec, hinner]
  | array element length =>
    have helement : (f element).render = element.render := h element (by simp [children])
    rw [mapChildren, render_array, render_array, helement]
  | tuple items =>
    have hitems : (items.map f).map render = items.map render := by
      rw [List.map_map]
      exact List.map_congr_left h
    rw [mapChildren, render_tuple, render_tuple, hitems]
  | hashMap key value =>
    have hkey : (f key).render = key.render := h key (by simp [children])
    have hvalue : (f value).render = value.render := h value (by simp [children])
    rw [mapChildren, render_hashMap, render_hashMap, hkey, hvalue]
  | bTreeMap key value =>
    have hkey : (f key).render = key.render := h key (by simp [children])
    have hvalue : (f value).render = value.render := h value (by simp [children])
    rw [mapChildren, render_bTreeMap, render_bTreeMap, hkey, hvalue]
  | reference name arguments =>
    have harguments : (arguments.map f).map render = arguments.map render := by
      rw [List.map_map]
      exact List.map_congr_left h
    simp only [mapChildren, render_reference, harguments, List.map_eq_nil_iff]

/-- A visit of a tree is a visit of its root and then of its children. -/
theorem walk_eq (tree : TypeTree) : tree.walk = tree :: tree.children.flatMap walk := by
  cases tree <;> simp [walk, children, walkItems_eq_flatMap]

theorem mem_walk_self (tree : TypeTree) : tree ∈ tree.walk := by
  rw [walk_eq]
  exact List.mem_cons_self

/-- What stands in a child stands in the tree. -/
theorem mem_walk_of_child {tree child node : TypeTree} (hchild : child ∈ tree.children)
    (h : node ∈ child.walk) : node ∈ tree.walk := by
  rw [walk_eq]
  exact List.mem_cons_of_mem tree (List.mem_flatMap.mpr ⟨child, hchild, h⟩)

/-! ## Levels -/

mutual

/-- The number of levels of a tree, one for a tree without children. -/
def levels : TypeTree → Nat
  | .primitive _ => 1
  | .option inner => levels inner + 1
  | .vec inner => levels inner + 1
  | .array element _ => levels element + 1
  | .tuple items => levelsItems items + 1
  | .hashMap key value => max (levels key) (levels value) + 1
  | .bTreeMap key value => max (levels key) (levels value) + 1
  | .reference _ arguments => levelsItems arguments + 1

/-- The number of levels of the deepest of some trees. -/
def levelsItems : List TypeTree → Nat
  | [] => 0
  | item :: rest => max (levels item) (levelsItems rest)

end

theorem levels_pos (tree : TypeTree) : 0 < tree.levels := by
  cases tree <;> simp [levels]

theorem levels_le_levelsItems {item : TypeTree} {items : List TypeTree} (h : item ∈ items) :
    item.levels ≤ levelsItems items := by
  induction items with
  | nil => cases h
  | cons first rest ih =>
    rw [levelsItems]
    rcases List.mem_cons.mp h with rfl | h
    · omega
    · have hrest := ih h
      omega

/-- A child has fewer levels than the tree. -/
theorem levels_lt_of_child {tree child : TypeTree} (h : child ∈ tree.children) :
    child.levels < tree.levels := by
  cases tree with
  | primitive p => cases h
  | option inner =>
    obtain rfl := List.mem_singleton.mp h
    rw [levels]
    omega
  | vec inner =>
    obtain rfl := List.mem_singleton.mp h
    rw [levels]
    omega
  | array element length =>
    obtain rfl := List.mem_singleton.mp h
    rw [levels]
    omega
  | tuple items =>
    have hle : child.levels ≤ levelsItems items := levels_le_levelsItems h
    rw [levels]
    omega
  | hashMap key value =>
    have hpair : child = key ∨ child = value := by simpa [children] using h
    rw [levels]
    rcases hpair with rfl | rfl <;> omega
  | bTreeMap key value =>
    have hpair : child = key ∨ child = value := by simpa [children] using h
    rw [levels]
    rcases hpair with rfl | rfl <;> omega
  | reference name arguments =>
    have hle : child.levels ≤ levelsItems arguments := levels_le_levelsItems h
    rw [levels]
    omega

/-- What passes from the children to a tree holds of all trees. -/
@[elab_as_elim]
theorem induction_children {motive : TypeTree → Prop}
    (step : ∀ tree, (∀ child ∈ tree.children, motive child) → motive tree)
    (tree : TypeTree) : motive tree := by
  induction hlevels : tree.levels using Nat.strongRecOn generalizing tree with
  | ind levels ih =>
    subst hlevels
    exact step tree fun child hchild => ih _ (levels_lt_of_child hchild) child rfl

/-! ## Cuts -/

/-- The tree down to so many levels.  What stands below becomes a name. -/
def cut : Nat → TypeTree → TypeTree
  | 0, tree => .bare tree.text
  | levels + 1, tree => tree.mapChildren (cut levels)

/-- A tree that is not deeper than the cut stays as it is. -/
theorem cut_of_levels_le {levels : Nat} {tree : TypeTree} (h : tree.levels ≤ levels) :
    tree.cut levels = tree := by
  induction levels generalizing tree with
  | zero =>
    have hpos := levels_pos tree
    omega
  | succ levels ih =>
    have hchildren : ∀ child ∈ tree.children, child.cut levels = id child := by
      intro child hchild
      have hlt := levels_lt_of_child hchild
      exact ih (by omega)
    rw [cut, mapChildren_congr hchildren, mapChildren_id]

/-- A cut does not change the text of a tree. -/
@[simp] theorem render_cut (levels : Nat) (tree : TypeTree) :
    (tree.cut levels).render = tree.render := by
  induction levels generalizing tree with
  | zero => rw [cut, render_bare, text, String.toList_ofList]
  | succ levels ih => exact render_mapChildren fun child _ => ih child

end TypeTree

end CanonicalIdl
