import CanonicalIdl.Proofs.Resolution.Levels
import CanonicalIdl.Proofs.Resolution.Names

/-!
# Rendered trees read back

A rendered tree is read back level by level.  Its root is found again when two things
hold: the names in it are not read as something else, and what stands in its brackets is
cut apart again at its commas.  In a canonical tree both hold at every level, so that it
reads back as itself down to the last level that is read, and below as names.

Main results:

- Theorem `ofText_render`: the shape that the text of a settled tree is read as.
- Theorem `ofText_text_of_canonical`: a canonical tree reads back, cut at 64 levels, and
  its text does not change.
-/

namespace CanonicalIdl

open Text

namespace TypeTree

/-! ## The shape of a tree -/

/-- The root of a tree, its children as text. -/
def shape : TypeTree → Shape
  | .primitive p => .primitive p
  | .option inner => .option inner.render
  | .vec inner => .vec inner.render
  | .array element length => .array element.render length
  | .tuple items => .tuple (items.map render)
  | .hashMap key value => .map "HashMap".toList key.render value.render
  | .bTreeMap key value => .map "BTreeMap".toList key.render value.render
  | .reference name [] => .bare name.toList
  | .reference name arguments => .applied name.toList (arguments.map render)

theorem shape_applied {name : String} {arguments : List TypeTree} (h : arguments ≠ []) :
    (reference name arguments).shape = .applied name.toList (arguments.map render) := by
  cases arguments with
  | nil => exact absurd rfl h
  | cons first rest => rfl

/-- The tree of the shape of a tree has the same root over what its children are read as. -/
theorem tree_shape (read : List Char → TypeTree) (tree : TypeTree) :
    tree.shape.tree .standard read = tree.mapChildren fun child => read child.render := by
  cases tree with
  | primitive p => rfl
  | option inner => rfl
  | vec inner => rfl
  | array element length => rfl
  | tuple items => simp [shape, Shape.tree, mapChildren, Function.comp_def]
  | hashMap key value => rfl
  | bTreeMap key value => rfl
  | reference name arguments =>
    cases arguments with
    | nil => simp [shape, Shape.tree, mapChildren]
    | cons first rest => simp [shape, Shape.tree, mapChildren, Function.comp_def]

/-! ## Reading back a root -/

/-- What stands in the brackets of the text is cut apart again at its commas. -/
def StaysApart : TypeTree → Prop
  | .array _ _ => True
  | .tuple items => ApartAsItems (items.map render)
  | tree => ApartAsArguments (tree.children.map render)

/-- The name in front of the text is read as that name, and a list of one empty item does not
stand for an empty list. -/
def Settled : TypeTree → Prop
  | .reference name [] => Trimmed name.toList ∧ Shape.ofText name.toList = .bare name.toList
  | .reference name arguments =>
    Trimmed name.toList ∧ '<' ∉ name.toList ∧ ¬ Builtin.Covers name.toList arguments.length
  | .tuple items => items.map render ≠ [[]]
  | _ => True

theorem settled_applied {name : String} {arguments : List TypeTree} (h : arguments ≠ []) :
    (reference name arguments).Settled ↔
      Trimmed name.toList ∧ '<' ∉ name.toList ∧
        ¬ Builtin.Covers name.toList arguments.length := by
  cases arguments with
  | nil => exact absurd rfl h
  | cons first rest => exact Iff.rfl

/-- The text of a settled tree has no blanks at its ends. -/
theorem Settled.trimmed {tree : TypeTree} (h : tree.Settled) : Trimmed tree.render := by
  cases tree with
  | primitive p =>
    rw [render_primitive]
    cases p <;> decide
  | option inner =>
    rw [render_option]
    exact trimmed_appliedText (by decide) _
  | vec inner =>
    rw [render_vec]
    exact trimmed_appliedText (by decide) _
  | array element length =>
    rw [render_array]
    exact trimmed_arrayText _ _
  | tuple items =>
    rw [render_tuple]
    exact trimmed_tupleText _
  | hashMap key value =>
    rw [render_hashMap]
    exact trimmed_appliedText (by decide) _
  | bTreeMap key value =>
    rw [render_bTreeMap]
    exact trimmed_appliedText (by decide) _
  | reference name arguments =>
    by_cases harguments : arguments = []
    · subst harguments
      rw [render_bare]
      exact h.1
    · rw [render_applied harguments]
      exact trimmed_appliedText ((settled_applied harguments).mp h).1 _

theorem map_trim_render {trees : List TypeTree} (h : ∀ tree ∈ trees, Trimmed tree.render) :
    (trees.map render).map trim = trees.map render := by
  rw [List.map_map]
  exact List.map_congr_left h

/-- A name written in front of trees is decided by the two, where the trees stay apart. -/
theorem ofText_appliedText_render (name : List Char) (trees : List TypeTree)
    (hname : Trimmed name) (hangle : '<' ∉ name) (hne : trees ≠ [])
    (hapart : ApartAsArguments (trees.map render))
    (htrim : ∀ tree ∈ trees, Trimmed tree.render) :
    Shape.ofText (appliedText name (trees.map render)) =
      Shape.ofApplication (appliedText name (trees.map render)) name (trees.map render) := by
  have hrenders : trees.map render ≠ [] := by simpa using hne
  have hshape := Shape.ofText_appliedText hangle hrenders hapart
  rwa [map_trim_render htrim, show trim name = name from hname] at hshape

/-- A map written under a name of one segment is a map of that name. -/
theorem ofText_appliedText_map {name : List Char} {key value : TypeTree} (hname : Trimmed name)
    (hangle : '<' ∉ name) (hmap : Builtin.isMapName name = true)
    (hsegment : Builtin.lastSegment name = name)
    (hapart : ApartAsArguments ([key, value].map render))
    (htrim : ∀ tree ∈ [key, value], Trimmed tree.render) :
    Shape.ofText (appliedText name [key.render, value.render]) =
      .map name key.render value.render := by
  have hshape := ofText_appliedText_render name [key, value] hname hangle
    (List.cons_ne_nil key [value]) hapart htrim
  rwa [List.map_cons, List.map_singleton, Shape.ofApplication_map hmap, hsegment] at hshape

/-- The text of a settled tree whose children stay apart is read as the shape of the tree. -/
theorem ofText_render {tree : TypeTree} (hsettled : tree.Settled) (hapart : tree.StaysApart)
    (htrim : ∀ child ∈ tree.children, Trimmed child.render) :
    Shape.ofText tree.render = tree.shape := by
  cases tree with
  | primitive p =>
    rw [render_primitive, Shape.ofText, Primitive.ofWord?_spelling]
    rfl
  | option inner =>
    have hshape := ofText_appliedText_render "Option".toList [inner] (by decide) (by decide)
      (List.cons_ne_nil inner []) hapart htrim
    rw [List.map_singleton, Shape.ofApplication_option] at hshape
    rw [render_option, hshape, shape]
  | vec inner =>
    have hshape := ofText_appliedText_render "Vec".toList [inner] (by decide) (by decide)
      (List.cons_ne_nil inner []) hapart htrim
    rw [List.map_singleton, Shape.ofApplication_vec] at hshape
    rw [render_vec, hshape, shape]
  | array element length =>
    rw [render_array]
    exact Shape.ofText_arrayText element.render length
  | tuple items =>
    have hitems : (items.map render).map trim = items.map render := map_trim_render htrim
    have hne : (items.map render).map trim ≠ [[]] := by
      rw [hitems]
      exact hsettled
    rw [render_tuple, Shape.ofText_tupleText hne hapart, hitems]
    rfl
  | hashMap key value =>
    rw [render_hashMap, shape]
    exact ofText_appliedText_map (by decide) (by decide) (by decide) (by decide) hapart htrim
  | bTreeMap key value =>
    rw [render_bTreeMap, shape]
    exact ofText_appliedText_map (by decide) (by decide) (by decide) (by decide) hapart htrim
  | reference name arguments =>
    by_cases harguments : arguments = []
    · subst harguments
      rw [render_bare]
      exact hsettled.2
    · obtain ⟨hname, hangle, hcovers⟩ := (settled_applied harguments).mp hsettled
      have hne : arguments.map render ≠ [] := by simpa using harguments
      have hcount : ¬ Builtin.Covers name.toList (arguments.map render).length := by
        rwa [List.length_map]
      rw [render_applied harguments, shape_applied harguments,
        ofText_appliedText_render name.toList arguments hname hangle harguments hapart htrim]
      exact Shape.ofApplication_of_not_covers hne hcount

/-! ## Canonical trees -/

/-- A reference has a name that nothing else is written with. -/
def WellNamed : TypeTree → Prop
  | .reference name [] =>
    IsName name.toList ∧ ¬ Primitive.IsWord name.toList ∧ name ≠ "Node"
  | .reference name arguments =>
    IsName name.toList ∧ (arguments.length = 1 → name ≠ "Vec" ∧ name ≠ "Option") ∧
      (arguments.length = 2 → ¬ "Map".toList <:+ name.toList)
  | _ => True

instance (tree : TypeTree) : Decidable tree.WellNamed :=
  match tree with
  | .reference _ [] => inferInstanceAs (Decidable (_ ∧ _))
  | .reference _ (_ :: _) => inferInstanceAs (Decidable (_ ∧ _))
  | .primitive _ | .option _ | .vec _ | .array _ _ | .tuple _ | .hashMap _ _ | .bTreeMap _ _ =>
    .isTrue trivial

/-- All references in the tree are well named. -/
def Canonical (tree : TypeTree) : Prop := ∀ node ∈ tree.walk, node.WellNamed

instance (tree : TypeTree) : Decidable tree.Canonical :=
  inferInstanceAs (Decidable (∀ node ∈ tree.walk, node.WellNamed))

theorem Canonical.wellNamed {tree : TypeTree} (h : tree.Canonical) : tree.WellNamed :=
  h tree (mem_walk_self tree)

theorem Canonical.of_child {tree child : TypeTree} (h : tree.Canonical)
    (hchild : child ∈ tree.children) : child.Canonical := by
  intro node hnode
  exact h node (mem_walk_of_child hchild hnode)

/-- What a well named reference with arguments is named. -/
theorem wellNamed_applied {name : String} {arguments : List TypeTree} (h : arguments ≠ []) :
    (reference name arguments).WellNamed ↔
      IsName name.toList ∧ (arguments.length = 1 → name ≠ "Vec" ∧ name ≠ "Option") ∧
        (arguments.length = 2 → ¬ "Map".toList <:+ name.toList) := by
  cases arguments with
  | nil => exact absurd rfl h
  | cons first rest => exact Iff.rfl

theorem WellNamed.isName {name : String} {arguments : List TypeTree}
    (h : (reference name arguments).WellNamed) : IsName name.toList := by
  cases arguments with
  | nil => exact h.1
  | cons first rest => exact h.1

theorem Canonical.render_ne_nil {tree : TypeTree} (h : tree.Canonical) : tree.render ≠ [] := by
  intro hnil
  obtain rfl := render_eq_nil_iff.mp hnil
  exact h.wellNamed.isName.nonempty rfl

/-- A canonical tree is settled. -/
theorem Canonical.settled {tree : TypeTree} (h : tree.Canonical) : tree.Settled := by
  have hroot := h.wellNamed
  cases tree with
  | tuple items =>
    intro hitems
    cases items with
    | nil => cases hitems
    | cons first rest =>
      have hfirst : first.Canonical := h.of_child List.mem_cons_self
      rw [List.map_cons, List.cons.injEq] at hitems
      exact hfirst.render_ne_nil hitems.1
  | reference name arguments =>
    by_cases harguments : arguments = []
    · subst harguments
      obtain ⟨hname, hword, hnode⟩ := hroot
      have hne : name.toList ≠ "Node".toList := fun heq => hnode (String.toList_inj.mp heq)
      exact ⟨hname.trimmed, Shape.ofText_name hname hword hne⟩
    · obtain ⟨hname, hsingle, hmap⟩ := (wellNamed_applied harguments).mp hroot
      refine (settled_applied harguments).mpr ⟨hname.trimmed, hname.not_mem rfl, ?_⟩
      rintro (⟨hcount, hvec | hoption⟩ | ⟨hcount, hmapname⟩)
      · exact (hsingle hcount).1 (String.toList_inj.mp hvec)
      · exact (hsingle hcount).2 (String.toList_inj.mp hoption)
      · exact hmap hcount (Builtin.isMapName_iff.mp hmapname).suffix
  | _ => trivial

/-- The text of a canonical tree is enclosed. -/
theorem Canonical.enclosed {tree : TypeTree} (h : tree.Canonical) : Enclosed tree.render := by
  induction tree using induction_children with
  | step tree ih =>
    have hchildren : ∀ child ∈ tree.children, Enclosed child.render :=
      fun child hchild => ih child hchild (h.of_child hchild)
    have hrenders : ∀ text ∈ tree.children.map render, Enclosed text :=
      List.forall_mem_map.mpr hchildren
    cases tree with
    | primitive p =>
      rw [render_primitive]
      apply enclosed_of_plain
      cases p <;> decide
    | option inner =>
      rw [render_option]
      exact enclosed_appliedText (enclosed_of_plain (by decide)) hrenders
    | vec inner =>
      rw [render_vec]
      exact enclosed_appliedText (enclosed_of_plain (by decide)) hrenders
    | array element length =>
      rw [render_array]
      exact enclosed_arrayText (hchildren element List.mem_cons_self) length
    | tuple items =>
      rw [render_tuple]
      exact enclosed_tupleText hrenders
    | hashMap key value =>
      rw [render_hashMap]
      exact enclosed_appliedText (enclosed_of_plain (by decide)) hrenders
    | bTreeMap key value =>
      rw [render_bTreeMap]
      exact enclosed_appliedText (enclosed_of_plain (by decide)) hrenders
    | reference name arguments =>
      have hname : Enclosed name.toList := enclosed_of_plain h.wellNamed.isName.plain
      by_cases harguments : arguments = []
      · subst harguments
        rwa [render_bare]
      · rw [render_applied harguments]
        exact enclosed_appliedText hname hrenders

/-- The children of a canonical tree stay apart. -/
theorem Canonical.staysApart {tree : TypeTree} (h : tree.Canonical) : tree.StaysApart := by
  have hrenders : ∀ text ∈ tree.children.map render, Enclosed text :=
    List.forall_mem_map.mpr fun child hchild => (h.of_child hchild).enclosed
  cases tree with
  | array element length => trivial
  | tuple items => exact apartAsItems_of_enclosed hrenders
  | primitive _ | option _ | vec _ | hashMap _ _ | bTreeMap _ _ | reference _ _ =>
    exact apartAsArguments_of_enclosed hrenders

/-! ## The round trip -/

/-- One level of a tree whose text is read as its shape. -/
theorem readWithin_succ_render {tree : TypeTree} (htrim : Trimmed tree.render)
    (hshape : Shape.ofText tree.render = tree.shape) (levels : Nat) :
    readWithin .standard (levels + 1) tree.render =
      tree.mapChildren fun child => readWithin .standard levels child.render := by
  rw [readWithin_succ .standard levels htrim, hshape, tree_shape]

/-- A canonical tree reads back down to the last level that is read. -/
theorem Canonical.readWithin_render {tree : TypeTree} (h : tree.Canonical) (levels : Nat) :
    readWithin .standard levels tree.render = tree.cut levels := by
  have htrim : Trimmed tree.render := h.settled.trimmed
  induction levels generalizing tree with
  | zero => rw [readWithin, show trim tree.render = tree.render from htrim, cut, text]
  | succ levels ih =>
    have hshape : Shape.ofText tree.render = tree.shape :=
      ofText_render h.settled h.staysApart fun child hchild => (h.of_child hchild).settled.trimmed
    rw [readWithin_succ_render htrim hshape, cut]
    apply mapChildren_congr
    intro child hchild
    have hcanonical := h.of_child hchild
    exact ih hcanonical hcanonical.settled.trimmed

/-- A canonical tree reads back, cut at 64 levels: a tree of at most so many levels reads back
as itself, and in every case the text of what is read is the text that was read. -/
theorem ofText_text_of_canonical {tree : TypeTree} (h : tree.Canonical) :
    ofText tree.text = tree.cut 64 ∧
      (tree.levels ≤ 64 → ofText tree.text = tree) ∧
      (ofText tree.text).text = tree.text := by
  have hread : ofText tree.text = tree.cut 64 := by
    rw [ofText_eq_readWithin, text, String.toList_ofList]
    exact h.readWithin_render Chain.depthLimit
  refine ⟨hread, ?_, ?_⟩
  · intro hlevels
    rw [hread, cut_of_levels_le hlevels]
  · rw [hread, text, render_cut, text]

/-- A tuple below a map reads back. -/
theorem ofText_text_of_canonical_pairs :
    (hashMap (.bare "acc::Owner") (.tuple [.option (.bare "Share"), .tuple []])).Canonical ∧
      ofText "HashMap<acc::Owner, (Option<Share>, ())>" =
        .hashMap (.bare "acc::Owner") (.tuple [.option (.bare "Share"), .tuple []]) := by
  have hcanonical :
      (hashMap (.bare "acc::Owner") (.tuple [.option (.bare "Share"), .tuple []])).Canonical := by
    decide
  exact ⟨hcanonical, (ofText_text_of_canonical hcanonical).2.1 (by decide)⟩

end TypeTree

end CanonicalIdl
