import CanonicalIdl.Proofs.Resolution.RoundTrip
import CanonicalIdl.Proofs.Resolution.Weight

/-!
# When reading a written tree changes nothing

What was read from a text is settled at every level: no name in it is read as something
else when it is written out.  Reading the text again still need not give the same tree.
A bracket that closes nothing may cut a list in another place than before, and a map of
pairs is written with two levels where it was read with one.  The tree is found again
exactly if it is legible: at every level the pieces of each list stay apart, and below
the last level there are names only.

That nothing else is needed rests on weights.  If reading the text gives the tree again,
the pieces that its lists are cut into weigh as much as the pieces that were written, and
then they are the same pieces.

Main results:

- Theorem `settledWithin_readWithin`: what is read is settled.
- Theorems `CutsArguments.pieces_eq`, `CutsItems.pieces_eq`: pieces of no more weight than
  the written ones are the written ones.
- Theorem `readWithin_render_eq_iff`: a tree is found again where it is settled and legible.
- Theorem `ofText_text_ofText_iff`: resolution is repeated exactly where its outcome is legible.
-/

namespace CanonicalIdl

open Text

namespace TypeTree

/-! ## Settled and legible trees -/

/-- The tree is settled at each of so many levels, and what stands below is trimmed. -/
def SettledWithin : Nat → TypeTree → Prop
  | 0, tree => Trimmed tree.render
  | levels + 1, tree => tree.Settled ∧ ∀ child ∈ tree.children, SettledWithin levels child

/-- At each of so many levels the pieces of each written list stay apart, and below there
are names only. -/
def Legible : Nat → TypeTree → Prop
  | 0, tree => ∃ name, tree = .bare name
  | levels + 1, tree => tree.StaysApart ∧ ∀ child ∈ tree.children, Legible levels child

theorem SettledWithin.trimmed {levels : Nat} {tree : TypeTree} (h : tree.SettledWithin levels) :
    Trimmed tree.render := by
  cases levels with
  | zero => exact h
  | succ levels => exact h.1.trimmed

/-- A tree that is settled at so many levels is settled at one less. -/
theorem SettledWithin.of_succ {levels : Nat} {tree : TypeTree}
    (h : tree.SettledWithin (levels + 1)) : tree.SettledWithin levels := by
  induction levels generalizing tree with
  | zero => exact h.trimmed
  | succ levels ih => exact ⟨h.1, fun child hchild => ih (h.2 child hchild)⟩

/-- A settled and legible tree is found again in its text. -/
theorem readWithin_render_of_legible {levels : Nat} {tree : TypeTree}
    (hsettled : tree.SettledWithin levels) (hlegible : tree.Legible levels) :
    readWithin .standard levels tree.render = tree := by
  induction levels generalizing tree with
  | zero =>
    obtain ⟨name, rfl⟩ := hlegible
    have htrim : trim (bare name).render = (bare name).render := hsettled
    rw [readWithin, htrim, render_bare, String.ofList_toList]
  | succ levels ih =>
    have hshape : Shape.ofText tree.render = tree.shape :=
      ofText_render hsettled.1 hlegible.1 fun child hchild => (hsettled.2 child hchild).trimmed
    have hchildren : ∀ child ∈ tree.children,
        readWithin .standard levels child.render = id child :=
      fun child hchild => ih (hsettled.2 child hchild) (hlegible.2 child hchild)
    rw [readWithin_succ_render hsettled.trimmed hshape, mapChildren_congr hchildren,
      mapChildren_id]

/-! ## What is read is settled -/

/-- The trees below a name with arguments are read from the arguments, but for a map that is
a list of pairs. -/
theorem children_tree_ofApplication (read : List Char → TypeTree) (text name : List Char)
    (arguments : List (List Char)) :
    ((Shape.ofApplication text name arguments).tree .standard read).children =
        arguments.map read ∨
      ∃ key value, arguments = [key, value] ∧ Builtin.lastSegment name = "VecMap".toList ∧
        (Shape.ofApplication text name arguments).tree .standard read =
          .vec (.tuple [read key, read value]) := by
  rcases Shape.ofApplication_cases text name arguments with ⟨rfl, hshape⟩ |
    ⟨inner, rfl, -, hshape⟩ | ⟨inner, rfl, -, hshape⟩ | ⟨key, value, rfl, -, hshape⟩ |
    ⟨-, -, hshape⟩
  · exact .inl rfl
  · rw [hshape]
    exact .inl rfl
  · rw [hshape]
    exact .inl rfl
  · rw [hshape, Shape.tree, Builtin.mapTree]
    split
    · exact .inl rfl
    split
    · next hvec => exact .inr ⟨key, value, rfl, hvec, rfl⟩
    · exact .inl rfl
  · rw [hshape]
    exact .inl rfl

/-- A text that is not blank is not read as a reference without a name. -/
theorem render_readWithin_ne_nil {levels : Nat} {text : List Char} (h : trim text ≠ []) :
    (readWithin .standard levels text).render ≠ [] := by
  rw [Ne, render_eq_nil_iff]
  cases levels with
  | zero =>
    intro hbare
    rw [readWithin, reference.injEq, String.ofList_eq_empty_iff] at hbare
    exact h hbare.1
  | succ levels =>
    rw [readWithin]
    generalize trim text = trimmed at h
    rcases Shape.ofText_cases trimmed with ⟨p, -, hshape⟩ | ⟨-, hshape⟩ | ⟨inner, -, hshape⟩ |
      ⟨element, length, n, -, -, -, hshape⟩ | hshape
    · rw [hshape]
      rintro ⟨⟩
    · rw [hshape]
      rintro ⟨⟩
    · rw [hshape]
      rintro ⟨⟩
    · rw [hshape]
      rintro ⟨⟩
    · intro hbare
      rw [hshape] at hbare
      rcases children_tree_ofApplication (readWithin .standard levels) trimmed
        (Application.ofText trimmed).name (Application.ofText trimmed).arguments with
        hchildren | ⟨key, value, -, -, hvec⟩
      · rw [hbare] at hchildren
        have harguments : (Application.ofText trimmed).arguments = [] := by
          simpa [children] using hchildren.symm
        rw [harguments, Shape.ofApplication, Shape.tree, reference.injEq,
          String.ofList_eq_empty_iff] at hbare
        exact h hbare.1
      · rw [hbare] at hvec
        cases hvec

theorem settledWithin_primitive (levels : Nat) (p : Primitive) :
    (primitive p).SettledWithin levels := by
  have hsettled : (primitive p).Settled := trivial
  cases levels with
  | zero => exact hsettled.trimmed
  | succ levels =>
    refine ⟨hsettled, ?_⟩
    intro child hchild
    cases hchild

/-- A text without arguments that is read as a name is settled under that name. -/
theorem settledWithin_bare {name : List Char} (htrim : Trimmed name)
    (hshape : Shape.ofText name = .bare name) (levels : Nat) :
    (bare (String.ofList name)).SettledWithin (levels + 1) := by
  constructor
  · rw [Settled, String.toList_ofList]
    exact ⟨htrim, hshape⟩
  · intro child hchild
    cases hchild

/-- A list of pairs has a level more than the map that it was read from. -/
theorem settledWithin_pair {levels : Nat} {key value : TypeTree}
    (hkey : key.SettledWithin levels) (hvalue : value.SettledWithin levels) :
    (tuple [key, value]).SettledWithin levels := by
  cases levels with
  | zero =>
    rw [SettledWithin, render_tuple]
    exact trimmed_tupleText _
  | succ levels =>
    refine ⟨by simp [Settled], ?_⟩
    intro child hchild
    have hpair : child = key ∨ child = value := by simpa [children] using hchild
    rcases hpair with rfl | rfl
    · exact hkey.of_succ
    · exact hvalue.of_succ

/-- A text in front of arguments is read as a settled tree. -/
theorem settledWithin_ofApplication {levels : Nat} {read : List Char → TypeTree}
    (h : ∀ text, (read text).SettledWithin levels) {text name : List Char}
    {arguments : List (List Char)} (htrim : Trimmed name) (hangle : '<' ∉ name)
    (hne : arguments ≠ []) :
    ((Shape.ofApplication text name arguments).tree .standard read).SettledWithin
      (levels + 1) := by
  have hmap : ∀ child ∈ arguments.map read, child.SettledWithin levels :=
    List.forall_mem_map.mpr fun argument _ => h argument
  rcases Shape.ofApplication_cases text name arguments with ⟨rfl, -⟩ |
    ⟨inner, rfl, -, hshape⟩ | ⟨inner, rfl, -, hshape⟩ | ⟨key, value, rfl, -, hshape⟩ |
    ⟨-, hcovers, hshape⟩
  · exact absurd rfl hne
  · rw [hshape]
    exact ⟨trivial, hmap⟩
  · rw [hshape]
    exact ⟨trivial, hmap⟩
  · rw [hshape, Shape.tree, Builtin.mapTree]
    split
    · exact ⟨trivial, hmap⟩
    split
    · refine ⟨trivial, ?_⟩
      intro child hchild
      rw [List.mem_singleton.mp hchild]
      exact settledWithin_pair (h key) (h value)
    · exact ⟨trivial, hmap⟩
  · rw [hshape, Shape.tree]
    refine ⟨(settled_applied (by simpa using hne)).mpr ?_, hmap⟩
    rw [String.toList_ofList, List.length_map]
    exact ⟨htrim, hangle, hcovers⟩

/-- The only item of a tuple is not blank. -/
theorem trim_ne_nil_of_tupleItems {inner item : List Char}
    (h : Builtin.tupleItems inner = [item]) : trim item ≠ [] := by
  unfold Builtin.tupleItems at h
  split at h
  · cases h
  · next hblank =>
    obtain ⟨pieces, hcuts⟩ := exists_cutsItems inner
    rw [commaItems_trim, commaItems_of_cuts hcuts] at h
    cases hcuts with
    | last walk =>
      rw [List.map_singleton, List.singleton_inj] at h
      rw [← h, trim_trim]
      simpa using hblank
    | more walk others =>
      have hnil := (List.cons.inj h).2
      exact absurd (List.map_eq_nil_iff.mp hnil) others.ne_nil

/-- What is read from a text is settled at the levels that are read. -/
theorem settledWithin_readWithin (levels : Nat) (text : List Char) :
    (readWithin .standard levels text).SettledWithin levels := by
  induction levels generalizing text with
  | zero =>
    rw [SettledWithin, readWithin, render_bare, String.toList_ofList]
    exact trimmed_trim text
  | succ levels ih =>
    rw [readWithin]
    generalize htext : trim text = trimmed
    have htrim : Trimmed trimmed := by
      rw [← htext]
      exact trimmed_trim text
    rcases Shape.ofText_cases trimmed with ⟨p, -, hshape⟩ | ⟨-, hshape⟩ | ⟨inner, -, hshape⟩ |
      ⟨element, length, n, -, -, -, hshape⟩ | hshape
    · rw [hshape]
      exact settledWithin_primitive (levels + 1) p
    · rw [hshape]
      refine ⟨trivial, ?_⟩
      intro child hchild
      rw [List.mem_singleton.mp hchild]
      exact settledWithin_primitive levels .u8
    · rw [hshape]
      refine ⟨?_, List.forall_mem_map.mpr fun item _ => ih item⟩
      intro hitems
      rw [List.map_map, List.map_eq_singleton_iff] at hitems
      obtain ⟨item, hitem, hnil⟩ := hitems
      exact render_readWithin_ne_nil (trim_ne_nil_of_tupleItems hitem) hnil
    · rw [hshape]
      refine ⟨trivial, ?_⟩
      intro child hchild
      rw [List.mem_singleton.mp hchild]
      exact ih element
    · by_cases hne : (Application.ofText trimmed).arguments = []
      · rw [hne] at hshape
        rw [hshape]
        exact settledWithin_bare htrim hshape levels
      · obtain ⟨name, rest, pieces, hangle, -, -, happlication⟩ := Application.exists_angle hne
        rw [hshape]
        refine settledWithin_ofApplication ih ?_ ?_ hne
        · rw [happlication]
          exact trimmed_trim name
        · rw [happlication]
          exact fun hmem => hangle (mem_of_mem_trim hmem)

end TypeTree

/-! ## Pieces of the same weight -/

/-- Two texts of the same weight in front of breaks are the same text. -/
theorem append_cons_inj_of_weight {a b front back : List Char} {c d : Char}
    (hc : isBreak c = true) (hd : isBreak d = true) (h : a ++ c :: front = b ++ d :: back)
    (hweight : weight a = weight b) : a = b ∧ c = d ∧ front = back := by
  rcases List.append_eq_append_iff.mp h with ⟨rest, hb, hrest⟩ | ⟨rest, ha, hrest⟩
  · cases rest with
    | nil =>
      rw [List.append_nil] at hb
      rw [List.nil_append, List.cons.injEq] at hrest
      exact ⟨hb.symm, hrest.1, hrest.2⟩
    | cons e tail =>
      rw [List.cons_append, List.cons.injEq] at hrest
      rw [hb, ← hrest.1, weight_append_cons hc] at hweight
      omega
  · cases rest with
    | nil =>
      rw [List.append_nil] at ha
      rw [List.nil_append, List.cons.injEq] at hrest
      exact ⟨ha, hrest.1.symm, hrest.2.symm⟩
    | cons e tail =>
      rw [List.cons_append, List.cons.injEq] at hrest
      rw [ha, ← hrest.1, weight_append_cons hd] at hweight
      omega

/-- The pieces that weigh at most as much as a single one are a single one. -/
theorem exists_eq_singleton_of_weight {piece : List Char} {written : List (List Char)}
    (hle : List.Forall₂ (· ≤ ·) (written.map weight) ([piece].map weight)) :
    ∃ first, written = [first] ∧ weight first ≤ weight piece := by
  have hlength := hle.length_eq
  rw [List.length_map, List.length_map, List.length_singleton] at hlength
  obtain ⟨first, rfl⟩ := List.length_eq_one_iff.mp hlength
  exact ⟨first, rfl, by simpa using hle⟩

/-- Arguments that a written list is cut into, each of at least the weight of the written one,
are the written ones. -/
theorem CutsArguments.pieces_eq {text : List Char} {pieces written : List (List Char)}
    (h : CutsArguments text pieces) (hne : written ≠ [])
    (htext : text = List.intercalate [','] written ++ ['>'])
    (hle : List.Forall₂ (· ≤ ·) (written.map weight) (pieces.map weight)) :
    pieces = written := by
  induction h generalizing written with
  | unclosed walk =>
    have hnil : written.map weight = [] := by simpa using hle
    exact absurd (List.map_eq_nil_iff.mp hnil) hne
  | @last piece rest groups walk =>
    obtain ⟨first, rfl, hfirst⟩ := exists_eq_singleton_of_weight hle
    have htotal := congrArg weight htext
    rw [List.intercalate_singleton] at htext
    rw [List.intercalate_singleton, weight_append_cons rfl, weight_append_singleton rfl] at htotal
    have hweight : weight piece = weight first := by omega
    rw [(append_cons_inj_of_weight rfl rfl htext hweight).1]
  | @more piece rest pieces walk others ih =>
    cases written with
    | nil => exact absurd rfl hne
    | cons first written =>
      obtain ⟨hfirst, hrests⟩ : weight first ≤ weight piece ∧
          List.Forall₂ (· ≤ ·) (written.map weight) (pieces.map weight) :=
        List.forall₂_cons.mp hle
      have hothers := others.weight_le
      have htotal := congrArg weight htext
      cases written with
      | nil =>
        rw [List.intercalate_singleton] at htext
        rw [List.intercalate_singleton, weight_append_cons rfl, weight_append_singleton rfl]
          at htotal
        have hweight : weight piece = weight first := by omega
        exact absurd (append_cons_inj_of_weight rfl rfl htext hweight).2.1 (by decide)
      | cons second written =>
        have hsum := hrests.sum_le_sum
        have hlength := hrests.length_eq
        have hwritten := TypeTree.weight_intercalate (List.cons_ne_nil second written)
        rw [List.length_map, List.length_map] at hlength
        rw [List.intercalate_cons_cons, List.append_assoc, List.append_assoc,
          List.singleton_append] at htext
        rw [List.intercalate_cons_cons, List.append_assoc, List.append_assoc,
          List.singleton_append, weight_append_cons rfl, weight_append_cons rfl,
          weight_append_singleton rfl] at htotal
        have hweight : weight piece = weight first := by omega
        obtain ⟨hpiece, -, hrest⟩ := append_cons_inj_of_weight rfl rfl htext hweight
        rw [hpiece, ih (List.cons_ne_nil second written) hrest hrests]

/-- Items that a written list is cut into, each of at least the weight of the written one,
are the written ones. -/
theorem CutsItems.pieces_eq {text : List Char} {pieces written : List (List Char)}
    (h : CutsItems text pieces) (htext : text = List.intercalate [','] written)
    (hle : List.Forall₂ (· ≤ ·) (written.map weight) (pieces.map weight)) :
    pieces = written := by
  induction h generalizing written with
  | @last piece depth walk =>
    obtain ⟨first, rfl, -⟩ := exists_eq_singleton_of_weight hle
    rw [htext, List.intercalate_singleton]
  | @more piece rest pieces walk others ih =>
    have hlength := hle.length_eq
    have hpieces := List.length_pos_iff.mpr others.ne_nil
    rw [List.length_map, List.length_map, List.length_cons] at hlength
    rcases written with _ | ⟨first, _ | ⟨second, written⟩⟩
    · simp at hlength
    · rw [List.length_singleton] at hlength
      omega
    · obtain ⟨hfirst, hrests⟩ : weight first ≤ weight piece ∧
          List.Forall₂ (· ≤ ·) ((second :: written).map weight) (pieces.map weight) :=
        List.forall₂_cons.mp hle
      have hsum := hrests.sum_le_sum
      have hothers := others.weight_eq
      have htotal := congrArg weight htext
      have hwritten := TypeTree.weight_intercalate (List.cons_ne_nil second written)
      rw [List.intercalate_cons_cons, List.append_assoc, List.singleton_append] at htext
      rw [List.intercalate_cons_cons, List.append_assoc, List.singleton_append,
        weight_append_cons rfl, weight_append_cons rfl] at htotal
      rw [List.length_cons] at hlength
      have hweight : weight piece = weight first := by omega
      obtain ⟨hpiece, -, hrest⟩ := append_cons_inj_of_weight rfl rfl htext hweight
      rw [hpiece, ih hrest hrests]

namespace TypeTree

/-! ## What is found again is legible -/

variable {levels : Nat}

/-- Trees that are read from pieces are written with no more weight than the pieces. -/
theorem forall₂_weight_render {trees : List TypeTree} {pieces : List (List Char)}
    (h : (pieces.map trim).map (readWithin .standard levels) = trees) :
    List.Forall₂ (· ≤ ·) ((spaced (trees.map render)).map weight) (pieces.map weight) := by
  rw [map_weight_spaced, ← h, List.map_map, List.map_map, List.map_map,
    List.forall₂_map_left_iff, List.forall₂_map_right_iff, List.forall₂_same]
  intro piece _
  have hpiece := weight_render_readWithin levels (trim piece)
  rwa [weight_trim] at hpiece

/-- Trees that are read from their own spaced texts are read from their texts. -/
theorem readWithin_render_of_spaced {trees : List TypeTree}
    (h : ((spaced (trees.map render)).map trim).map (readWithin .standard levels) = trees) :
    ∀ tree ∈ trees, readWithin .standard levels tree.render = tree := by
  rw [map_trim_spaced, List.map_map, List.map_map] at h
  have hall : ∀ tree ∈ trees, (readWithin .standard levels ∘ trim ∘ render) tree = id tree := by
    apply List.map_inj_left.mp
    rwa [List.map_id]
  intro tree htree
  have htrim := hall tree htree
  simp only [Function.comp_apply, id_eq, readWithin_trim] at htrim
  exact htrim

/-- Trees that are found again as the arguments of a written list stay apart in it. -/
theorem apart_of_read_arguments {trees : List TypeTree} {pieces : List (List Char)}
    (hne : trees ≠ []) (hcuts : CutsArguments (commaList (trees.map render) ++ ['>']) pieces)
    (h : (pieces.map trim).map (readWithin .standard levels) = trees) :
    ApartAsArguments (trees.map render) ∧
      ∀ tree ∈ trees, readWithin .standard levels tree.render = tree := by
  have hspaced : spaced (trees.map render) ≠ [] := spaced_ne_nil (by simpa using hne)
  have hpieces : pieces = spaced (trees.map render) := by
    refine hcuts.pieces_eq hspaced ?_ (forall₂_weight_render h)
    rw [commaList_eq]
  subst hpieces
  exact ⟨apartAsArguments_spaced.mp hcuts.apart, readWithin_render_of_spaced h⟩

/-- Trees that are found again as the items of a written list stay apart in it. -/
theorem apart_of_read_items {trees : List TypeTree} {pieces : List (List Char)}
    (hcuts : CutsItems (commaList (trees.map render)) pieces)
    (h : (pieces.map trim).map (readWithin .standard levels) = trees) :
    ApartAsItems (trees.map render) ∧
      ∀ tree ∈ trees, readWithin .standard levels tree.render = tree := by
  have hpieces : pieces = spaced (trees.map render) :=
    hcuts.pieces_eq (commaList_eq _) (forall₂_weight_render h)
  subst hpieces
  exact ⟨apartAsItems_spaced.mp hcuts.apart, readWithin_render_of_spaced h⟩

/-- A tree that is written as a name in front of its children and is found again: its
children stay apart and are found again. -/
theorem apart_of_applied {tree : TypeTree} {name : List Char} (hname : Trimmed name)
    (hangle : '<' ∉ name) (hrender : tree.render = appliedText name (tree.children.map render))
    (hne : tree.children ≠ [])
    (hvec : Builtin.lastSegment name = "VecMap".toList → ∀ inner, tree ≠ .vec inner)
    (h : (Shape.ofText tree.render).tree .standard (readWithin .standard levels) = tree) :
    ApartAsArguments (tree.children.map render) ∧
      ∀ child ∈ tree.children, readWithin .standard levels child.render = child := by
  obtain ⟨pieces, hcuts⟩ := exists_cutsArguments (commaList (tree.children.map render) ++ ['>'])
  have hshape := Shape.ofText_angle hangle hcuts
  rw [hrender, appliedText, hshape, show trim name = name from hname] at h
  rcases children_tree_ofApplication (readWithin .standard levels)
    (name ++ '<' :: commaList (tree.children.map render) ++ ['>']) name (pieces.map trim) with
    hchildren | ⟨key, value, -, hsegment, htree⟩
  · rw [h] at hchildren
    exact apart_of_read_arguments hne hcuts hchildren.symm
  · rw [h] at htree
    exact absurd htree (hvec hsegment _)

/-- A tuple that is found again: its items stay apart and are found again. -/
theorem apart_of_tuple {items : List TypeTree}
    (h : (Shape.ofText (tuple items).render).tree .standard (readWithin .standard levels) =
      tuple items) :
    ApartAsItems (items.map render) ∧
      ∀ item ∈ items, readWithin .standard levels item.render = item := by
  rw [render_tuple, tupleText, Shape.ofText_round, Shape.tree, tuple.injEq] at h
  unfold Builtin.tupleItems at h
  split at h
  · subst h
    refine ⟨trivial, ?_⟩
    intro item hitem
    cases hitem
  · obtain ⟨pieces, hcuts⟩ := exists_cutsItems (commaList (items.map render))
    rw [commaItems_trim, commaItems_of_cuts hcuts] at h
    exact apart_of_read_items hcuts h

/-- One level of a tree that is found again. -/
theorem apart_of_read {tree : TypeTree} (hsettled : tree.Settled)
    (h : (Shape.ofText tree.render).tree .standard (readWithin .standard levels) = tree) :
    tree.StaysApart ∧
      ∀ child ∈ tree.children, readWithin .standard levels child.render = child := by
  cases tree with
  | primitive p =>
    refine ⟨trivial, ?_⟩
    intro child hchild
    cases hchild
  | option inner =>
    exact apart_of_applied (by decide) (by decide) (render_option inner)
      (List.cons_ne_nil inner []) (fun hsegment => absurd hsegment (by decide)) h
  | vec inner =>
    exact apart_of_applied (by decide) (by decide) (render_vec inner)
      (List.cons_ne_nil inner []) (fun hsegment => absurd hsegment (by decide)) h
  | array element length =>
    rw [render_array, Shape.ofText_arrayText, Shape.tree, array.injEq] at h
    refine ⟨trivial, ?_⟩
    intro child hchild
    rw [List.mem_singleton.mp hchild]
    exact h.1
  | tuple items => exact apart_of_tuple h
  | hashMap key value =>
    exact apart_of_applied (by decide) (by decide) (render_hashMap key value)
      (List.cons_ne_nil key [value]) (fun hsegment => absurd hsegment (by decide)) h
  | bTreeMap key value =>
    exact apart_of_applied (by decide) (by decide) (render_bTreeMap key value)
      (List.cons_ne_nil key [value]) (fun hsegment => absurd hsegment (by decide)) h
  | reference name arguments =>
    by_cases harguments : arguments = []
    · subst harguments
      refine ⟨trivial, ?_⟩
      intro child hchild
      cases hchild
    · obtain ⟨hname, hangle, -⟩ := (settled_applied harguments).mp hsettled
      refine apart_of_applied hname hangle (render_applied harguments) harguments ?_ h
      rintro - inner ⟨⟩

/-- A tree that is found again in its text is legible. -/
theorem legible_of_readWithin_render {tree : TypeTree}
    (h : readWithin .standard levels tree.render = tree) : tree.Legible levels := by
  induction levels generalizing tree with
  | zero => exact ⟨_, h.symm⟩
  | succ levels ih =>
    have hsettled : tree.SettledWithin (levels + 1) := by
      have himage := settledWithin_readWithin (levels + 1) tree.render
      rwa [h] at himage
    rw [readWithin_succ _ _ hsettled.trimmed] at h
    obtain ⟨hapart, hchildren⟩ := apart_of_read hsettled.1 h
    exact ⟨hapart, fun child hchild => ih (hchildren child hchild)⟩

/-- A tree is found again in its text exactly if it is settled and legible. -/
theorem readWithin_render_eq_iff {tree : TypeTree} :
    readWithin .standard levels tree.render = tree ↔
      tree.SettledWithin levels ∧ tree.Legible levels := by
  constructor
  · intro h
    refine ⟨?_, legible_of_readWithin_render h⟩
    have himage := settledWithin_readWithin levels tree.render
    rwa [h] at himage
  · rintro ⟨hsettled, hlegible⟩
    exact readWithin_render_of_legible hsettled hlegible

/-- Resolving the text of what was resolved gives the same again exactly if that is legible. -/
theorem ofText_text_ofText_iff (s : String) :
    ofText (ofText s).text = ofText s ↔ (ofText s).Legible 64 := by
  have hsettled : (ofText s).SettledWithin 64 := by
    rw [ofText_eq_readWithin]
    exact settledWithin_readWithin 64 s.toList
  rw [ofText_eq_readWithin (ofText s).text, text, String.toList_ofList]
  exact readWithin_render_eq_iff.trans (and_iff_right hsettled)

/-- A group that closes more than it opens is cut in another place when it is written out. -/
theorem ofText_text_ofText_ne :
    ofText (ofText "VecMap<a),b>").text ≠ ofText "VecMap<a),b>" := by
  decide +kernel

end TypeTree

end CanonicalIdl
