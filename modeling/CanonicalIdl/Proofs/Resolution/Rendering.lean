import CanonicalIdl.Proofs.Resolution.Forms
import CanonicalIdl.Proofs.Text.Numerals

/-!
# Written type expressions

A rendered tree is a word, a name in front of arguments, a list in round brackets or an
element and a length in square brackets.  This module says what these written forms keep
of the texts they are put together from, and which shapes they are read as.

Main results:

- Theorem `commaItems_trim`: blanks around a text do not matter for its items.
- Theorems `ofText_appliedText`, `ofText_tupleText`, `ofText_arrayText`: a written form is
  read as the shape that it was written for, where its parts stay apart.
-/

namespace CanonicalIdl

open Text

/-! ## Written lists -/

namespace TypeTree

/-- The items as they stand between the commas of a list, all but the first behind a space. -/
def spaced : List (List Char) → List (List Char)
  | [] => []
  | first :: rest => first :: rest.map fun item => ' ' :: item

/-- Spaces take no item away. -/
theorem spaced_ne_nil {items : List (List Char)} (h : items ≠ []) : spaced items ≠ [] := by
  cases items with
  | nil => exact absurd rfl h
  | cons first rest => exact List.cons_ne_nil _ _

/-- A space behind each comma is one in front of each item but the first. -/
theorem intercalate_spaces (first : List Char) (rest : List (List Char)) :
    List.intercalate [',', ' '] (first :: rest) =
      List.intercalate [','] (first :: rest.map fun item => ' ' :: item) := by
  induction rest generalizing first with
  | nil => rfl
  | cons next others ih =>
    rw [List.intercalate_cons_cons, ih, List.map_cons, List.intercalate_cons_cons]
    cases others with
    | nil => simp
    | cons last others => simp [List.intercalate_cons_cons]

/-- A written list holds the spaced items between commas. -/
theorem commaList_eq (items : List (List Char)) :
    commaList items = List.intercalate [','] (spaced items) := by
  cases items with
  | nil => rfl
  | cons first rest => exact intercalate_spaces first rest

/-- Trimming takes the spaces away again. -/
theorem map_trim_spaced (items : List (List Char)) :
    (spaced items).map trim = items.map trim := by
  cases items with
  | nil => rfl
  | cons first rest => simp [spaced, Function.comp_def]

/-- Spaces in front of arguments keep them as far apart as they were. -/
theorem apartAsArguments_spaced {items : List (List Char)} :
    ApartAsArguments (spaced items) ↔ ApartAsArguments items := by
  rw [← apartAsArguments_trim, map_trim_spaced, apartAsArguments_trim]

/-- So it is with items. -/
theorem apartAsItems_spaced {items : List (List Char)} :
    ApartAsItems (spaced items) ↔ ApartAsItems items := by
  rw [← apartAsItems_trim, map_trim_spaced, apartAsItems_trim]

/-- A written list of enclosed texts stands well in brackets. -/
theorem enclosedWithin_commaList {items : List (List Char)}
    (h : ∀ item ∈ items, Enclosed item) : EnclosedWithin (commaList items) := by
  have hspace : Enclosed [' '] := enclosed_blanks (by decide)
  rw [commaList_eq]
  apply enclosedWithin_intercalate
  intro piece hpiece
  cases items with
  | nil => cases hpiece
  | cons first rest =>
    rcases List.mem_cons.mp hpiece with rfl | hpiece
    · exact h piece List.mem_cons_self
    · obtain ⟨item, hitem, rfl⟩ := List.mem_map.mp hpiece
      exact hspace.append (h item (List.mem_cons_of_mem first hitem))

/-! ## Written forms -/

/-- A name in front of arguments. -/
def appliedText (name : List Char) (arguments : List (List Char)) : List Char :=
  name ++ '<' :: commaList arguments ++ ['>']

/-- Items in round brackets. -/
def tupleText (items : List (List Char)) : List Char :=
  '(' :: commaList items ++ [')']

/-- An element and a length in square brackets. -/
def arrayText (element : List Char) (length : UInt64) : List Char :=
  '[' :: (element ++ ';' :: ' ' :: decimal length.toNat) ++ [']']

@[simp] theorem render_primitive (p : Primitive) :
    (primitive p).render = p.spelling.toList := rfl

/-- An option is written like a name with one argument. -/
@[simp] theorem render_option (inner : TypeTree) :
    (option inner).render = appliedText "Option".toList [inner.render] := by
  have hrender : (option inner).render = "Option<".toList ++ inner.render ++ ['>'] := rfl
  simp [hrender, appliedText, commaList]

@[simp] theorem render_vec (inner : TypeTree) :
    (vec inner).render = appliedText "Vec".toList [inner.render] := by
  have hrender : (vec inner).render = "Vec<".toList ++ inner.render ++ ['>'] := rfl
  simp [hrender, appliedText, commaList]

/-- An array is written with its element and its length in square brackets. -/
@[simp] theorem render_array (element : TypeTree) (length : UInt64) :
    (array element length).render = arrayText element.render length := by
  have hrender : (array element length).render =
      ['['] ++ element.render ++ [';', ' '] ++ decimal length.toNat ++ [']'] := rfl
  simp [hrender, arrayText]

/-- A tuple is written as a list in round brackets. -/
@[simp] theorem render_tuple (items : List TypeTree) :
    (tuple items).render = tupleText (items.map render) := by
  have hrender : (tuple items).render = ['('] ++ commaList (renderItems items) ++ [')'] := rfl
  simp [hrender, tupleText, renderItems_eq_map]

/-- A map is written like a name with two arguments. -/
@[simp] theorem render_hashMap (key value : TypeTree) :
    (hashMap key value).render = appliedText "HashMap".toList [key.render, value.render] := by
  have hrender : (hashMap key value).render =
      "HashMap<".toList ++ key.render ++ [',', ' '] ++ value.render ++ ['>'] := rfl
  simp [hrender, appliedText, commaList, List.intercalate_cons_cons]

@[simp] theorem render_bTreeMap (key value : TypeTree) :
    (bTreeMap key value).render = appliedText "BTreeMap".toList [key.render, value.render] := by
  have hrender : (bTreeMap key value).render =
      "BTreeMap<".toList ++ key.render ++ [',', ' '] ++ value.render ++ ['>'] := rfl
  simp [hrender, appliedText, commaList, List.intercalate_cons_cons]

/-- A reference is written as its name, in front of its arguments if there are any. -/
theorem render_reference (name : String) (arguments : List TypeTree) :
    (reference name arguments).render =
      if arguments = [] then name.toList
      else appliedText name.toList (arguments.map render) := by
  have hrender : (reference name arguments).render = name.toList ++
      (if arguments.isEmpty then [] else ['<'] ++ commaList (renderItems arguments) ++ ['>']) :=
    rfl
  rw [hrender]
  cases arguments with
  | nil => simp
  | cons first rest => simp [appliedText, renderItems_eq_map]

/-- A reference without arguments is written as its name. -/
@[simp] theorem render_bare (name : String) : (bare name).render = name.toList := by
  rw [render_reference, if_pos rfl]

theorem render_applied {name : String} {arguments : List TypeTree} (h : arguments ≠ []) :
    (reference name arguments).render = appliedText name.toList (arguments.map render) := by
  rw [render_reference, if_neg h]

/-! ## Ends of written forms -/

/-- A name in front of arguments ends in a bracket, so it is trimmed if the name is. -/
theorem trimmed_appliedText {name : List Char} (h : Trimmed name)
    (arguments : List (List Char)) : Trimmed (appliedText name arguments) := by
  unfold appliedText
  cases name with
  | nil => exact trimmed_of_ends (by decide) (by decide)
  | cons c rest => exact trimmed_of_ends h.head (by decide)

/-- A tuple begins and ends with a bracket. -/
theorem trimmed_tupleText (items : List (List Char)) : Trimmed (tupleText items) :=
  trimmed_of_ends (by decide) (by decide)

theorem trimmed_arrayText (element : List Char) (length : UInt64) :
    Trimmed (arrayText element length) :=
  trimmed_of_ends (by decide) (by decide)

theorem appliedText_ne_nil (name : List Char) (arguments : List (List Char)) :
    appliedText name arguments ≠ [] := by
  simp [appliedText]

theorem tupleText_ne_nil (items : List (List Char)) : tupleText items ≠ [] := by
  simp [tupleText]

theorem arrayText_ne_nil (element : List Char) (length : UInt64) :
    arrayText element length ≠ [] := by
  simp [arrayText]

/-- Only a reference without a name is written as nothing. -/
theorem render_eq_nil_iff {tree : TypeTree} : tree.render = [] ↔ tree = .bare "" := by
  constructor
  · intro h
    cases tree with
    | primitive p => cases p <;> cases h
    | option inner =>
      rw [render_option] at h
      exact absurd h (appliedText_ne_nil _ _)
    | vec inner =>
      rw [render_vec] at h
      exact absurd h (appliedText_ne_nil _ _)
    | array element length =>
      rw [render_array] at h
      exact absurd h (arrayText_ne_nil _ _)
    | tuple items =>
      rw [render_tuple] at h
      exact absurd h (tupleText_ne_nil _)
    | hashMap key value =>
      rw [render_hashMap] at h
      exact absurd h (appliedText_ne_nil _ _)
    | bTreeMap key value =>
      rw [render_bTreeMap] at h
      exact absurd h (appliedText_ne_nil _ _)
    | reference name arguments =>
      by_cases harguments : arguments = []
      · subst harguments
        rw [render_bare, String.toList_eq_nil_iff] at h
        rw [h]
      · rw [render_applied harguments] at h
        exact absurd h (appliedText_ne_nil _ _)
  · rintro rfl
    exact render_bare ""

/-! ## Written forms are enclosed -/

/-- No scanner cuts a number. -/
theorem enclosed_decimal (n : Nat) : Enclosed (decimal n) :=
  enclosed_of_plain fun _ hc => isDelimiter_of_isDigit (isDigit_of_mem_decimal hc)

/-- No scanner cuts a name in front of arguments that are not cut. -/
theorem enclosed_appliedText {name : List Char} {arguments : List (List Char)}
    (hname : Enclosed name) (h : ∀ argument ∈ arguments, Enclosed argument) :
    Enclosed (appliedText name arguments) := by
  have hbrackets := (enclosedWithin_commaList h).angled
  simpa [appliedText] using hname.append hbrackets

/-- Nor does one cut a tuple of such items. -/
theorem enclosed_tupleText {items : List (List Char)} (h : ∀ item ∈ items, Enclosed item) :
    Enclosed (tupleText items) :=
  (enclosedWithin_commaList h).rounded

/-- Nor an array of such an element. -/
theorem enclosed_arrayText {element : List Char} (h : Enclosed element) (length : UInt64) :
    Enclosed (arrayText element length) := by
  have hmark : Enclosed [';', ' '] := enclosed_of_plain (by decide)
  have hinside := (h.append hmark).append (enclosed_decimal length.toNat)
  simpa [arrayText] using hinside.within.squared

end TypeTree

/-! ## Items and blanks -/

/-- Blanks in front of a text belong to its first item. -/
theorem CutsItems.pad_front {before text : List Char} {pieces : List (List Char)}
    (hb : Blanks before) (h : CutsItems text pieces) :
    ∃ padded, CutsItems (before ++ text) padded ∧ padded.map trim = pieces.map trim := by
  cases h with
  | @last text depth walk =>
    have hwalk : itemWalk 0 (before ++ text) = some depth := by
      simp [itemWalk_append, itemWalk_plain 0 (plain_blanks hb), walk]
    exact ⟨[before ++ text], .last hwalk, by simp [trim_blanks_append hb]⟩
  | @more piece rest pieces walk others =>
    refine ⟨(before ++ piece) :: pieces, ?_, by simp [trim_blanks_append hb]⟩
    have hwalk : itemWalk 0 (before ++ piece) = some 0 := by
      simp [itemWalk_append, itemWalk_plain 0 (plain_blanks hb), walk]
    simpa using CutsItems.more hwalk others

/-- Blanks behind a text belong to its last item. -/
theorem CutsItems.pad_back {text after : List Char} {pieces : List (List Char)}
    (h : CutsItems text pieces) (ha : Blanks after) :
    ∃ padded, CutsItems (text ++ after) padded ∧ padded.map trim = pieces.map trim := by
  induction h with
  | @last text depth walk =>
    have hwalk : itemWalk 0 (text ++ after) = some depth := by
      simp [itemWalk_append, itemWalk_plain depth (plain_blanks ha), walk]
    exact ⟨[text ++ after], .last hwalk, by simp [trim_append_blanks text ha]⟩
  | @more piece rest pieces walk others ih =>
    obtain ⟨padded, hpadded, htrim⟩ := ih
    refine ⟨piece :: padded, ?_, by simp [htrim]⟩
    simpa using CutsItems.more walk hpadded

/-- Blanks around a text do not matter for its items. -/
theorem commaItems_trim (text : List Char) : commaItems (trim text) = commaItems text := by
  obtain ⟨before, after, hb, ha, htext⟩ := exists_pad text
  obtain ⟨pieces, hpieces⟩ := exists_cutsItems (trim text)
  obtain ⟨front, hfront, hfronttrim⟩ := hpieces.pad_front hb
  obtain ⟨padded, hpadded, htrim⟩ := hfront.pad_back ha
  rw [← htext] at hpadded
  rw [commaItems_of_cuts hpieces, commaItems_of_cuts hpadded, htrim, hfronttrim]

/-- The items of a list in round brackets, but for the one that is empty. -/
theorem Builtin.tupleItems_of_cuts {text : List Char} {pieces : List (List Char)}
    (h : CutsItems text pieces) (hne : pieces.map trim ≠ [[]]) :
    tupleItems text = pieces.map trim := by
  have hempty : (trim text).isEmpty = false := by
    rw [Bool.eq_false_iff]
    intro hempty
    have hblanks : Blanks text := trim_eq_nil_iff.mp (List.isEmpty_iff.mp hempty)
    cases h with
    | last walk => exact hne (by simpa using trim_eq_nil_iff.mpr hblanks)
    | more walk others =>
      have hcomma := hblanks ',' (by simp)
      exact absurd hcomma (by decide)
  rw [tupleItems, hempty, commaItems_trim, commaItems_of_cuts h]
  rfl

/-! ## Shapes of written forms -/

namespace Builtin

/-- A name in front of so many arguments that a built-in rule is for. -/
def Covers (name : List Char) (count : Nat) : Prop :=
  (count = 1 ∧ (name = "Vec".toList ∨ name = "Option".toList)) ∨
    (count = 2 ∧ isMapName name = true)

instance (name : List Char) (count : Nat) : Decidable (Covers name count) :=
  inferInstanceAs (Decidable (_ ∨ _))

end Builtin

namespace Shape

open Builtin TypeTree

/-- What a name in front of arguments is read as: a list, an option or a map, if there is a
built-in rule for it, and else what it says itself. -/
theorem ofApplication_cases (text name : List Char) (arguments : List (List Char)) :
    (arguments = [] ∧ ofApplication text name arguments = .bare text) ∨
    (∃ inner, arguments = [inner] ∧ name = "Vec".toList ∧
      ofApplication text name arguments = .vec inner) ∨
    (∃ inner, arguments = [inner] ∧ name = "Option".toList ∧
      ofApplication text name arguments = .option inner) ∨
    (∃ key value, arguments = [key, value] ∧ isMapName name = true ∧
      ofApplication text name arguments = .map (lastSegment name) key value) ∨
    (arguments ≠ [] ∧ ¬ Covers name arguments.length ∧
      ofApplication text name arguments = .applied name arguments) := by
  rcases arguments with _ | ⟨first, _ | ⟨second, _ | ⟨third, rest⟩⟩⟩
  · exact .inl ⟨rfl, rfl⟩
  · by_cases hvec : name = "Vec".toList
    · exact .inr (.inl ⟨first, rfl, hvec, if_pos hvec⟩)
    by_cases hoption : name = "Option".toList
    · refine .inr (.inr (.inl ⟨first, rfl, hoption, ?_⟩))
      rw [ofApplication, if_neg hvec, if_pos hoption]
    · have hcovers : ¬ Covers name [first].length := by
        rintro (⟨-, hname | hname⟩ | ⟨hcount, -⟩)
        · exact hvec hname
        · exact hoption hname
        · cases hcount
      refine .inr (.inr (.inr (.inr ⟨List.cons_ne_nil _ _, hcovers, ?_⟩)))
      rw [ofApplication, if_neg hvec, if_neg hoption]
  · by_cases hmap : isMapName name = true
    · exact .inr (.inr (.inr (.inl ⟨first, second, rfl, hmap, if_pos hmap⟩)))
    · exact .inr (.inr (.inr (.inr
        ⟨List.cons_ne_nil _ _, by simp [Covers, hmap], if_neg hmap⟩)))
  · exact .inr (.inr (.inr (.inr ⟨List.cons_ne_nil _ _, by simp [Covers], rfl⟩)))

/-- A name in front of arguments that no built-in rule is for. -/
theorem ofApplication_of_not_covers {text name : List Char} {arguments : List (List Char)}
    (hne : arguments ≠ []) (h : ¬ Covers name arguments.length) :
    ofApplication text name arguments = .applied name arguments := by
  rcases ofApplication_cases text name arguments with ⟨rfl, -⟩ | ⟨inner, rfl, hvec, -⟩ |
    ⟨inner, rfl, hoption, -⟩ | ⟨key, value, rfl, hmap, -⟩ | ⟨-, -, hshape⟩
  · exact absurd rfl hne
  · exact absurd (.inl ⟨rfl, .inl hvec⟩) h
  · exact absurd (.inl ⟨rfl, .inr hoption⟩) h
  · exact absurd (.inr ⟨rfl, hmap⟩) h
  · exact hshape

/-- The name of lists in front of one argument makes a list. -/
theorem ofApplication_vec (text inner : List Char) :
    ofApplication text "Vec".toList [inner] = .vec inner := by
  rw [ofApplication, if_pos rfl]

/-- The name of options does the same. -/
theorem ofApplication_option (text inner : List Char) :
    ofApplication text "Option".toList [inner] = .option inner := by
  rw [ofApplication, if_neg (by decide), if_pos rfl]

/-- A map by its name, whichever it is. -/
theorem ofApplication_map {name : List Char} (h : isMapName name = true)
    (text key value : List Char) :
    ofApplication text name [key, value] = .map (lastSegment name) key value := by
  rw [ofApplication, if_pos h]

/-- A written name with arguments is decided by them, where they stay apart. -/
theorem ofText_appliedText {name : List Char} {arguments : List (List Char)}
    (hname : '<' ∉ name) (hne : arguments ≠ []) (h : ApartAsArguments arguments) :
    ofText (appliedText name arguments) =
      ofApplication (appliedText name arguments) (trim name) (arguments.map trim) := by
  have hcuts : CutsArguments (commaList arguments ++ ['>']) (spaced arguments) := by
    rw [commaList_eq]
    exact cutsArguments_of_apart (spaced_ne_nil hne) (apartAsArguments_spaced.mpr h) []
  have hshape := ofText_angle hname hcuts
  rwa [map_trim_spaced] at hshape

/-- A written tuple is read as one, where its items stay apart. -/
theorem ofText_tupleText {items : List (List Char)} (hne : items.map trim ≠ [[]])
    (h : ApartAsItems items) : ofText (tupleText items) = .tuple (items.map trim) := by
  rw [tupleText, ofText_round]
  cases items with
  | nil => rfl
  | cons first rest =>
    have hcuts : CutsItems (commaList (first :: rest)) (spaced (first :: rest)) := by
      rw [commaList_eq]
      exact cutsItems_of_apart (spaced_ne_nil (List.cons_ne_nil _ _)) (apartAsItems_spaced.mpr h)
    have hspaced : (spaced (first :: rest)).map trim ≠ [[]] := by
      rw [map_trim_spaced]
      exact hne
    rw [tupleItems_of_cuts hcuts hspaced, map_trim_spaced]

/-- A written array is read as one. -/
theorem ofText_arrayText (element : List Char) (length : UInt64) :
    ofText (arrayText element length) = .array element length := by
  have hmark : ';' ∉ ' ' :: decimal length.toNat := by
    intro h
    rcases List.mem_cons.mp h with h | h
    · exact absurd h (by decide)
    · exact not_mem_decimal (by decide) length.toNat h
  have hlength : readWord? (trim (' ' :: decimal length.toNat)) = some length := by
    rw [trim_space_cons, show trim (decimal length.toNat) = _ from trimmed_decimal length.toNat]
    exact readWord?_decimal length
  exact ofText_square hmark hlength

end Shape

end CanonicalIdl
