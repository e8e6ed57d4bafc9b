import CanonicalIdl.Proofs.Resolution.Levels
import CanonicalIdl.Proofs.Resolution.Refusals
import CanonicalIdl.Proofs.Resolution.WellNested

/-!
# Fragments in the place of names

A text that no rule accepts is cut at its first `<`, wherever that stands.  If it stands in
round or square brackets, what is left of it on either side is a fragment: brackets in it
are opened and never closed.  A fragment comes about in one more way.  A tuple and an array
are told by their first and last characters only, and these need not belong together.

Where neither happens, at none of the levels that are followed, a well nested expression is
made of well nested ones down to the names in it.  Where one of them does happen, it leaves a
trace: a name that is not well nested, or brackets without partners in the text behind a list
of arguments, which is lost.

Main results:

- Theorem `names_tree`: the names in a tree, by the shape that it is read from.
- Theorem `wellNested_of_mem_parts`: the parts of a well nested text are well nested.
- Theorem `names_ofText_wellNested_iff`: when all names in a tree are well nested.
- Theorem `wellNested_names_and_tails_iff`: when what is lost is well nested as well.
-/

namespace CanonicalIdl

open Text

/-! ## Names in shapes -/

/-- The names in a tree are that of its root, if it has one, and those in its children. -/
theorem TypeTree.names_eq (tree : TypeTree) :
    tree.names = tree.referenceName?.toList ++ tree.children.flatMap names := by
  have hflat : (tree.children.flatMap walk).filterMap referenceName? =
      tree.children.flatMap names := List.filterMap_flatMap
  rw [names, walk_eq, List.filterMap_cons, hflat]
  cases tree.referenceName? <;> rfl

namespace Shape

/-- The name of the reference that a shape is read as. -/
def name? : Shape → Option String
  | .bare name => some (String.ofList name)
  | .applied name _ => some (String.ofList name)
  | _ => none

/-- The names in the tree of a shape are its own, if it has one, and those in its parts. -/
theorem names_tree (read : List Char → TypeTree) (shape : Shape) :
    (shape.tree .standard read).names =
      shape.name?.toList ++ shape.parts.flatMap fun part => (read part).names := by
  cases shape with
  | primitive p => cases p <;> rfl
  | node => rfl
  | map base key value =>
    rw [tree, Builtin.mapTree]
    split
    · simp [TypeTree.names_eq (.bTreeMap _ _), TypeTree.referenceName?, TypeTree.children, parts,
        name?]
    split
    · simp [TypeTree.names_eq (.vec _), TypeTree.names_eq (.tuple _), TypeTree.referenceName?,
        TypeTree.children, parts, name?]
    · simp [TypeTree.names_eq (.hashMap _ _), TypeTree.referenceName?, TypeTree.children, parts,
        name?]
  | _ =>
    rw [tree, TypeTree.names_eq]
    simp [TypeTree.referenceName?, TypeTree.children, parts, name?, List.flatMap_map]

/-! ## Texts in front of arguments -/

/-- The parts of a text by its name and arguments are the arguments. -/
theorem parts_ofApplication (text name : List Char) (arguments : List (List Char)) :
    (ofApplication text name arguments).parts = arguments := by
  rcases ofApplication_cases text name arguments with ⟨rfl, hshape⟩ | ⟨inner, rfl, -, hshape⟩ |
    ⟨inner, rfl, -, hshape⟩ | ⟨key, value, rfl, -, hshape⟩ | ⟨-, -, hshape⟩ <;>
    exact congrArg parts hshape

end Shape

/-- The names that built-in rules are for hold no delimiters. -/
theorem Builtin.Covers.plain {name : List Char} {count : Nat} (h : Covers name count) :
    Plain name := by
  rcases h with ⟨-, rfl | rfl⟩ | ⟨-, hmap⟩
  · decide
  · decide
  · rw [isMapName, Bool.and_eq_true] at hmap
    exact (isName_of_isQualifiedName hmap.1).plain

/-- A text that is read as a number between blanks holds no delimiters. -/
theorem plain_of_readWord? {text : List Char} {n : UInt64}
    (h : readWord? (trim text) = some n) : Plain text := by
  obtain ⟨number, hdigits, -⟩ := Option.bind_eq_some_iff.mp h
  have hall := (length_decimal_le hdigits).1
  intro c hc
  cases hblank : isBlank c with
  | true => exact isDelimiter_of_isBlank hblank
  | false =>
    by_cases hplus : c = '+'
    · subst hplus
      rfl
    · have hmem : c ∈ trim text := mem_trim hblank hc
      refine isDelimiter_of_isDigit (hall c ?_)
      unfold withoutPlus
      split
      · next hsign =>
        rw [hsign] at hmem
        exact (List.mem_cons.mp hmem).resolve_left hplus
      · exact hmem

/-! ## Brackets that belong together -/

/-- Tuples and arrays. -/
def Shape.isGroup : Shape → Bool
  | .tuple _ => true
  | .array _ _ => true
  | _ => false

/-- Names in front of arguments that no built-in rule is for. -/
def Shape.isApplied : Shape → Bool
  | .applied _ _ => true
  | _ => false

/-- A name in front of arguments is neither. -/
theorem Shape.isGroup_ofApplication (text name : List Char) (arguments : List (List Char)) :
    (ofApplication text name arguments).isGroup = false := by
  rcases ofApplication_cases text name arguments with ⟨rfl, hshape⟩ | ⟨inner, rfl, -, hshape⟩ |
    ⟨inner, rfl, -, hshape⟩ | ⟨key, value, rfl, -, hshape⟩ | ⟨-, -, hshape⟩ <;>
    exact congrArg isGroup hshape

/-- A name in front of arguments that a built-in rule is for is no reference. -/
theorem Shape.name?_ofApplication {name : List Char} {arguments : List (List Char)}
    (h : Builtin.Covers name arguments.length) (text : List Char) :
    (ofApplication text name arguments).name? = none ∧
      (ofApplication text name arguments).isApplied = false := by
  rcases ofApplication_cases text name arguments with ⟨rfl, -⟩ | ⟨inner, rfl, -, hshape⟩ |
    ⟨inner, rfl, -, hshape⟩ | ⟨key, value, rfl, -, hshape⟩ | ⟨-, hcovers, -⟩
  · simp [Builtin.Covers] at h
  · rw [hshape]
    exact ⟨rfl, rfl⟩
  · rw [hshape]
    exact ⟨rfl, rfl⟩
  · rw [hshape]
    exact ⟨rfl, rfl⟩
  · exact absurd h hcovers

/-- A text is read as its own name, as the name in front of its first `<`, or as no reference. -/
theorem Shape.ofText_name_cases (text : List Char) :
    ofText text = .bare text ∨
      (∃ arguments, ofText text = .applied (trim (Application.front text)) arguments) ∨
      ((ofText text).name? = none ∧ (ofText text).isApplied = false) := by
  have hnone : ∀ {shape : Shape}, ofText text = shape →
      shape.name? = none ∧ shape.isApplied = false →
      (ofText text).name? = none ∧ (ofText text).isApplied = false := by
    rintro shape rfl h
    exact h
  rcases ofText_cases text with ⟨p, -, hshape⟩ | ⟨-, hshape⟩ | ⟨inner, -, hshape⟩ |
    ⟨element, length, n, -, -, -, hshape⟩ | hshape
  · exact .inr (.inr (hnone hshape ⟨rfl, rfl⟩))
  · exact .inr (.inr (hnone hshape ⟨rfl, rfl⟩))
  · exact .inr (.inr (hnone hshape ⟨rfl, rfl⟩))
  · exact .inr (.inr (hnone hshape ⟨rfl, rfl⟩))
  · have hname : (Application.ofText text).name = trim (Application.front text) := rfl
    rw [hname] at hshape
    by_cases hne : (Application.ofText text).arguments = []
    · rw [hne] at hshape
      exact .inl hshape
    by_cases hcovers : Builtin.Covers (trim (Application.front text))
        (Application.ofText text).arguments.length
    · exact .inr (.inr (hnone hshape (name?_ofApplication hcovers text)))
    · rw [ofApplication_of_not_covers hne hcovers] at hshape
      exact .inr (.inl ⟨_, hshape⟩)

/-- If the text is a tuple or an array, its last bracket closes its first one. -/
def EndsPaired (text : List Char) : Prop :=
  (Shape.ofText text).isGroup = true → WellNested text.tail.dropLast

/-- If the text is a name in front of arguments, the first `<` stands outside of all other
brackets. -/
def AngleOutside (text : List Char) : Prop :=
  (Shape.ofText text).isApplied = true → WellNested (Application.front text)

/-- What stands behind the bracket that closes a list of arguments, where so many angle brackets
of the list are open. -/
def behindList? : Nat → List Char → Option (List Char)
  | _, [] => none
  | angles, c :: rest =>
    if c = '<' then behindList? (angles + 1) rest
    else if c = '>' then
      match angles with
      | 0 => some rest
      | angles + 1 => behindList? angles rest
    else behindList? angles rest

/-- If the text has a list of arguments, the list is closed and what stands behind it is well
nested. -/
def TailNested (text : List Char) : Prop :=
  (Shape.ofText text).isGroup = false → (Shape.ofText text).parts ≠ [] →
    ∃ tail ∈ behindList? 0 (Application.behind text), WellNested tail

/-- What stands between the ends of a text in brackets. -/
theorem EndsPaired.inside {opening closing : Char} {inner : List Char}
    (h : EndsPaired (opening :: inner ++ [closing]))
    (hgroup : (Shape.ofText (opening :: inner ++ [closing])).isGroup = true) :
    WellNested inner := by
  have hinner := h hgroup
  rwa [List.cons_append, List.tail_cons, List.dropLast_concat] at hinner

instance (text : List Char) : Decidable (EndsPaired text) :=
  inferInstanceAs (Decidable (_ → _))

instance (text : List Char) : Decidable (AngleOutside text) :=
  inferInstanceAs (Decidable (_ → _))

instance (text : List Char) : Decidable (TailNested text) :=
  inferInstanceAs (Decidable (_ → _ → ∃ tail ∈ _, WellNested tail))

theorem endsPaired_of_inside {opening closing : Char} {inner : List Char}
    (h : WellNested inner) : EndsPaired (opening :: inner ++ [closing]) := by
  intro _
  rwa [List.cons_append, List.tail_cons, List.dropLast_concat]

/-- What stands in front of arguments is well nested: it is a name that a built-in rule is for, or
no bracket is open in it. -/
theorem AngleOutside.front {text : List Char} (h : AngleOutside text)
    (hshape : Shape.ofText text = .ofApplication text (Application.ofText text).name
      (Application.ofText text).arguments)
    (hne : (Application.ofText text).arguments ≠ []) : WellNested (Application.front text) := by
  by_cases hcovers : Builtin.Covers (trim (Application.front text))
      (Application.ofText text).arguments.length
  · exact wellNested_trim.mp (wellNested_plain hcovers.plain)
  · refine h ?_
    rw [hshape]
    exact congrArg Shape.isApplied (Shape.ofApplication_of_not_covers hne hcovers)

/-- No bracket is open in front of the arguments if the name that is read is well nested. -/
theorem angleOutside_of_name {text : List Char}
    (h : ∀ name ∈ (Shape.ofText text).name?, WellNested name.toList) : AngleOutside text := by
  intro happlied
  rcases Shape.ofText_name_cases text with hshape | ⟨arguments, hshape⟩ | ⟨-, hnot⟩
  · rw [hshape] at happlied
    cases happlied
  · have hname := h _ (by rw [hshape]; rfl)
    rwa [String.toList_ofList, wellNested_trim] at hname
  · rw [hnot] at happlied
    cases happlied

/-- The texts at each of so many levels of an expression have a property. -/
def AtEachLevel (P : List Char → Prop) : Nat → List Char → Prop
  | 0, _ => True
  | levels + 1, text =>
    P (trim text) ∧ ∀ part ∈ (Shape.ofText (trim text)).parts, AtEachLevel P levels part

instance AtEachLevel.decidable (P : List Char → Prop) [DecidablePred P] :
    (levels : Nat) → (text : List Char) → Decidable (AtEachLevel P levels text)
  | 0, _ => .isTrue trivial
  | levels + 1, _ =>
    have := decidable P levels
    inferInstanceAs (Decidable (_ ∧ ∀ part ∈ _, AtEachLevel P levels part))

/-! ## One level -/

/-- The parts of a well nested text are well nested, unless a bracket is taken for the partner
of another one or is left open in front of the arguments. -/
theorem wellNested_of_mem_parts {text : List Char} (h : WellNested text) (hends : EndsPaired text)
    (hangle : AngleOutside text) : ∀ part ∈ (Shape.ofText text).parts, WellNested part := by
  have htrims : ∀ {pieces : List (List Char)}, (∀ piece ∈ pieces, WellNested piece) →
      ∀ part ∈ pieces.map trim, WellNested part := by
    intro pieces hpieces
    exact List.forall_mem_map.mpr fun piece hpiece => wellNested_trim.mpr (hpieces piece hpiece)
  rcases Shape.ofText_cases text with ⟨p, -, hshape⟩ | ⟨-, hshape⟩ | ⟨inner, rfl, hshape⟩ |
    ⟨element, length, n, rfl, -, hn, hshape⟩ | hshape
  · rw [hshape]
    intro part hpart
    cases hpart
  · rw [hshape]
    intro part hpart
    cases hpart
  · have hinner : WellNested inner := hends.inside (by rw [hshape]; rfl)
    rw [hshape, Shape.parts, Builtin.tupleItems]
    split
    · intro part hpart
      cases hpart
    · obtain ⟨pieces, hcuts⟩ := exists_cutsItems inner
      rw [commaItems_trim, commaItems_of_cuts hcuts]
      exact htrims (hcuts.wellNested hinner)
  · have hinner : WellNested (element ++ ';' :: length) := hends.inside (by rw [hshape]; rfl)
    have hlength : Plain (';' :: length) :=
      List.forall_mem_cons.mpr ⟨rfl, plain_of_readWord? hn⟩
    rw [hshape]
    intro part hpart
    rw [List.mem_singleton.mp hpart]
    exact hinner.of_append_plain hlength
  · by_cases hne : (Application.ofText text).arguments = []
    · rw [hshape, Shape.parts_ofApplication, hne]
      intro part hpart
      cases hpart
    have hfront := hangle.front hshape hne
    obtain ⟨name, rest, pieces, hname, rfl, hcuts, happlication⟩ := Application.exists_angle hne
    rw [Application.front_append hname] at hfront
    rw [hshape, Shape.parts_ofApplication, happlication]
    exact htrims (hcuts.wellNested ((wellNested_append_angle hfront).mp h))

/-! ## Text behind lists of arguments -/

/-- A scanner of arguments and `behindList?` count the same angle brackets. -/
theorem behindList?_cons {opened next : OpenBrackets} {c : Char}
    (h : argumentStep opened c = some next) (rest : List Char) :
    behindList? opened.angles (c :: rest) = behindList? next.angles rest := by
  obtain ⟨angles, groups⟩ := opened
  rw [argumentStep_eq] at h
  rcases bracket_cases c with rfl | rfl | rfl | rfl | rfl | rfl | ⟨hmark, hlt, hgt, -, -⟩
  · cases h
    rfl
  · cases h
    rfl
  · cases h
    rfl
  · cases angles with
    | zero => cases h
    | succ angles =>
      cases h
      rfl
  · cases h
    rfl
  · cases h
    rfl
  · simp only [hmark] at h
    split at h
    · cases h
    · cases h
      simp only [behindList?, if_neg hlt, if_neg hgt]

theorem behindList?_append {opened next : OpenBrackets} {piece : List Char}
    (h : argumentWalk opened piece = some next) (rest : List Char) :
    behindList? opened.angles (piece ++ rest) = behindList? next.angles rest := by
  induction piece generalizing opened with
  | nil =>
    cases h
    rfl
  | cons c piece ih =>
    rw [argumentWalk_cons] at h
    obtain ⟨between, hstep, hwalk⟩ := Option.bind_eq_some_iff.mp h
    rw [List.cons_append, behindList?_cons hstep, ih hwalk]

/-- Nothing stands behind a list that is not closed. -/
theorem behindList?_of_walk {text : List Char} {opened : OpenBrackets}
    (h : argumentWalk .outside text = some opened) : behindList? 0 text = none := by
  have hend := behindList?_append h []
  rwa [List.append_nil] at hend

/-- What stands behind the list of a well nested text is well nested. -/
theorem CutsArguments.wellNested_behind {text : List Char} {pieces : List (List Char)}
    (h : CutsArguments text pieces) (hnest : nestWalk [.angle] text = some []) :
    ∃ tail ∈ behindList? 0 text, WellNested tail := by
  induction h with
  | unclosed walk =>
    -- The bracket of the list would still be open at the end.
    obtain ⟨inner, -, hopened, -⟩ := @nestWalk_of_argumentWalk [] _ _ _ hnest walk
    simp at hopened
  | @last piece rest groups walk =>
    obtain ⟨-, hrest⟩ := wellNested_of_last walk hnest
    exact ⟨rest, behindList?_append walk ('>' :: rest), hrest⟩
  | @more piece rest pieces walk others ih =>
    obtain ⟨-, hrest⟩ := wellNested_of_more walk hnest
    obtain ⟨tail, htail, hnested⟩ := ih hrest
    exact ⟨tail, (behindList?_append walk (',' :: rest)).trans htail, hnested⟩

/-- A list that is closed is well nested with what stands behind it if all of its arguments
are. -/
theorem CutsArguments.nestWalk_eq {text tail : List Char} {pieces : List (List Char)}
    (h : CutsArguments text pieces) (hpieces : ∀ piece ∈ pieces, WellNested piece)
    (htail : behindList? 0 text = some tail) (hnested : WellNested tail) :
    nestWalk [.angle] text = some [] := by
  induction h with
  | unclosed walk =>
    rw [behindList?_of_walk walk] at htail
    cases htail
  | @last piece rest groups walk =>
    have hrest := behindList?_append walk ('>' :: rest)
    obtain rfl : rest = tail := Option.some.inj (hrest.symm.trans htail)
    have hpiece := hpieces piece List.mem_cons_self
    rw [nestWalk_append, hpiece.walk]
    exact hnested
  | @more piece rest pieces walk others ih =>
    obtain ⟨hpiece, hothers⟩ := List.forall_mem_cons.mp hpieces
    rw [nestWalk_append, hpiece.walk]
    exact ih hothers ((behindList?_append walk (',' :: rest)).symm.trans htail)

/-- Where no bracket is open in front of the arguments of a well nested text, none is left open
behind them. -/
theorem tailNested_of_wellNested {text : List Char} (h : WellNested text)
    (hangle : AngleOutside text) : TailNested text := by
  intro hgroup hparts
  rcases Shape.ofText_cases text with ⟨p, -, hshape⟩ | ⟨-, hshape⟩ | ⟨inner, -, hshape⟩ |
    ⟨element, length, n, -, -, -, hshape⟩ | hshape
  · rw [hshape] at hparts
    exact absurd rfl hparts
  · rw [hshape] at hparts
    exact absurd rfl hparts
  · rw [hshape] at hgroup
    cases hgroup
  · rw [hshape] at hgroup
    cases hgroup
  · rw [hshape, Shape.parts_ofApplication] at hparts
    have hfront := hangle.front hshape hparts
    obtain ⟨name, rest, pieces, hname, rfl, hcuts, -⟩ := Application.exists_angle hparts
    rw [Application.front_append hname] at hfront
    rw [Application.behind_append hname]
    exact hcuts.wellNested_behind ((wellNested_append_angle hfront).mp h)

/-- A tuple of well nested items has a well nested inside. -/
theorem wellNested_of_tupleItems {inner : List Char}
    (h : ∀ item ∈ Builtin.tupleItems inner, WellNested item) : WellNested inner := by
  rw [Builtin.tupleItems] at h
  split at h
  · next hempty =>
    rw [← wellNested_trim, List.isEmpty_iff.mp hempty]
    rfl
  · obtain ⟨pieces, hcuts⟩ := exists_cutsItems inner
    rw [commaItems_trim, commaItems_of_cuts hcuts, List.forall_mem_map] at h
    exact hcuts.wellNested_of_pieces fun piece hpiece => wellNested_trim.mp (h piece hpiece)

/-- A text that is decided by its name and arguments is well nested if these and what stands
behind the arguments are. -/
theorem wellNested_of_arguments {text : List Char}
    (hshape : Shape.ofText text = .ofApplication text (Application.ofText text).name
      (Application.ofText text).arguments)
    (hname : ∀ name ∈ (Shape.ofText text).name?, WellNested name.toList)
    (hparts : ∀ part ∈ (Shape.ofText text).parts, WellNested part) (htail : TailNested text)
    (hgroup : (Shape.ofText text).isGroup = false) : WellNested text := by
  by_cases hne : (Application.ofText text).arguments = []
  · have hown := hname (String.ofList text) (by rw [hshape, hne]; rfl)
    rwa [String.toList_ofList] at hown
  have hfront := (angleOutside_of_name hname).front hshape hne
  have harguments : (Shape.ofText text).parts = (Application.ofText text).arguments := by
    rw [hshape, Shape.parts_ofApplication]
  obtain ⟨tail, hlost, hnested⟩ := htail hgroup (by rwa [harguments])
  rw [harguments] at hparts
  obtain ⟨name, rest, pieces, hangles, rfl, hcuts, happlication⟩ := Application.exists_angle hne
  rw [Application.front_append hangles] at hfront
  rw [Application.behind_append hangles] at hlost
  rw [happlication, List.forall_mem_map] at hparts
  have hpieces : ∀ piece ∈ pieces, WellNested piece :=
    fun piece hpiece => wellNested_trim.mp (hparts piece hpiece)
  exact (wellNested_append_angle hfront).mpr (hcuts.nestWalk_eq hpieces hlost hnested)

/-- A text is well nested and its brackets belong together if its name, its parts and what stands
behind its arguments are well nested. -/
theorem wellNested_of_parts {text : List Char}
    (hname : ∀ name ∈ (Shape.ofText text).name?, WellNested name.toList)
    (hparts : ∀ part ∈ (Shape.ofText text).parts, WellNested part) (htail : TailNested text) :
    WellNested text ∧ EndsPaired text := by
  have hpaired : (Shape.ofText text).isGroup = false → EndsPaired text := by
    intro hgroup hpaired
    rw [hgroup] at hpaired
    cases hpaired
  rcases Shape.ofText_cases text with ⟨p, hword, hshape⟩ | ⟨rfl, hshape⟩ | ⟨inner, rfl, hshape⟩ |
    ⟨element, length, n, rfl, -, hn, hshape⟩ | hshape
  · have hplain : Plain text := by
      intro c hc
      by_contra hdelimiter
      rw [Bool.not_eq_false] at hdelimiter
      rw [ofWord?_eq_none hdelimiter hc] at hword
      cases hword
    exact ⟨wellNested_plain hplain, hpaired (by rw [hshape]; rfl)⟩
  · exact ⟨by decide, hpaired (by rw [hshape]; rfl)⟩
  · rw [hshape] at hparts
    have hinner : WellNested inner := wellNested_of_tupleItems hparts
    exact ⟨hinner.enclosed rfl rfl, endsPaired_of_inside hinner⟩
  · rw [hshape] at hparts
    have helement : WellNested element := hparts element List.mem_cons_self
    have hlength : Plain (';' :: length) :=
      List.forall_mem_cons.mpr ⟨rfl, plain_of_readWord? hn⟩
    have hinner := helement.append (wellNested_plain hlength)
    exact ⟨hinner.enclosed rfl rfl, endsPaired_of_inside hinner⟩
  · have hgroup : (Shape.ofText text).isGroup = false := by
      rw [hshape, Shape.isGroup_ofApplication]
    exact ⟨wellNested_of_arguments hshape hname hparts htail hgroup, hpaired hgroup⟩

/-! ## All levels -/

/-- A tree in which all names are well nested was read from texts in which no bracket is open in
front of arguments. -/
theorem atEachLevel_angleOutside {levels : Nat} {text : List Char}
    (h : ∀ name ∈ (TypeTree.readWithin .standard levels text).names, WellNested name.toList) :
    AtEachLevel AngleOutside levels text := by
  induction levels generalizing text with
  | zero => trivial
  | succ levels ih =>
    rw [TypeTree.readWithin, Shape.names_tree] at h
    obtain ⟨hown, hparts⟩ := List.forall_mem_append.mp h
    refine ⟨angleOutside_of_name fun name hname => hown name (Option.mem_toList.mpr hname), ?_⟩
    intro part hpart
    refine ih fun name hname => hparts name ?_
    exact List.mem_flatMap.mpr ⟨part, hpart, hname⟩

/-- Where brackets belong together and none is open in front of arguments, all names in the tree
of a well nested text are well nested. -/
theorem wellNested_of_mem_names {levels : Nat} {text : List Char} (h : WellNested text)
    (hends : AtEachLevel EndsPaired levels text) (hangle : AtEachLevel AngleOutside levels text) :
    ∀ name ∈ (TypeTree.readWithin .standard levels text).names, WellNested name.toList := by
  induction levels generalizing text with
  | zero =>
    intro name hname
    obtain rfl : name = String.ofList (trim text) := by
      simpa [TypeTree.readWithin, TypeTree.names_eq, TypeTree.referenceName?, TypeTree.children]
        using hname
    rwa [String.toList_ofList, wellNested_trim]
  | succ levels ih =>
    have htrim : WellNested (trim text) := wellNested_trim.mpr h
    rw [TypeTree.readWithin, Shape.names_tree]
    refine List.forall_mem_append.mpr ⟨?_, ?_⟩
    · intro name hname
      rcases Shape.ofText_name_cases (trim text) with hshape | ⟨arguments, hshape⟩ | ⟨hnone, -⟩
      · rw [hshape] at hname
        rwa [List.mem_singleton.mp hname, String.toList_ofList]
      · have hfront := hangle.1 (by rw [hshape]; rfl)
        rw [hshape] at hname
        rwa [List.mem_singleton.mp hname, String.toList_ofList, wellNested_trim]
      · rw [hnone] at hname
        cases hname
    · intro name hname
      obtain ⟨part, hpart, hname⟩ := List.mem_flatMap.mp hname
      have hnested := wellNested_of_mem_parts htrim hends.1 hangle.1 part hpart
      exact ih hnested (hends.2 part hpart) (hangle.2 part hpart) name hname

/-- What is lost behind arguments at the levels of a well nested text is well nested, where
brackets belong together and none is open in front of arguments. -/
theorem atEachLevel_tailNested {levels : Nat} {text : List Char} (h : WellNested text)
    (hends : AtEachLevel EndsPaired levels text) (hangle : AtEachLevel AngleOutside levels text) :
    AtEachLevel TailNested levels text := by
  induction levels generalizing text with
  | zero => trivial
  | succ levels ih =>
    have htrim : WellNested (trim text) := wellNested_trim.mpr h
    refine ⟨tailNested_of_wellNested htrim hangle.1, fun part hpart => ?_⟩
    have hnested := wellNested_of_mem_parts htrim hends.1 hangle.1 part hpart
    exact ih hnested (hends.2 part hpart) (hangle.2 part hpart)

/-- A text with well nested names only, from which nothing else is lost, is well nested, and its
brackets belong together at each level. -/
theorem wellNested_of_names {levels : Nat} {text : List Char}
    (hnames : ∀ name ∈ (TypeTree.readWithin .standard levels text).names, WellNested name.toList)
    (htails : AtEachLevel TailNested levels text) :
    WellNested text ∧ AtEachLevel EndsPaired levels text := by
  induction levels generalizing text with
  | zero =>
    refine ⟨?_, trivial⟩
    have hname := hnames (String.ofList (trim text)) (by
      simp [TypeTree.readWithin, TypeTree.names_eq, TypeTree.referenceName?, TypeTree.children])
    rwa [String.toList_ofList, wellNested_trim] at hname
  | succ levels ih =>
    rw [TypeTree.readWithin, Shape.names_tree] at hnames
    obtain ⟨hown, hparts⟩ := List.forall_mem_append.mp hnames
    have hpart : ∀ part ∈ (Shape.ofText (trim text)).parts,
        WellNested part ∧ AtEachLevel EndsPaired levels part := by
      intro part hpart
      refine ih (fun name hname => hparts name ?_) (htails.2 part hpart)
      exact List.mem_flatMap.mpr ⟨part, hpart, hname⟩
    obtain ⟨hnested, hends⟩ := wellNested_of_parts
      (fun name hname => hown name (Option.mem_toList.mpr hname))
      (fun part hmem => (hpart part hmem).1) htails.1
    exact ⟨wellNested_trim.mp hnested, hends, fun part hmem => (hpart part hmem).2⟩

/-- Where the brackets of tuples and arrays belong together, all names in the tree of a well
nested text are well nested exactly if no bracket is open in front of the first `<` of a name
with arguments, at any level. -/
theorem TypeTree.names_ofText_wellNested_iff {s : String} (h : WellNested s.toList)
    (hends : AtEachLevel EndsPaired 64 s.toList) :
    (∀ name ∈ (ofText s).names, WellNested name.toList) ↔
      AtEachLevel AngleOutside 64 s.toList := by
  rw [ofText_eq_readWithin]
  exact ⟨atEachLevel_angleOutside, wellNested_of_mem_names h hends⟩

/-- A map from a pair to an option of an applied name. -/
theorem TypeTree.names_ofText_wellNested_map :
    (ofText "HashMap<(Id<u8>, [Slot; 4]), Option<Pair<A, B>>>").names =
        ["Id", "Slot", "Pair", "A", "B"] ∧
      AtEachLevel AngleOutside 64 "HashMap<(Id<u8>, [Slot; 4]), Option<Pair<A, B>>>".toList := by
  have hmap := @names_ofText_wellNested_iff "HashMap<(Id<u8>, [Slot; 4]), Option<Pair<A, B>>>"
    (by decide +kernel) (by decide +kernel)
  exact ⟨by decide +kernel, hmap.mp (by decide +kernel)⟩

/-- An array without a length is cut at the `<` in it, and a bracket is left open. -/
theorem TypeTree.names_ofText_not_wellNested :
    WellNested "[Vec<u8>; N]".toList ∧ "[Vec" ∈ (ofText "[Vec<u8>; N]").names ∧
      ¬ WellNested "[Vec".toList := by
  decide +kernel

/-- In a well nested text, brackets that do not belong together or stand open in front of
arguments always leave a trace: a name that is not well nested, or text behind a list of arguments
that is not. -/
theorem TypeTree.wellNested_names_and_tails_iff {s : String} (h : WellNested s.toList) :
    ((∀ name ∈ (ofText s).names, WellNested name.toList) ∧
        AtEachLevel TailNested 64 s.toList) ↔
      AtEachLevel EndsPaired 64 s.toList ∧ AtEachLevel AngleOutside 64 s.toList := by
  rw [ofText_eq_readWithin]
  constructor
  · rintro ⟨hnames, htails⟩
    obtain ⟨-, hends⟩ := wellNested_of_names hnames htails
    exact ⟨hends, atEachLevel_angleOutside hnames⟩
  · rintro ⟨hends, hangle⟩
    exact ⟨wellNested_of_mem_names h hends hangle, atEachLevel_tailNested h hends hangle⟩

/-- Two lists side by side are taken for one, and the brackets between them are left alone. -/
example : WellNested "(a)(b)".toList ∧ "a)(b" ∈ (TypeTree.ofText "(a)(b)").names ∧
    ¬ WellNested "a)(b".toList := by
  decide +kernel

/-- Or they are lost behind the arguments of the first list. -/
example : WellNested "(Vec<u8>)(b)".toList ∧
    TypeTree.ofText "(Vec<u8>)(b)" = .tuple [.vec (.primitive .u8)] ∧
    ¬ AtEachLevel TailNested 64 "(Vec<u8>)(b)".toList := by
  decide +kernel

end CanonicalIdl
