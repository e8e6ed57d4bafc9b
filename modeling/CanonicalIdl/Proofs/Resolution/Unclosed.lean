import CanonicalIdl.Proofs.Resolution.FixedPoint
import CanonicalIdl.Proofs.Resolution.WellNested

/-!
# Lists of arguments that are not closed

A list of arguments that is opened and never closed loses its last argument.  What comes of
it depends on the commas.  If all commas stand in further brackets, the last argument is the
only one, no argument is left and the text stays a name as a whole.  A comma outside of all
brackets ends an argument, and then the text is read like a shorter one: as if the list had
been closed at the last such comma.

Main results:

- Theorem `argumentWalk_eq_none_iff`: where no bracket too many is closed, a text is cut
  exactly at a comma outside of its brackets.
- Theorem `CutsArguments.exists_lost`: what follows the last such comma is lost.
- Theorem `ofText_unclosed`: what a text with an unclosed list is read as.
-/

namespace CanonicalIdl

open Text

/-! ## Counting brackets -/

/-- No part that the text starts with closes more angle brackets than it opens. -/
def StaysOpen (text : List Char) : Prop :=
  ∀ front, front <+: text → front.count '>' ≤ front.count '<'

/-- The round and square brackets that are open behind one more character.  A group that is
closed too often stays closed. -/
def groupStep (groups : Nat) (c : Char) : Nat :=
  if opensGroup c then groups + 1 else if closesGroup c then groups - 1 else groups

/-- What stands behind the text stands outside of the brackets in it. -/
def LeavesOutside (text : List Char) : Prop :=
  text.count '<' = text.count '>' ∧ text.foldl groupStep 0 = 0

/-- Some comma of the text stands outside of the brackets in it. -/
def HasOuterComma (text : List Char) : Prop :=
  ∃ front, front ++ [','] <+: text ∧ LeavesOutside front

instance (text : List Char) : Decidable (StaysOpen text) :=
  decidable_of_iff (∀ front ∈ text.inits, front.count '>' ≤ front.count '<')
    (by simp only [List.mem_inits, StaysOpen])

instance (text : List Char) : Decidable (LeavesOutside text) :=
  inferInstanceAs (Decidable (_ ∧ _))

instance (text : List Char) : Decidable (HasOuterComma text) :=
  decidable_of_iff (∃ front ∈ text.inits, front ++ [','] <+: text ∧ LeavesOutside front) <| by
    simp only [List.mem_inits, HasOuterComma]
    refine exists_congr fun front => and_iff_right_of_imp fun h => ?_
    exact (List.prefix_append front [',']).trans h.1

theorem count_cons_eq (bracket c : Char) (rest : List Char) :
    (c :: rest).count bracket = [c].count bracket + rest.count bracket := by
  rw [← List.singleton_append, List.count_append]

/-- A step over a character counts the brackets of each kind. -/
theorem argumentStep_eq_some {opened next : OpenBrackets} {c : Char}
    (h : argumentStep opened c = some next) :
    next.angles + [c].count '>' = opened.angles + [c].count '<' ∧
      next.groups = groupStep opened.groups c := by
  obtain ⟨angles, groups⟩ := opened
  rcases bracket_cases c with rfl | rfl | rfl | rfl | rfl | rfl | ⟨hmark, hlt, hgt, ho, hc⟩
  · cases h
    exact ⟨rfl, rfl⟩
  · cases h
    exact ⟨rfl, rfl⟩
  · cases h
    exact ⟨rfl, rfl⟩
  · cases angles with
    | zero => cases h
    | succ angles =>
      cases h
      exact ⟨rfl, rfl⟩
  · cases h
    exact ⟨rfl, rfl⟩
  · cases h
    exact ⟨rfl, rfl⟩
  · rw [argumentStep_eq] at h
    simp only [hmark] at h
    split at h
    · cases h
    · cases h
      simp [groupStep, hlt, hgt, ho, hc]

/-- So does a walk over a text. -/
theorem argumentWalk_eq_some {opened next : OpenBrackets} {text : List Char}
    (h : argumentWalk opened text = some next) :
    next.angles + text.count '>' = opened.angles + text.count '<' ∧
      next.groups = text.foldl groupStep opened.groups := by
  induction text generalizing opened with
  | nil =>
    cases h
    exact ⟨rfl, rfl⟩
  | cons c rest ih =>
    rw [argumentWalk_cons] at h
    obtain ⟨between, hstep, hwalk⟩ := Option.bind_eq_some_iff.mp h
    obtain ⟨hangles, hgroups⟩ := argumentStep_eq_some hstep
    obtain ⟨hrest, hgroup⟩ := ih hwalk
    refine ⟨?_, by rw [hgroup, hgroups, List.foldl_cons]⟩
    have hlt := count_cons_eq '<' c rest
    have hgt := count_cons_eq '>' c rest
    omega

/-- Where no bracket too many is closed, a text is cut exactly at a comma outside of its
brackets and of those that were open before. -/
theorem argumentWalk_eq_none_iff {opened : OpenBrackets} {text : List Char}
    (h : ∀ front, front <+: text → front.count '>' ≤ opened.angles + front.count '<') :
    argumentWalk opened text = none ↔
      ∃ front, front ++ [','] <+: text ∧ opened.angles + front.count '<' = front.count '>' ∧
        front.foldl groupStep opened.groups = 0 := by
  induction text generalizing opened with
  | nil => simp
  | cons c rest ih =>
    rw [argumentWalk_cons]
    cases hstep : argumentStep opened c with
    | none =>
      refine iff_of_true rfl ?_
      rcases argumentStep_eq_none_iff.mp hstep with ⟨rfl, hangles⟩ | ⟨rfl, rfl⟩
      · have hone := h ['>'] (by simp)
        rw [hangles] at hone
        exact absurd hone (by decide)
      · exact ⟨[], by simp, rfl, rfl⟩
    | some next =>
      -- The brackets that are open behind `c` stand for it in what follows.
      obtain ⟨hangles, hgroups⟩ := argumentStep_eq_some hstep
      have hnext : ∀ front, front <+: rest →
          front.count '>' ≤ next.angles + front.count '<' := by
        intro front hfront
        have hcons := h (c :: front) (List.cons_prefix_cons.mpr ⟨rfl, hfront⟩)
        have hlt := count_cons_eq '<' c front
        have hgt := count_cons_eq '>' c front
        omega
      rw [Option.bind_some, ih hnext]
      constructor
      · rintro ⟨front, hfront, hbalance, hgroup⟩
        refine ⟨c :: front, List.cons_prefix_cons.mpr ⟨rfl, hfront⟩, ?_, ?_⟩
        · have hlt := count_cons_eq '<' c front
          have hgt := count_cons_eq '>' c front
          omega
        · rwa [List.foldl_cons, ← hgroups]
      · rintro ⟨front, hfront, hbalance, hgroup⟩
        cases front with
        | nil =>
          obtain rfl : ',' = c := (List.cons_prefix_cons.mp hfront).1
          have houtside : opened = .outside := by
            obtain ⟨angles, groups⟩ := opened
            cases hbalance
            cases hgroup
            rfl
          rw [argumentStep_eq_none_iff.mpr (.inr ⟨rfl, houtside⟩)] at hstep
          cases hstep
        | cons d front =>
          rw [List.cons_append, List.cons_prefix_cons] at hfront
          obtain ⟨rfl, hfront⟩ := hfront
          refine ⟨front, hfront, ?_, ?_⟩
          · have hlt := count_cons_eq '<' d front
            have hgt := count_cons_eq '>' d front
            omega
          · rwa [List.foldl_cons, ← hgroups] at hgroup

/-! ## Unclosed lists -/

/-- The argument list that a text opens is not closed and not cut exactly if no comma stands
outside of its brackets. -/
theorem StaysOpen.walk_eq_none_iff {text : List Char} (h : StaysOpen text) :
    argumentWalk .outside text = none ↔ HasOuterComma text := by
  have hfronts : ∀ front, front <+: text →
      front.count '>' ≤ OpenBrackets.outside.angles + front.count '<' := by
    intro front hfront
    have hle := h front hfront
    exact hle.trans (Nat.le_add_left _ _)
  rw [argumentWalk_eq_none_iff hfronts]
  simp only [HasOuterComma, LeavesOutside, OpenBrackets.outside, Nat.zero_add]

/-- What is walked over without a cut has no arguments. -/
theorem CutsArguments.eq_nil_iff {text : List Char} {pieces : List (List Char)}
    (h : CutsArguments text pieces) : pieces = [] ↔ argumentWalk .outside text ≠ none := by
  cases h with
  | unclosed walk => simp [walk]
  | @last piece rest groups walk =>
    have hstep : argumentStep ⟨0, groups⟩ '>' = none := rfl
    simp [argumentWalk_append, walk, argumentWalk_cons, hstep]
  | @more piece rest pieces walk others =>
    have hstep : argumentStep .outside ',' = none := rfl
    simp [argumentWalk_append, walk, argumentWalk_cons, hstep]

/-- A list of arguments that is not closed has none exactly if no comma stands outside of the
brackets in it. -/
theorem StaysOpen.pieces_eq_nil_iff {text : List Char} {pieces : List (List Char)}
    (h : StaysOpen text) (hcuts : CutsArguments text pieces) :
    pieces = [] ↔ ¬ HasOuterComma text := by
  rw [hcuts.eq_nil_iff, Ne, h.walk_eq_none_iff]

/-- What stands behind a part that closes all that it opens stays open as well. -/
theorem StaysOpen.of_append {front back : List Char} (h : StaysOpen (front ++ back))
    (hfront : front.count '<' = front.count '>') : StaysOpen back := by
  intro part hpart
  have hle := h (front ++ part) ((List.prefix_append_right_inj front).mpr hpart)
  rw [List.count_append, List.count_append] at hle
  omega

theorem leavesOutside_of_walk {text : List Char}
    (h : argumentWalk .outside text = some .outside) : LeavesOutside text := by
  obtain ⟨hangles, hgroups⟩ := argumentWalk_eq_some h
  refine ⟨?_, hgroups.symm⟩
  simpa [OpenBrackets.outside] using hangles.symm

theorem LeavesOutside.append {front back : List Char} (hfront : LeavesOutside front)
    (hback : LeavesOutside back) : LeavesOutside (front ++ back) := by
  obtain ⟨hangles, hgroups⟩ := hfront
  refine ⟨?_, by rw [List.foldl_append, hgroups, hback.2]⟩
  rw [List.count_append, List.count_append, hangles, hback.1]

theorem leavesOutside_comma : LeavesOutside [','] := by decide

/-- The arguments of a list that is not closed stand in front of the last comma outside of
its brackets, and what follows that comma is lost. -/
theorem CutsArguments.exists_lost {text : List Char} {pieces : List (List Char)}
    (h : CutsArguments text pieces) (hopen : StaysOpen text) (hne : pieces ≠ []) :
    ∃ lost, text = List.intercalate [','] pieces ++ ',' :: lost ∧
      LeavesOutside (List.intercalate [','] pieces) ∧ ¬ HasOuterComma lost := by
  induction h with
  | unclosed walk => exact absurd rfl hne
  | @last piece rest groups walk =>
    -- The `>` that ends the list would be one too many.
    obtain ⟨hangles, -⟩ := argumentWalk_eq_some walk
    have hle := hopen (piece ++ ['>']) ⟨rest, by simp⟩
    rw [List.count_append, List.count_append] at hle
    simp only [OpenBrackets.outside, Nat.zero_add] at hangles
    simp [hangles] at hle
  | @more piece rest pieces walk others ih =>
    have hpiece : LeavesOutside piece := leavesOutside_of_walk walk
    have hcomma : LeavesOutside (piece ++ [',']) := hpiece.append leavesOutside_comma
    have hrest : StaysOpen rest := by
      rw [List.append_cons] at hopen
      exact hopen.of_append hcomma.1
    cases pieces with
    | nil =>
      exact ⟨rest, by rw [List.intercalate_singleton], by rwa [List.intercalate_singleton],
        (hrest.pieces_eq_nil_iff others).mp rfl⟩
    | cons next pieces =>
      obtain ⟨lost, htext, hfront, hlost⟩ := ih hrest (List.cons_ne_nil next pieces)
      refine ⟨lost, ?_, ?_, hlost⟩
      · rw [List.intercalate_cons_cons, htext]
        simp
      · rw [List.intercalate_cons_cons]
        exact hcomma.append hfront

namespace Shape

/-- A name in front of `<` is decided by itself and the arguments, closed or not. -/
theorem ofText_opened {name rest : List Char} {pieces : List (List Char)} (hne : name ≠ [])
    (hname : Plain name) (hcuts : CutsArguments rest pieces) :
    ofText (name ++ '<' :: rest) =
      ofApplication (name ++ '<' :: rest) (trim name) (pieces.map trim) := by
  have hangle : '<' ∉ name := fun hmem => absurd (hname '<' hmem) (by decide)
  have hword : Primitive.ofWord? (name ++ '<' :: rest) = none :=
    ofWord?_eq_none (c := '<') rfl (by simp)
  have hmem : '<' ∈ name ++ '<' :: rest := by simp
  obtain ⟨c, tail, rfl⟩ := List.exists_cons_of_ne_nil hne
  have hc : isDelimiter c = false := hname c List.mem_cons_self
  rcases ofText_cases (c :: tail ++ '<' :: rest) with ⟨p, hp, -⟩ | ⟨hnode, -⟩ |
    ⟨inner, hround, -⟩ | ⟨element, length, n, hsquare, -⟩ | hshape
  · rw [hword] at hp
    cases hp
  · rw [hnode] at hmem
    exact absurd hmem (by decide)
  · obtain rfl := (List.cons.inj hround).1
    cases hc
  · obtain rfl := (List.cons.inj hsquare).1
    cases hc
  · rw [hshape, Application.ofText_angle hangle hcuts]

/-- With arguments, the text that they stand in does not matter. -/
theorem ofApplication_congr {name : List Char} {arguments : List (List Char)}
    (h : arguments ≠ []) (text other : List Char) :
    ofApplication text name arguments = ofApplication other name arguments := by
  rcases arguments with _ | ⟨first, _ | ⟨second, _ | ⟨third, rest⟩⟩⟩
  · exact absurd rfl h
  · rfl
  · rfl
  · rfl

end Shape

namespace TypeTree

/-- With arguments, a name is not read as a reference without any. -/
theorem tree_ofApplication_ne_bare (read : List Char → TypeTree) (text name : List Char)
    {arguments : List (List Char)} (h : arguments ≠ []) (other : String) :
    (Shape.ofApplication text name arguments).tree .standard read ≠ .bare other := by
  intro hbare
  rcases children_tree_ofApplication read text name arguments with
    hchildren | ⟨key, value, -, -, hvec⟩
  · rw [hbare] at hchildren
    exact h (List.map_eq_nil_iff.mp hchildren.symm)
  · rw [hbare] at hvec
    cases hvec

/-- A trimmed name in front of `<` is read by itself and the arguments. -/
theorem ofText_opened {name rest : List Char} {pieces : List (List Char)} (hne : name ≠ [])
    (hname : Plain name) (htrim : Trimmed (name ++ '<' :: rest))
    (hcuts : CutsArguments rest pieces) :
    ofText (String.ofList (name ++ '<' :: rest)) =
      (Shape.ofApplication (name ++ '<' :: rest) (trim name) (pieces.map trim)).tree .standard
        (readWithin .standard 63) := by
  rw [ofText_eq_readWithin, String.toList_ofList,
    show Chain.depthLimit = 63 + 1 from rfl, readWithin_succ _ _ htrim,
    Shape.ofText_opened hne hname hcuts]

/-- A text whose list of arguments is not closed stays a name as a whole exactly if no comma
of the list stands outside of the brackets in it.  Otherwise it is read as if the list were
closed at the last such comma. -/
theorem ofText_unclosed {name rest : List Char} (hne : name ≠ []) (hname : Plain name)
    (htrim : Trimmed (name ++ '<' :: rest)) (hopen : StaysOpen rest) :
    (ofText (String.ofList (name ++ '<' :: rest)) =
        .bare (String.ofList (name ++ '<' :: rest)) ↔ ¬ HasOuterComma rest) ∧
      (HasOuterComma rest → ∃ front lost, rest = front ++ ',' :: lost ∧
        LeavesOutside front ∧ ¬ HasOuterComma lost ∧
        ofText (String.ofList (name ++ '<' :: rest)) =
          ofText (String.ofList (name ++ '<' :: (front ++ ['>'])))) := by
  obtain ⟨pieces, hcuts⟩ := exists_cutsArguments rest
  have hread := ofText_opened hne hname htrim hcuts
  have hnil := hopen.pieces_eq_nil_iff hcuts
  by_cases hpieces : pieces = []
  · have hnone : ¬ HasOuterComma rest := hnil.mp hpieces
    refine ⟨iff_of_true ?_ hnone, fun hcomma => absurd hcomma hnone⟩
    rw [hread, hpieces]
    rfl
  have harguments : pieces.map trim ≠ [] := by simpa using hpieces
  refine ⟨iff_of_false ?_ fun hnone => hpieces (hnil.mpr hnone), fun _ => ?_⟩
  · rw [hread]
    exact tree_ofApplication_ne_bare _ _ _ harguments _
  obtain ⟨lost, hrest, hfront, hlost⟩ := hcuts.exists_lost hopen hpieces
  refine ⟨List.intercalate [','] pieces, lost, hrest, hfront, hlost, ?_⟩
  have hclosed : CutsArguments (List.intercalate [','] pieces ++ ['>']) pieces :=
    cutsArguments_of_apart hpieces hcuts.apart []
  have hends : Trimmed (name ++ '<' :: (List.intercalate [','] pieces ++ ['>'])) := by
    obtain ⟨c, tail, rfl⟩ := List.exists_cons_of_ne_nil hne
    have hlast : Trimmed
        (c :: (tail ++ '<' :: List.intercalate [','] pieces) ++ ['>']) :=
      trimmed_of_ends htrim.head rfl
    simpa using hlast
  rw [hread, ofText_opened hne hname hends hclosed]
  exact congrArg (Shape.tree .standard _) (Shape.ofApplication_congr harguments _ _)

/-- A comma in a pair of brackets of its own cuts nothing. -/
theorem ofText_unclosed_map :
    ofText "Vec<HashMap<u8, u16>" = .bare "Vec<HashMap<u8, u16>" := by
  have hunclosed := @ofText_unclosed "Vec".toList "HashMap<u8, u16>".toList (by decide)
    (by decide) (by decide) (by decide)
  exact hunclosed.1.mpr (by decide)

/-- The comma of a list that was left off there makes it a shorter list. -/
theorem ofText_unclosed_comma :
    Plain "Vec".toList ∧ Trimmed "Vec<u8,".toList ∧ StaysOpen "u8,".toList ∧
      ofText "Vec<u8," ≠ .bare "Vec<u8," := by
  decide +kernel

end TypeTree

end CanonicalIdl
