import CanonicalIdl.Proofs.Resolution.Unclosed

/-!
# Cuts by counting brackets

The arguments behind a `<` and the items of a tuple are both cut at commas, by scanners that
count brackets in different ways.  Where no part of a text closes more brackets than it opens,
neither scanner ever has to give up a bracket that is not there.  Then the one depth that is
counted for items is the sum of the two that are counted for arguments, and both scanners cut
at the same commas.  A text that closes what it opens, with all its commas in brackets, is cut
nowhere: it is read back as one argument, whatever stands around it.

Main results:

- Theorem `argumentWalk_of_itemWalk`: the two counts along a text.
- Theorem `CutsItems.cutsArguments`: what is cut into items is cut into the same arguments.
- Theorem `Application.arguments_ofText_eq_commaItems`: the two ways of cutting agree.
- Theorem `Application.ofText_spelling`: an application is read back from its spelling.
-/

namespace CanonicalIdl

open Text

/-! ## Texts that close no bracket too many -/

/-- No part that the text starts with closes more round and square brackets than it opens. -/
def GroupsStayOpen (text : List Char) : Prop :=
  ∀ front, front <+: text → front.countP closesGroup ≤ front.countP opensGroup

instance (text : List Char) : Decidable (GroupsStayOpen text) :=
  decidable_of_iff (∀ front ∈ text.inits, front.countP closesGroup ≤ front.countP opensGroup)
    (by simp only [List.mem_inits, GroupsStayOpen])

/-- No part that the text starts with closes more brackets than it opens and than were open
before it. -/
structure ClosesWithin (opened : OpenBrackets) (text : List Char) : Prop where
  angles : ∀ front, front <+: text → front.count '>' ≤ opened.angles + front.count '<'
  groups : ∀ front, front <+: text →
    front.countP closesGroup ≤ opened.groups + front.countP opensGroup

theorem closesWithin_outside {text : List Char} (hangles : StaysOpen text)
    (hgroups : GroupsStayOpen text) : ClosesWithin .outside text where
  angles front hfront := (hangles front hfront).trans (Nat.le_add_left _ _)
  groups front hfront := (hgroups front hfront).trans (Nat.le_add_left _ _)

theorem ClosesWithin.of_prefix {opened : OpenBrackets} {front text : List Char}
    (h : ClosesWithin opened text) (hfront : front <+: text) : ClosesWithin opened front where
  angles part hpart := h.angles part (hpart.trans hfront)
  groups part hpart := h.groups part (hpart.trans hfront)

/-- A group that is not closed too often is counted exactly. -/
theorem groupStep_add {groups : Nat} {c : Char}
    (h : [c].countP closesGroup ≤ groups + [c].countP opensGroup) :
    groupStep groups c + [c].countP closesGroup = groups + [c].countP opensGroup := by
  rcases bracket_cases c with rfl | rfl | rfl | rfl | rfl | rfl | ⟨-, -, -, hopens, hcloses⟩
  · rfl
  · rfl
  · rfl
  · rfl
  · exact Nat.sub_add_cancel h
  · exact Nat.sub_add_cancel h
  · simp [groupStep, hopens, hcloses]

/-- So are the groups of a text. -/
theorem foldl_groupStep_add {groups : Nat} {text : List Char}
    (h : ∀ front, front <+: text →
      front.countP closesGroup ≤ groups + front.countP opensGroup) :
    text.foldl groupStep groups + text.countP closesGroup =
      groups + text.countP opensGroup := by
  induction text generalizing groups with
  | nil => rfl
  | cons c rest ih =>
    have hstep := groupStep_add (h [c] ⟨rest, rfl⟩)
    have hrest := @ih (groupStep groups c) fun front hfront => by
      have hcons := h (c :: front) (List.cons_prefix_cons.mpr ⟨rfl, hfront⟩)
      rw [← List.singleton_append, List.countP_append, List.countP_append] at hcons
      omega
    rw [List.foldl_cons, ← List.singleton_append, List.countP_append, List.countP_append]
    omega

/-- A walk over such a text counts the brackets of each kind exactly. -/
theorem ClosesWithin.of_walk {opened next : OpenBrackets} {text : List Char}
    (h : ClosesWithin opened text) (walk : argumentWalk opened text = some next) :
    next.angles + text.count '>' = opened.angles + text.count '<' ∧
      next.groups + text.countP closesGroup = opened.groups + text.countP opensGroup := by
  obtain ⟨hangles, hgroups⟩ := argumentWalk_eq_some walk
  exact ⟨hangles, by rw [hgroups, foldl_groupStep_add h.groups]⟩

/-- Behind a walk the brackets that it leaves open stand for its text. -/
theorem ClosesWithin.of_append {opened next : OpenBrackets} {front back : List Char}
    (h : ClosesWithin opened (front ++ back)) (walk : argumentWalk opened front = some next) :
    ClosesWithin next back := by
  obtain ⟨hangles, hgroups⟩ := (h.of_prefix (List.prefix_append front back)).of_walk walk
  constructor
  · intro part hpart
    have hwhole := h.angles (front ++ part) ((List.prefix_append_right_inj front).mpr hpart)
    rw [List.count_append, List.count_append] at hwhole
    omega
  · intro part hpart
    have hwhole := h.groups (front ++ part) ((List.prefix_append_right_inj front).mpr hpart)
    rw [List.countP_append, List.countP_append] at hwhole
    omega

/-- A comma changes no count. -/
theorem ClosesWithin.behind_comma {opened : OpenBrackets} {rest : List Char}
    (h : ClosesWithin opened (',' :: rest)) : ClosesWithin opened rest := by
  constructor
  · intro front hfront
    simpa using h.angles (',' :: front) (List.cons_prefix_cons.mpr ⟨rfl, hfront⟩)
  · intro front hfront
    simpa [opensGroup, closesGroup] using
      h.groups (',' :: front) (List.cons_prefix_cons.mpr ⟨rfl, hfront⟩)

/-! ## Two counts along one text -/

/-- A character that does not end an item does not end an argument either, and leaves as many
brackets open in both counts. -/
theorem argumentStep_of_itemStep {opened : OpenBrackets} {depth : Nat} {c : Char}
    (h : ClosesWithin opened [c])
    (hstep : itemStep (opened.angles + opened.groups) c = some depth) :
    ∃ next, argumentStep opened c = some next ∧ next.angles + next.groups = depth := by
  have hangles := h.angles [c] (List.prefix_refl _)
  have hgroups := h.groups [c] (List.prefix_refl _)
  obtain ⟨angles, groups⟩ := opened
  rw [itemStep_eq] at hstep
  rw [argumentStep_eq]
  rcases bracket_cases c with rfl | rfl | rfl | rfl | rfl | rfl | ⟨hmark, -⟩
  · obtain rfl := Option.some.inj hstep
    exact ⟨_, rfl, Nat.add_right_comm angles 1 groups⟩
  · obtain rfl := Option.some.inj hstep
    exact ⟨_, rfl, rfl⟩
  · obtain rfl := Option.some.inj hstep
    exact ⟨_, rfl, rfl⟩
  · -- The bracket that is closed is open, so the angles are not none.
    have hone : 1 ≤ angles := hangles
    obtain rfl := Option.some.inj hstep
    exact ⟨⟨angles - 1, groups⟩, if_neg (Nat.ne_of_gt hone), (Nat.sub_add_comm hone).symm⟩
  · obtain rfl := Option.some.inj hstep
    exact ⟨_, rfl, (Nat.add_sub_assoc hgroups angles).symm⟩
  · obtain rfl := Option.some.inj hstep
    exact ⟨_, rfl, (Nat.add_sub_assoc hgroups angles).symm⟩
  · simp only [hmark] at hstep ⊢
    split at hstep
    · cases hstep
    · next hkept =>
      obtain rfl := Option.some.inj hstep
      refine ⟨⟨angles, groups⟩, if_neg ?_, rfl⟩
      rintro ⟨rfl, houtside⟩
      obtain ⟨rfl, rfl⟩ := OpenBrackets.mk.inj houtside
      exact hkept ⟨rfl, rfl⟩

/-- A text in which no item ends is walked over as an argument, and its depth is the number of
angle brackets and of groups that it leaves open.  The induction goes along the text, with the
brackets open in front of it in both counts. -/
theorem argumentWalk_of_itemWalk (opened : OpenBrackets) {depth : Nat} {text : List Char}
    (h : ClosesWithin opened text)
    (hwalk : itemWalk (opened.angles + opened.groups) text = some depth) :
    ∃ next, argumentWalk opened text = some next ∧ next.angles + next.groups = depth := by
  induction text generalizing opened with
  | nil =>
    obtain rfl := Option.some.inj hwalk
    exact ⟨opened, rfl, rfl⟩
  | cons c rest ih =>
    rw [itemWalk_cons] at hwalk
    obtain ⟨between, hstep, hrest⟩ := Option.bind_eq_some_iff.mp hwalk
    obtain ⟨next, hnext, rfl⟩ := argumentStep_of_itemStep (h.of_prefix ⟨rest, rfl⟩) hstep
    have hfront : argumentWalk opened [c] = some next := by
      rw [argumentWalk_cons, hnext]
      rfl
    have hcloses : ClosesWithin next rest := @ClosesWithin.of_append opened next [c] rest h hfront
    obtain ⟨last, hlast, hdepth⟩ := ih next hcloses hrest
    refine ⟨last, ?_, hdepth⟩
    rw [argumentWalk_cons, hnext]
    exact hlast

/-! ## Cuts at the same commas -/

/-- What a text is cut into as a list of items it is cut into as a list of arguments, if it
closes all angle brackets that it opens. -/
theorem CutsItems.cutsArguments {text : List Char} {pieces : List (List Char)}
    (h : CutsItems text pieces) (hcloses : ClosesWithin .outside text)
    (hclosed : text.count '<' = text.count '>') (tail : List Char) :
    CutsArguments (text ++ '>' :: tail) pieces := by
  induction h with
  | @last piece depth walk =>
    obtain ⟨⟨angles, groups⟩, hwalk, -⟩ := argumentWalk_of_itemWalk .outside hcloses walk
    obtain ⟨hangles, -⟩ := hcloses.of_walk hwalk
    have hnone : angles = 0 := by
      simp only [OpenBrackets.outside] at hangles
      omega
    subst hnone
    exact .last hwalk
  | @more piece rest pieces walk others ih =>
    have hpiece := hcloses.of_prefix (List.prefix_append piece (',' :: rest))
    obtain ⟨⟨angles, groups⟩, hwalk, hdepth⟩ := argumentWalk_of_itemWalk .outside hpiece walk
    obtain ⟨rfl, rfl⟩ := Nat.add_eq_zero_iff.mp hdepth
    obtain ⟨hangles, -⟩ := hpiece.of_walk hwalk
    have hrest : ClosesWithin .outside rest := (hcloses.of_append hwalk).behind_comma
    have hcount : rest.count '<' = rest.count '>' := by
      simp only [OpenBrackets.outside, Nat.zero_add] at hangles
      simpa [← hangles] using hclosed
    rw [List.append_assoc, List.cons_append]
    exact .more hwalk (ih hrest hcount)

namespace Application

/-- Where no bracket too many is closed and no angle bracket is left open, the arguments in
angle brackets are the items of the text between them. -/
theorem arguments_ofText_eq_commaItems {name inner : List Char} (hname : '<' ∉ name)
    (hangles : StaysOpen inner) (hgroups : GroupsStayOpen inner)
    (hclosed : inner.count '<' = inner.count '>') :
    (ofText (name ++ '<' :: (inner ++ ['>']))).arguments = commaItems inner := by
  obtain ⟨pieces, hpieces⟩ := exists_cutsItems inner
  have hcuts : CutsArguments (inner ++ ['>']) pieces :=
    hpieces.cutsArguments (closesWithin_outside hangles hgroups) hclosed []
  rw [ofText_angle hname hcuts, commaItems_of_cuts hpieces]

/-- Groups may cross the angle brackets and stay open. -/
theorem arguments_ofText_eq_commaItems_crossing :
    '<' ∉ "Pair".toList ∧ StaysOpen "K<(a>, b), [u8; 2".toList ∧
      GroupsStayOpen "K<(a>, b), [u8; 2".toList ∧
      "K<(a>, b), [u8; 2".toList.count '<' = "K<(a>, b), [u8; 2".toList.count '>' ∧
      (ofText "Pair<K<(a>, b), [u8; 2>".toList).arguments =
        ["K<(a>, b)".toList, "[u8; 2".toList] := by
  have hname : '<' ∉ "Pair".toList := by decide
  have hangles : StaysOpen "K<(a>, b), [u8; 2".toList := by decide
  have hgroups : GroupsStayOpen "K<(a>, b), [u8; 2".toList := by decide
  have hclosed : "K<(a>, b), [u8; 2".toList.count '<' =
      "K<(a>, b), [u8; 2".toList.count '>' := by decide
  exact ⟨hname, hangles, hgroups, hclosed,
    (arguments_ofText_eq_commaItems hname hangles hgroups hclosed).trans (by decide)⟩

/-- A group that is closed too often ends an angle bracket only where they count together. -/
example : commaItems "<)a,b>".toList = ["<)a".toList, "b>".toList] ∧
    (ofText "Pair<<)a,b>>".toList).arguments = ["<)a,b>".toList] := by decide

end Application

/-! ## Spellings of applications -/

/-- A text that closes each bracket that it opens, angle brackets and the others counted apart,
and that has no blanks at its ends and no comma outside of its brackets. -/
structure SelfContained (text : List Char) : Prop where
  trimmed : Trimmed text
  angles : StaysOpen text
  anglesClosed : text.count '<' = text.count '>'
  groups : GroupsStayOpen text
  groupsClosed : text.countP opensGroup = text.countP closesGroup
  commas : ∀ front, front ++ [','] <+: text → front.count '<' = front.count '>' →
    front.countP opensGroup ≠ front.countP closesGroup

instance (text : List Char) : Decidable (SelfContained text) :=
  decidable_of_iff (Trimmed text ∧ StaysOpen text ∧ text.count '<' = text.count '>' ∧
      GroupsStayOpen text ∧ text.countP opensGroup = text.countP closesGroup ∧
      ∀ front ∈ text.inits, front ++ [','] <+: text → front.count '<' = front.count '>' →
        front.countP opensGroup ≠ front.countP closesGroup)
    ⟨fun ⟨htrim, hangles, hangle, hgroups, hgroup, hcommas⟩ =>
      ⟨htrim, hangles, hangle, hgroups, hgroup, fun front hfront => hcommas front
        ((List.mem_inits _ _).mpr ((List.prefix_append front [',']).trans hfront)) hfront⟩,
    fun h => ⟨h.trimmed, h.angles, h.anglesClosed, h.groups, h.groupsClosed,
      fun front _ => h.commas front⟩⟩

/-- No comma of such a text cuts it, and it leaves no bracket open. -/
theorem SelfContained.argumentWalk_eq {text : List Char} (h : SelfContained text) :
    argumentWalk .outside text = some .outside := by
  have hcloses := closesWithin_outside h.angles h.groups
  cases hwalk : argumentWalk .outside text with
  | none =>
    obtain ⟨front, hfront, hangles, hgroups⟩ := h.angles.walk_eq_none_iff.mp hwalk
    have hpart : front <+: text := (List.prefix_append front [',']).trans hfront
    have hcount := foldl_groupStep_add (hcloses.of_prefix hpart).groups
    simp only [OpenBrackets.outside] at hcount
    rw [hgroups, Nat.zero_add, Nat.zero_add] at hcount
    exact absurd hcount.symm (h.commas front hfront hangles)
  | some next =>
    obtain ⟨hangles, hgroups⟩ := hcloses.of_walk hwalk
    obtain ⟨angles, groups⟩ := next
    have hangle := h.anglesClosed
    have hgroup := h.groupsClosed
    simp only [OpenBrackets.outside] at hangles hgroups
    obtain ⟨rfl, rfl⟩ : angles = 0 ∧ groups = 0 := by omega
    rfl

/-- A text with blanks on both sides. -/
structure Padded where
  before : List Char
  text : List Char
  after : List Char
  blanks_before : Blanks before
  blanks_after : Blanks after

namespace Padded

/-- The text as it is written, with its blanks. -/
def spelled (padded : Padded) : List Char :=
  padded.before ++ padded.text ++ padded.after

theorem trim_spelled (padded : Padded) : trim padded.spelled = trim padded.text :=
  trim_pad padded.blanks_before padded.text padded.blanks_after

/-- Blanks around a text open and close nothing. -/
theorem argumentWalk_spelled (padded : Padded) (opened : OpenBrackets) :
    argumentWalk opened padded.spelled = argumentWalk opened padded.text := by
  rw [← argumentWalk_trim, trim_spelled, argumentWalk_trim]

/-- A character that is not blank stands in the text itself. -/
theorem mem_spelled {padded : Padded} {c : Char} (hc : isBlank c = false) :
    c ∈ padded.spelled ↔ c ∈ padded.text := by
  refine ⟨fun h => ?_, fun h => ?_⟩
  · have htrim := mem_trim hc h
    rw [trim_spelled] at htrim
    exact mem_of_mem_trim htrim
  · simp [spelled, h]

end Padded

namespace Application

/-- The spelling of an application: a name, and between angle brackets its arguments with commas
between them. -/
def spelling (name : Padded) (arguments : List Padded) : List Char :=
  name.spelled ++ '<' :: (List.intercalate [','] (arguments.map Padded.spelled) ++ ['>'])

/-- An application of self-contained arguments is read back from its spelling, whatever stands
behind it. -/
theorem ofText_spelling {name : Padded} {arguments : List Padded} (hname : Trimmed name.text)
    (hangle : '<' ∉ name.text) (hne : arguments ≠ [])
    (h : ∀ argument ∈ arguments, SelfContained argument.text) (tail : List Char) :
    ofText (spelling name arguments ++ tail) = ⟨name.text, arguments.map (·.text)⟩ := by
  have hfront : '<' ∉ name.spelled := fun hmem => hangle ((Padded.mem_spelled rfl).mp hmem)
  have hwalks : ∀ piece ∈ arguments.map Padded.spelled,
      argumentWalk .outside piece = some .outside := by
    intro piece hpiece
    obtain ⟨argument, hargument, rfl⟩ := List.mem_map.mp hpiece
    rw [argument.argumentWalk_spelled, (h argument hargument).argumentWalk_eq]
  have hcuts : CutsArguments
      (List.intercalate [','] (arguments.map Padded.spelled) ++ '>' :: tail)
      (arguments.map Padded.spelled) :=
    cutsArguments_of_apart (by simpa using hne) (apartAsArguments_of_walks hwalks) tail
  have htexts : (arguments.map Padded.spelled).map trim = arguments.map (·.text) := by
    rw [List.map_map]
    refine List.map_congr_left fun argument hargument => ?_
    rw [Function.comp_apply, argument.trim_spelled, (h argument hargument).trimmed]
  have hspelling : spelling name arguments ++ tail = name.spelled ++
      '<' :: (List.intercalate [','] (arguments.map Padded.spelled) ++ '>' :: tail) := by
    simp [spelling]
  rw [hspelling, ofText_angle hfront hcuts, htexts, name.trim_spelled, hname]

/-- Nested arguments with commas, and behind the list brackets and commas of any kind. -/
theorem ofText_spelling_nested :
    Trimmed "BTreeMap".toList ∧ '<' ∉ "BTreeMap".toList ∧
      SelfContained "(u8, [F<a, b>; 2])".toList ∧ SelfContained "Vec<(K, V)>".toList ∧
      ofText " BTreeMap\t< (u8, [F<a, b>; 2])  ,Vec<(K, V)>\n>, y>)<z,".toList =
        ⟨"BTreeMap".toList, ["(u8, [F<a, b>; 2])".toList, "Vec<(K, V)>".toList]⟩ := by
  have hname : Trimmed "BTreeMap".toList := by decide
  have hangle : '<' ∉ "BTreeMap".toList := by decide
  have hkey : SelfContained "(u8, [F<a, b>; 2])".toList := by decide
  have hvalue : SelfContained "Vec<(K, V)>".toList := by decide
  refine ⟨hname, hangle, hkey, hvalue, ?_⟩
  have hread := @ofText_spelling ⟨[' '], "BTreeMap".toList, ['\t'], by decide, by decide⟩
    [⟨[' '], "(u8, [F<a, b>; 2])".toList, "  ".toList, by decide, by decide⟩,
      ⟨[], "Vec<(K, V)>".toList, ['\n'], by decide, by decide⟩]
    hname hangle (List.cons_ne_nil _ _)
    (by
      rintro argument hmem
      rcases List.mem_pair.mp hmem with rfl | rfl
      · exact hkey
      · exact hvalue)
    ", y>)<z,".toList
  exact hread

end Application

end CanonicalIdl
