import CanonicalIdl.Proofs.Resolution.Names

/-!
# Well nested texts

A text is well nested if every bracket in it is closed, by a bracket of its own kind and in
the order in which they were opened.  The scanners of type expressions know less: they count
round and square brackets together, and angle brackets with them or apart.  Inside a text
that is well nested the counts are those of the brackets that are really open, so the pieces
that such a text is cut into are well nested again.

Main results:

- Theorems `argumentStep_eq`, `itemStep_eq`: what a scanner does about a bracket.
- Theorem `CutsArguments.wellNested`: the arguments of a well nested list are well nested.
- Theorem `CutsItems.wellNested`: so are the items of a well nested text.
-/

namespace CanonicalIdl

open Text

/-! ## Brackets and their kinds -/

/-- The kinds of brackets. -/
inductive Bracket where
  | angle
  | round
  | square
  deriving Repr, DecidableEq

/-- What a character does about brackets. -/
inductive Mark where
  | opens (bracket : Bracket)
  | closes (bracket : Bracket)
  | other
  deriving Repr, DecidableEq

/-- The mark that a character is. -/
def Mark.ofChar (c : Char) : Mark :=
  if c = '<' then .opens .angle
  else if c = '(' then .opens .round
  else if c = '[' then .opens .square
  else if c = '>' then .closes .angle
  else if c = ')' then .closes .round
  else if c = ']' then .closes .square
  else .other

/-- The brackets that are open behind one more character, the innermost in front.  No bracket
may close another one than the innermost. -/
def nestStep (opened : List Bracket) (c : Char) : Option (List Bracket) :=
  match Mark.ofChar c with
  | .opens bracket => some (bracket :: opened)
  | .closes bracket => if opened.head? = some bracket then some opened.tail else none
  | .other => some opened

/-- The brackets that are open behind a text. -/
def nestWalk (opened : List Bracket) (text : List Char) : Option (List Bracket) :=
  text.foldlM nestStep opened

/-- Every bracket of the text is closed by one of its kind, in order. -/
def WellNested (text : List Char) : Prop := nestWalk [] text = some []

instance (text : List Char) : Decidable (WellNested text) :=
  inferInstanceAs (Decidable (_ = _))

/-! ## Walks -/

theorem nestWalk_cons (opened : List Bracket) (c : Char) (text : List Char) :
    nestWalk opened (c :: text) =
      (nestStep opened c).bind fun opened => nestWalk opened text := rfl

theorem nestWalk_append (opened : List Bracket) (a b : List Char) :
    nestWalk opened (a ++ b) = (nestWalk opened a).bind fun opened => nestWalk opened b := by
  simp only [nestWalk, List.foldlM_append]
  rfl

theorem Mark.ofChar_plain {c : Char} (hc : isDelimiter c = false) : Mark.ofChar c = .other := by
  have hmarks : ∀ d ∈ "<([>)]".toList, c ≠ d := by
    rintro d hd rfl
    have hall : "<([>)]".toList.all isDelimiter = true := rfl
    rw [List.all_eq_true.mp hall c hd] at hc
    cases hc
  simp only [Mark.ofChar, hmarks '<' (by decide), hmarks '(' (by decide),
    hmarks '[' (by decide), hmarks '>' (by decide), hmarks ')' (by decide),
    hmarks ']' (by decide), if_false]

theorem nestStep_plain (opened : List Bracket) {c : Char} (hc : isDelimiter c = false) :
    nestStep opened c = some opened := by
  simp only [nestStep, Mark.ofChar_plain hc]

theorem nestWalk_plain (opened : List Bracket) {text : List Char} (h : Plain text) :
    nestWalk opened text = some opened :=
  foldlM_of_forall (fun opened c hc => nestStep_plain opened (h c hc)) opened

/-- Blanks around a text open and close nothing. -/
theorem nestWalk_trim (opened : List Bracket) (text : List Char) :
    nestWalk opened (trim text) = nestWalk opened text :=
  foldlM_trim (fun opened _ hc => nestStep_plain opened (isDelimiter_of_isBlank hc)) opened text

theorem wellNested_plain {text : List Char} (h : Plain text) : WellNested text :=
  nestWalk_plain [] h

@[simp] theorem wellNested_trim {text : List Char} : WellNested (trim text) ↔ WellNested text := by
  rw [WellNested, WellNested, nestWalk_trim]

/-- A well nested front leaves no bracket open for what follows it. -/
theorem nestWalk_of_front {front : List Char} (hfront : WellNested front) (back : List Char) :
    nestWalk [] (front ++ back) = nestWalk [] back := by
  rw [nestWalk_append, show nestWalk [] front = some [] from hfront]
  rfl

/-- A `<` behind a well nested front is closed in what follows it. -/
theorem wellNested_append_angle {front rest : List Char} (hfront : WellNested front) :
    WellNested (front ++ '<' :: rest) ↔ nestWalk [.angle] rest = some [] := by
  rw [WellNested, nestWalk_of_front hfront]
  exact Iff.rfl

theorem WellNested.append {front back : List Char} (hfront : WellNested front)
    (hback : WellNested back) : WellNested (front ++ back) := by
  rw [WellNested, nestWalk_of_front hfront]
  exact hback

/-- The brackets that were open before do not matter for those that are opened later. -/
theorem nestStep_append_opened {opened later : List Bracket} {c : Char}
    (h : nestStep opened c = some later) (below : List Bracket) :
    nestStep (opened ++ below) c = some (later ++ below) := by
  unfold nestStep at h ⊢
  cases hmark : Mark.ofChar c with
  | opens bracket =>
    simp only [hmark] at h ⊢
    cases h
    rfl
  | closes bracket =>
    simp only [hmark] at h ⊢
    cases opened with
    | nil => cases h
    | cons top rest =>
      split at h
      · next htop =>
        cases h
        exact if_pos htop
      · cases h
  | other =>
    simp only [hmark] at h ⊢
    cases h
    rfl

theorem nestWalk_append_opened {opened later : List Bracket} {text : List Char}
    (h : nestWalk opened text = some later) (below : List Bracket) :
    nestWalk (opened ++ below) text = some (later ++ below) := by
  induction text generalizing opened with
  | nil =>
    cases h
    rfl
  | cons c rest ih =>
    rw [nestWalk_cons] at h ⊢
    obtain ⟨between, hstep, hwalk⟩ := Option.bind_eq_some_iff.mp h
    rw [nestStep_append_opened hstep, Option.bind_some, ih hwalk]

/-- A well nested text leaves open what was open before it. -/
theorem WellNested.walk {text : List Char} (h : WellNested text) (opened : List Bracket) :
    nestWalk opened text = some opened := nestWalk_append_opened h opened

/-- Brackets of one kind around a well nested text belong together. -/
theorem WellNested.enclosed {inner : List Char} (h : WellNested inner) {bracket : Bracket}
    {opening closing : Char} (hopening : Mark.ofChar opening = .opens bracket)
    (hclosing : Mark.ofChar closing = .closes bracket) :
    WellNested (opening :: inner ++ [closing]) := by
  have hfirst : nestStep [] opening = some [bracket] := by rw [nestStep, hopening]
  have hlast : nestStep [bracket] closing = some [] := by
    rw [nestStep, hclosing]
    exact if_pos rfl
  rw [WellNested, List.cons_append, nestWalk_cons, hfirst, Option.bind_some, nestWalk_append,
    h.walk, Option.bind_some, nestWalk_cons, hlast]
  rfl

/-- Plain text behind another one closes no bracket of it. -/
theorem WellNested.of_append_plain {front back : List Char} (h : WellNested (front ++ back))
    (hback : Plain back) : WellNested front := by
  rw [WellNested, nestWalk_append] at h
  obtain ⟨opened, hfront, hwalk⟩ := Option.bind_eq_some_iff.mp h
  rw [nestWalk_plain opened hback] at hwalk
  rwa [hwalk] at hfront

/-! ## Scanners and marks -/

/-- A character is a bracket of one of six forms, or none. -/
theorem bracket_cases (c : Char) :
    c = '<' ∨ c = '(' ∨ c = '[' ∨ c = '>' ∨ c = ')' ∨ c = ']' ∨
      (Mark.ofChar c = .other ∧ c ≠ '<' ∧ c ≠ '>' ∧ opensGroup c = false ∧
        closesGroup c = false) := by
  by_cases hmem : c ∈ "<([>)]".toList
  · have hcases : c = '<' ∨ c = '(' ∨ c = '[' ∨ c = '>' ∨ c = ')' ∨ c = ']' := by
      simpa using hmem
    tauto
  · have hcases : c ≠ '<' ∧ c ≠ '(' ∧ c ≠ '[' ∧ c ≠ '>' ∧ c ≠ ')' ∧ c ≠ ']' := by
      simpa using hmem
    obtain ⟨hlt, hround, hsquare, hgt, hround', hsquare'⟩ := hcases
    simp [Mark.ofChar, opensGroup, closesGroup, hlt, hround, hsquare, hgt, hround', hsquare']

/-- Inside an argument, angle brackets are counted apart from the others. -/
theorem argumentStep_eq (opened : OpenBrackets) (c : Char) :
    argumentStep opened c =
      match Mark.ofChar c with
      | .opens .angle => some ⟨opened.angles + 1, opened.groups⟩
      | .opens _ => some ⟨opened.angles, opened.groups + 1⟩
      | .closes .angle =>
        if opened.angles = 0 then none else some ⟨opened.angles - 1, opened.groups⟩
      | .closes _ => some ⟨opened.angles, opened.groups - 1⟩
      | .other => if c = ',' ∧ opened = .outside then none else some opened := by
  rcases bracket_cases c with rfl | rfl | rfl | rfl | rfl | rfl | ⟨hmark, hlt, hgt, ho, hc⟩
  · rfl
  · rfl
  · rfl
  · obtain ⟨_ | angles, groups⟩ := opened
    · rfl
    · rfl
  · rfl
  · rfl
  · obtain ⟨angles, groups⟩ := opened
    simp [argumentStep, hmark, hlt, hgt, ho, hc, OpenBrackets.outside, and_assoc]

/-- Between the commas of a list, all brackets are counted together. -/
theorem itemStep_eq (depth : Nat) (c : Char) :
    itemStep depth c =
      match Mark.ofChar c with
      | .opens _ => some (depth + 1)
      | .closes _ => some (depth - 1)
      | .other => if c = ',' ∧ depth = 0 then none else some depth := by
  rcases bracket_cases c with rfl | rfl | rfl | rfl | rfl | rfl | ⟨hmark, hlt, hgt, ho, hc⟩
  · rfl
  · rfl
  · rfl
  · rfl
  · rfl
  · rfl
  · simp [itemStep, hmark, hlt, hgt, ho, hc]

/-- The brackets that an argument scanner counts where the given ones are open. -/
def countOpen (opened : List Bracket) : OpenBrackets :=
  ⟨opened.count .angle, opened.countP (· ≠ .angle)⟩

theorem countOpen_cons (bracket : Bracket) (opened : List Bracket) :
    countOpen (bracket :: opened) =
      match bracket with
      | .angle => ⟨(countOpen opened).angles + 1, (countOpen opened).groups⟩
      | _ => ⟨(countOpen opened).angles, (countOpen opened).groups + 1⟩ := by
  cases bracket <;> simp [countOpen]

/-- Only where no bracket is open is none counted. -/
theorem countOpen_eq_outside_iff {opened : List Bracket} :
    countOpen opened = .outside ↔ opened = [] := by
  constructor
  · intro h
    cases opened with
    | nil => rfl
    | cons top rest =>
      rw [countOpen_cons] at h
      cases top <;> simp [OpenBrackets.outside] at h
  · rintro rfl
    rfl

/-- In an argument the counts are those of the brackets that are open in it, as long as the
bracket of the whole list stays open. -/
theorem nestStep_of_argumentStep {opened later : List Bracket} {next : OpenBrackets} {c : Char}
    (hnest : nestStep (opened ++ [.angle]) c = some later)
    (hstep : argumentStep (countOpen opened) c = some next) :
    ∃ inner, nestStep opened c = some inner ∧ later = inner ++ [.angle] ∧
      next = countOpen inner := by
  rw [argumentStep_eq] at hstep
  unfold nestStep at hnest ⊢
  cases hmark : Mark.ofChar c with
  | opens bracket =>
    simp only [hmark] at hnest hstep ⊢
    refine ⟨_, rfl, (Option.some.inj hnest).symm, ?_⟩
    rw [countOpen_cons]
    cases bracket <;> exact (Option.some.inj hstep).symm
  | closes bracket =>
    simp only [hmark] at hnest hstep ⊢
    cases opened with
    | nil =>
      -- The bracket of the list would be closed, and that ends the argument.
      split at hnest
      · next hhead =>
        obtain rfl : Bracket.angle = bracket := by simpa using hhead
        cases hstep
      · cases hnest
    | cons top rest =>
      split at hnest
      · next hhead =>
        obtain rfl : top = bracket := by simpa using hhead
        refine ⟨rest, by simp, (Option.some.inj hnest).symm, ?_⟩
        rw [countOpen_cons] at hstep
        cases top <;> exact (Option.some.inj hstep).symm
      · cases hnest
  | other =>
    simp only [hmark] at hnest hstep ⊢
    refine ⟨opened, rfl, (Option.some.inj hnest).symm, ?_⟩
    split at hstep
    · cases hstep
    · exact (Option.some.inj hstep).symm

/-- So they are behind a text. -/
theorem nestWalk_of_argumentWalk {opened later : List Bracket} {next : OpenBrackets}
    {text : List Char} (hnest : nestWalk (opened ++ [.angle]) text = some later)
    (hwalk : argumentWalk (countOpen opened) text = some next) :
    ∃ inner, nestWalk opened text = some inner ∧ later = inner ++ [.angle] ∧
      next = countOpen inner := by
  induction text generalizing opened with
  | nil => exact ⟨opened, rfl, (Option.some.inj hnest).symm, (Option.some.inj hwalk).symm⟩
  | cons c rest ih =>
    rw [nestWalk_cons] at hnest ⊢
    rw [argumentWalk_cons] at hwalk
    obtain ⟨between, hnestc, hnest⟩ := Option.bind_eq_some_iff.mp hnest
    obtain ⟨counts, hstep, hwalk⟩ := Option.bind_eq_some_iff.mp hwalk
    obtain ⟨inner, hinner, rfl, rfl⟩ := nestStep_of_argumentStep hnestc hstep
    rw [hinner]
    exact ih hnest hwalk

/-- Between commas the count is that of the brackets that are open. -/
theorem itemStep_of_nestStep {opened later : List Bracket} {depth : Nat} {c : Char}
    (hnest : nestStep opened c = some later) (hstep : itemStep opened.length c = some depth) :
    depth = later.length := by
  rw [itemStep_eq] at hstep
  unfold nestStep at hnest
  cases hmark : Mark.ofChar c with
  | opens bracket =>
    simp only [hmark] at hnest hstep
    cases hnest
    exact (Option.some.inj hstep).symm
  | closes bracket =>
    simp only [hmark] at hnest hstep
    split at hnest
    · cases hnest
      rw [List.length_tail]
      exact (Option.some.inj hstep).symm
    · cases hnest
  | other =>
    simp only [hmark] at hnest hstep
    cases hnest
    split at hstep
    · cases hstep
    · exact (Option.some.inj hstep).symm

/-- So it is behind a text. -/
theorem itemWalk_of_nestWalk {opened later : List Bracket} {depth : Nat} {text : List Char}
    (hnest : nestWalk opened text = some later)
    (hwalk : itemWalk opened.length text = some depth) : depth = later.length := by
  induction text generalizing opened with
  | nil =>
    cases hnest
    exact (Option.some.inj hwalk).symm
  | cons c rest ih =>
    rw [nestWalk_cons] at hnest
    rw [itemWalk_cons] at hwalk
    obtain ⟨between, hnestc, hnest⟩ := Option.bind_eq_some_iff.mp hnest
    obtain ⟨count, hstep, hwalk⟩ := Option.bind_eq_some_iff.mp hwalk
    rw [itemStep_of_nestStep hnestc hstep] at hwalk
    exact ih hnest hwalk

/-! ## Well nested pieces -/

/-- The `>` that ends a list of arguments closes the bracket of the list, where no bracket is
closed by a wrong one. -/
theorem wellNested_of_last {piece rest : List Char} {groups : Nat}
    (walk : argumentWalk .outside piece = some ⟨0, groups⟩) {later : List Bracket}
    (hnest : nestWalk [.angle] (piece ++ '>' :: rest) = some later) :
    WellNested piece ∧ nestWalk [] rest = some later := by
  rw [nestWalk_append] at hnest
  obtain ⟨between, hpiece, hrest⟩ := Option.bind_eq_some_iff.mp hnest
  obtain ⟨inner, hinner, rfl, hcount⟩ := @nestWalk_of_argumentWalk [] _ _ _ hpiece walk
  rw [nestWalk_cons] at hrest
  obtain ⟨behind, hstep, hwalk⟩ := Option.bind_eq_some_iff.mp hrest
  -- The `>` closes the innermost bracket, and no angle bracket of the piece is open.
  cases inner with
  | nil =>
    obtain rfl : [] = behind := Option.some.inj hstep
    exact ⟨hinner, hwalk⟩
  | cons top below =>
    have htop : top = .angle := by
      by_contra hne
      simp [nestStep, Mark.ofChar, hne] at hstep
    rw [htop, countOpen_cons] at hcount
    cases hcount

/-- So is the bracket of the list open behind a comma that ends an argument. -/
theorem wellNested_of_more {piece rest : List Char}
    (walk : argumentWalk .outside piece = some .outside) {later : List Bracket}
    (hnest : nestWalk [.angle] (piece ++ ',' :: rest) = some later) :
    WellNested piece ∧ nestWalk [.angle] rest = some later := by
  rw [nestWalk_append] at hnest
  obtain ⟨between, hpiece, hrest⟩ := Option.bind_eq_some_iff.mp hnest
  obtain ⟨inner, hinner, rfl, hcount⟩ := @nestWalk_of_argumentWalk [] _ _ _ hpiece walk
  obtain rfl := countOpen_eq_outside_iff.mp hcount.symm
  exact ⟨hinner, hrest⟩

/-- The arguments of a list are well nested where no bracket in it is closed by a wrong one. -/
theorem CutsArguments.wellNested {text : List Char} {pieces : List (List Char)}
    (h : CutsArguments text pieces) {later : List Bracket}
    (hnest : nestWalk [.angle] text = some later) : ∀ piece ∈ pieces, WellNested piece := by
  induction h with
  | unclosed walk =>
    intro piece hpiece
    cases hpiece
  | @last piece rest groups walk =>
    obtain ⟨hpiece, -⟩ := wellNested_of_last walk hnest
    exact List.forall_mem_singleton.mpr hpiece
  | @more piece rest pieces walk others ih =>
    obtain ⟨hpiece, hrest⟩ := wellNested_of_more walk hnest
    exact List.forall_mem_cons.mpr ⟨hpiece, ih hrest⟩

/-- The items of a well nested text are well nested. -/
theorem CutsItems.wellNested {text : List Char} {pieces : List (List Char)}
    (h : CutsItems text pieces) (hnest : WellNested text) :
    ∀ piece ∈ pieces, WellNested piece := by
  induction h with
  | last walk =>
    intro piece hpiece
    rwa [List.mem_singleton.mp hpiece]
  | @more piece rest pieces walk others ih =>
    rw [WellNested, nestWalk_append] at hnest
    obtain ⟨later, hpiece, hrest⟩ := Option.bind_eq_some_iff.mp hnest
    have hlength : 0 = later.length := @itemWalk_of_nestWalk [] _ _ _ hpiece walk
    obtain rfl := List.length_eq_zero_iff.mp hlength.symm
    exact List.forall_mem_cons.mpr ⟨hpiece, ih hrest⟩

/-- So is a text whose items are well nested. -/
theorem CutsItems.wellNested_of_pieces {text : List Char} {pieces : List (List Char)}
    (h : CutsItems text pieces) (hpieces : ∀ piece ∈ pieces, WellNested piece) :
    WellNested text := by
  induction h with
  | last walk => exact hpieces _ List.mem_cons_self
  | @more piece rest pieces walk others ih =>
    obtain ⟨hpiece, hothers⟩ := List.forall_mem_cons.mp hpieces
    rw [WellNested, nestWalk_of_front hpiece]
    exact ih hothers

end CanonicalIdl
