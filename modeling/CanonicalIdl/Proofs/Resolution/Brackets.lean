import CanonicalIdl.Application
import CanonicalIdl.Proofs.Text.Trimming

/-!
# Open brackets

Both ways of cutting a type expression at its commas count the brackets that are open.
A walk over a text says which brackets are open behind it, or that the text is cut
before its end.  The relations `CutsArguments` and `CutsItems` then say where a text is
cut, and they are exactly what the two scanners do.

A text is enclosed when no comma in it stands outside of its brackets and every bracket
that it opens it also closes.  No scanner cuts such a text, wherever it stands.

Main results:

- Theorems `scanArguments_of_cuts`, `exists_cutsArguments`: the arguments behind a `<` are
  the trimmed pieces of the only cut.
- Theorems `commaItems_of_cuts`, `exists_cutsItems`: so are the items between commas.
- Theorem `foldlM_trim`: blanks around a text that change nothing do not matter for a walk.
- Theorem `EnclosedWithin.angled` and its two siblings: brackets enclose what stands in them.
-/

namespace CanonicalIdl

open Text

/-! ## Delimiters -/

/-- The characters that a type expression is cut at. -/
def isDelimiter (c : Char) : Bool :=
  c == '<' || c == '>' || c == ',' || opensGroup c || closesGroup c

/-- A text without delimiters. -/
def Plain (text : List Char) : Prop := ∀ c ∈ text, isDelimiter c = false

instance (text : List Char) : Decidable (Plain text) :=
  decidable_of_iff (text.all (fun c => !isDelimiter c) = true) (by simp [Plain])

/-- A test that no delimiter passes is passed by other characters only. -/
theorem isDelimiter_eq_false {test : Char → Bool} {c : Char}
    (htest : ("<>,()[]".toList.all fun d => !test d) = true) (hc : test c = true) :
    isDelimiter c = false := by
  cases hd : isDelimiter c with
  | false => rfl
  | true =>
    have hmem : c ∈ "<>,()[]".toList := by
      simp only [isDelimiter, opensGroup, closesGroup, Bool.or_eq_true, beq_iff_eq] at hd
      rcases hd with (((rfl | rfl) | rfl) | (rfl | rfl)) | (rfl | rfl) <;> simp
    have hfails := List.all_eq_true.mp htest c hmem
    simp [hc] at hfails

/-- No blank is a delimiter. -/
theorem isDelimiter_of_isBlank {c : Char} (h : isBlank c = true) : isDelimiter c = false :=
  isDelimiter_eq_false (by decide) h

theorem isDelimiter_of_isDigit {c : Char} (h : c.isDigit = true) : isDelimiter c = false :=
  isDelimiter_eq_false (by decide) h

theorem isBlank_of_isDelimiter {c : Char} (h : isDelimiter c = true) : isBlank c = false := by
  cases hblank : isBlank c with
  | false => rfl
  | true =>
    rw [isDelimiter_of_isBlank hblank] at h
    cases h

theorem plain_blanks {text : List Char} (h : Blanks text) : Plain text :=
  fun c hc => isDelimiter_of_isBlank (h c hc)

/-! ## Walks over texts -/

section Walks

variable {σ : Type} {step : σ → Char → Option σ} {text : List Char}

/-- A walk over characters that change nothing changes nothing. -/
theorem foldlM_of_forall (h : ∀ state, ∀ c ∈ text, step state c = some state) (state : σ) :
    text.foldlM step state = some state := by
  induction text with
  | nil => rfl
  | cons c rest ih =>
    rw [List.foldlM_cons, h state c List.mem_cons_self]
    exact ih fun state d hd => h state d (List.mem_cons_of_mem c hd)

/-- Where blanks change nothing, they change nothing around a text. -/
theorem foldlM_trim (h : ∀ state c, isBlank c = true → step state c = some state) (state : σ)
    (text : List Char) : (trim text).foldlM step state = text.foldlM step state := by
  obtain ⟨before, after, hb, ha, htext⟩ := exists_pad text
  have hbefore := foldlM_of_forall (fun state c hc => h state c (hb c hc)) state
  have hafter : ∀ state, after.foldlM step state = some state :=
    foldlM_of_forall fun state c hc => h state c (ha c hc)
  conv => rhs; rw [htext]
  rw [List.foldlM_append, List.foldlM_append, hbefore]
  cases hwalk : (trim text).foldlM step state with
  | none => simp [hwalk]
  | some later => simp [hwalk, hafter]

end Walks

/-! ## Walks over arguments -/

/-- The brackets that are open inside a list of arguments: angle brackets, and round and
square ones counted together. -/
structure OpenBrackets where
  angles : Nat
  groups : Nat
  deriving Repr, DecidableEq

/-- No bracket is open. -/
def OpenBrackets.outside : OpenBrackets := ⟨0, 0⟩

/-- The brackets that are open behind one more character of an argument.  A character that
ends the argument leaves none. -/
def argumentStep (opened : OpenBrackets) (c : Char) : Option OpenBrackets :=
  if c == '<' then some ⟨opened.angles + 1, opened.groups⟩
  else if c == '>' then
    match opened.angles with
    | 0 => none
    | angles + 1 => some ⟨angles, opened.groups⟩
  else if c == ',' && opened.angles == 0 && opened.groups == 0 then none
  else if opensGroup c then some ⟨opened.angles, opened.groups + 1⟩
  else if closesGroup c then some ⟨opened.angles, opened.groups - 1⟩
  else some opened

/-- The brackets that are open behind a text, unless an argument ends in it. -/
def argumentWalk (opened : OpenBrackets) (text : List Char) : Option OpenBrackets :=
  text.foldlM argumentStep opened

@[simp] theorem argumentWalk_nil (opened : OpenBrackets) :
    argumentWalk opened [] = some opened := rfl

theorem argumentWalk_cons (opened : OpenBrackets) (c : Char) (text : List Char) :
    argumentWalk opened (c :: text) =
      (argumentStep opened c).bind fun opened => argumentWalk opened text := rfl

theorem argumentWalk_append (opened : OpenBrackets) (a b : List Char) :
    argumentWalk opened (a ++ b) =
      (argumentWalk opened a).bind fun opened => argumentWalk opened b := by
  simp only [argumentWalk, List.foldlM_append]
  rfl

/-- An argument ends at a `>` that closes the list and at a comma outside of all brackets. -/
theorem argumentStep_eq_none_iff {opened : OpenBrackets} {c : Char} :
    argumentStep opened c = none ↔
      (c = '>' ∧ opened.angles = 0) ∨ (c = ',' ∧ opened = .outside) := by
  obtain ⟨angles, groups⟩ := opened
  by_cases hlt : c = '<'
  · subst hlt
    simp [argumentStep]
  by_cases hgt : c = '>'
  · subst hgt
    cases angles <;> simp [argumentStep]
  by_cases hcomma : c = ','
  · subst hcomma
    by_cases hzero : angles = 0 ∧ groups = 0
    · obtain ⟨rfl, rfl⟩ := hzero
      simp [argumentStep, OpenBrackets.outside]
    · simp [argumentStep, OpenBrackets.outside, opensGroup, closesGroup]
  · by_cases hopens : opensGroup c = true
    · simp [argumentStep, hlt, hgt, hcomma, hopens]
    · by_cases hcloses : closesGroup c = true
      · simp [argumentStep, hlt, hgt, hcomma, hopens, hcloses]
      · simp [argumentStep, hlt, hgt, hcomma, hopens, hcloses]

/-- A character that is no delimiter changes no count. -/
theorem argumentStep_plain (opened : OpenBrackets) {c : Char} (hc : isDelimiter c = false) :
    argumentStep opened c = some opened := by
  simp only [isDelimiter, Bool.or_eq_false_iff] at hc
  obtain ⟨⟨⟨⟨hlt, hgt⟩, hcomma⟩, hopens⟩, hcloses⟩ := hc
  simp [argumentStep, hlt, hgt, hcomma, hopens, hcloses]

theorem argumentWalk_plain (opened : OpenBrackets) {text : List Char} (h : Plain text) :
    argumentWalk opened text = some opened :=
  foldlM_of_forall (fun opened c hc => argumentStep_plain opened (h c hc)) opened

/-- Blanks around a text open and close nothing. -/
theorem argumentWalk_trim (opened : OpenBrackets) (text : List Char) :
    argumentWalk opened (trim text) = argumentWalk opened text :=
  foldlM_trim (fun opened _ hc => argumentStep_plain opened (isDelimiter_of_isBlank hc)) opened text

/-! ## Where arguments are cut -/

/-- A text behind `<` and the pieces that it is cut into.  A list that is not closed loses
what stands behind its last comma, and a closed one all that follows. -/
inductive CutsArguments : List Char → List (List Char) → Prop
  | unclosed {text : List Char} {opened : OpenBrackets}
      (walk : argumentWalk .outside text = some opened) : CutsArguments text []
  | last {piece rest : List Char} {groups : Nat}
      (walk : argumentWalk .outside piece = some ⟨0, groups⟩) :
      CutsArguments (piece ++ '>' :: rest) [piece]
  | more {piece rest : List Char} {pieces : List (List Char)}
      (walk : argumentWalk .outside piece = some .outside)
      (others : CutsArguments rest pieces) :
      CutsArguments (piece ++ ',' :: rest) (piece :: pieces)

theorem scanArguments_of_step {opened opened' : OpenBrackets} {c : Char}
    (h : argumentStep opened c = some opened') (argument rest : List Char) :
    Application.scanArguments opened.angles opened.groups argument (c :: rest) =
      Application.scanArguments opened'.angles opened'.groups (c :: argument) rest := by
  obtain ⟨angles, groups⟩ := opened
  unfold argumentStep at h
  rw [Application.scanArguments.eq_def]
  dsimp only
  split at h
  · next hlt =>
    cases h
    rw [if_pos hlt]
  rw [if_neg ‹_›]
  split at h
  · next hgt =>
    rw [if_pos hgt]
    cases angles with
    | zero => cases h
    | succ angles =>
      cases h
      rfl
  rw [if_neg ‹_›]
  split at h
  · cases h
  rw [if_neg ‹_›]
  split at h
  · next hopens =>
    cases h
    rw [if_pos hopens]
  rw [if_neg ‹_›]
  split at h
  · next hcloses =>
    cases h
    rw [if_pos hcloses]
  rw [if_neg ‹_›]
  cases h
  rfl

/-- The scanner collects a text that it can walk over. -/
theorem scanArguments_of_walk {opened opened' : OpenBrackets} {text : List Char}
    (h : argumentWalk opened text = some opened') (argument rest : List Char) :
    Application.scanArguments opened.angles opened.groups argument (text ++ rest) =
      Application.scanArguments opened'.angles opened'.groups (text.reverse ++ argument) rest := by
  induction text generalizing opened argument with
  | nil =>
    cases h
    rfl
  | cons c tail ih =>
    rw [argumentWalk_cons] at h
    obtain ⟨next, hstep, hwalk⟩ := Option.bind_eq_some_iff.mp h
    rw [List.cons_append, scanArguments_of_step hstep, ih hwalk]
    simp

/-- The arguments of a text are the trimmed pieces that it is cut into. -/
theorem scanArguments_of_cuts {text : List Char} {pieces : List (List Char)}
    (h : CutsArguments text pieces) :
    Application.scanArguments 0 0 [] text = pieces.map trim := by
  induction h with
  | @unclosed text opened walk =>
    have hscan := scanArguments_of_walk walk [] []
    simpa [OpenBrackets.outside, Application.scanArguments] using hscan
  | @last piece rest groups walk =>
    have hscan := scanArguments_of_walk walk [] ('>' :: rest)
    simpa [OpenBrackets.outside, Application.scanArguments] using hscan
  | @more piece rest pieces walk others ih =>
    have hscan := scanArguments_of_walk walk [] (',' :: rest)
    simpa [OpenBrackets.outside, Application.scanArguments, ih] using hscan

theorem exists_cuts_from {opened : OpenBrackets} {argument : List Char}
    (h : argumentWalk .outside argument.reverse = some opened) (text : List Char) :
    ∃ pieces, CutsArguments (argument.reverse ++ text) pieces := by
  induction text generalizing opened argument with
  | nil => exact ⟨[], by simpa using .unclosed h⟩
  | cons c rest ih =>
    cases hstep : argumentStep opened c with
    | some next =>
      have hwalk : argumentWalk .outside (c :: argument).reverse = some next := by
        rw [List.reverse_cons, argumentWalk_append, h]
        simp [argumentWalk_cons, hstep]
      simpa using ih hwalk
    | none =>
      rcases argumentStep_eq_none_iff.mp hstep with ⟨rfl, hangles⟩ | ⟨rfl, rfl⟩
      · obtain ⟨angles, groups⟩ := opened
        cases hangles
        exact ⟨_, .last h⟩
      · have hstart : argumentWalk .outside ([] : List Char).reverse = some .outside := rfl
        obtain ⟨pieces, hpieces⟩ := ih hstart
        exact ⟨_, .more h hpieces⟩

/-- Every text behind `<` is cut somewhere. -/
theorem exists_cutsArguments (text : List Char) : ∃ pieces, CutsArguments text pieces := by
  have hstart : argumentWalk .outside ([] : List Char).reverse = some .outside := rfl
  exact exists_cuts_from hstart text

/-! ## Walks over items -/

/-- The number of brackets of any kind that are open behind one more character of an item.
A comma that ends the item leaves none. -/
def itemStep (depth : Nat) (c : Char) : Option Nat :=
  if c == '<' || opensGroup c then some (depth + 1)
  else if c == '>' || closesGroup c then some (depth - 1)
  else if c == ',' && depth == 0 then none
  else some depth

/-- The number of brackets that are open behind a text, unless an item ends in it. -/
def itemWalk (depth : Nat) (text : List Char) : Option Nat :=
  text.foldlM itemStep depth

@[simp] theorem itemWalk_nil (depth : Nat) : itemWalk depth [] = some depth := rfl

theorem itemWalk_cons (depth : Nat) (c : Char) (text : List Char) :
    itemWalk depth (c :: text) = (itemStep depth c).bind fun depth => itemWalk depth text := rfl

theorem itemWalk_append (depth : Nat) (a b : List Char) :
    itemWalk depth (a ++ b) = (itemWalk depth a).bind fun depth => itemWalk depth b := by
  simp only [itemWalk, List.foldlM_append]
  rfl

/-- An item ends at a comma outside of all brackets. -/
theorem itemStep_eq_none_iff {depth : Nat} {c : Char} :
    itemStep depth c = none ↔ c = ',' ∧ depth = 0 := by
  by_cases hcomma : c = ','
  · subst hcomma
    simp [itemStep, opensGroup, closesGroup]
  · simp only [itemStep, hcomma, false_and, iff_false]
    split
    · simp
    · split <;> simp [hcomma]

/-- Nor does it change the count of an item. -/
theorem itemStep_plain (depth : Nat) {c : Char} (hc : isDelimiter c = false) :
    itemStep depth c = some depth := by
  simp only [isDelimiter, Bool.or_eq_false_iff] at hc
  obtain ⟨⟨⟨⟨hlt, hgt⟩, hcomma⟩, hopens⟩, hcloses⟩ := hc
  simp [itemStep, hlt, hgt, hcomma, hopens, hcloses]

theorem itemWalk_plain (depth : Nat) {text : List Char} (h : Plain text) :
    itemWalk depth text = some depth :=
  foldlM_of_forall (fun depth c hc => itemStep_plain depth (h c hc)) depth

/-- Blanks around a text open and close nothing. -/
theorem itemWalk_trim (depth : Nat) (text : List Char) :
    itemWalk depth (trim text) = itemWalk depth text :=
  foldlM_trim (fun depth _ hc => itemStep_plain depth (isDelimiter_of_isBlank hc)) depth text

/-! ## Where items are cut -/

/-- A text and the pieces that it is cut into at the commas outside of brackets. -/
inductive CutsItems : List Char → List (List Char) → Prop
  | last {piece : List Char} {depth : Nat} (walk : itemWalk 0 piece = some depth) :
      CutsItems piece [piece]
  | more {piece rest : List Char} {pieces : List (List Char)}
      (walk : itemWalk 0 piece = some 0) (others : CutsItems rest pieces) :
      CutsItems (piece ++ ',' :: rest) (piece :: pieces)

theorem scanCommaItems_of_step {depth depth' : Nat} {c : Char}
    (h : itemStep depth c = some depth') (item rest : List Char) :
    scanCommaItems depth item (c :: rest) = scanCommaItems depth' (c :: item) rest := by
  unfold itemStep at h
  rw [scanCommaItems]
  split at h
  · next hopens =>
    cases h
    rw [if_pos hopens]
  rw [if_neg ‹_›]
  split at h
  · next hcloses =>
    cases h
    rw [if_pos hcloses]
  rw [if_neg ‹_›]
  split at h
  · cases h
  rw [if_neg ‹_›]
  cases h
  rfl

/-- The scanner collects a text that it can walk over. -/
theorem scanCommaItems_of_walk {depth depth' : Nat} {text : List Char}
    (h : itemWalk depth text = some depth') (item rest : List Char) :
    scanCommaItems depth item (text ++ rest) =
      scanCommaItems depth' (text.reverse ++ item) rest := by
  induction text generalizing depth item with
  | nil =>
    cases h
    rfl
  | cons c tail ih =>
    rw [itemWalk_cons] at h
    obtain ⟨next, hstep, hwalk⟩ := Option.bind_eq_some_iff.mp h
    rw [List.cons_append, scanCommaItems_of_step hstep, ih hwalk]
    simp

/-- The items of a text are the trimmed pieces that it is cut into. -/
theorem commaItems_of_cuts {text : List Char} {pieces : List (List Char)}
    (h : CutsItems text pieces) : commaItems text = pieces.map trim := by
  unfold commaItems
  induction h with
  | @last piece depth walk =>
    have hscan := scanCommaItems_of_walk walk [] []
    simpa [scanCommaItems] using hscan
  | @more piece rest pieces walk others ih =>
    have hscan := scanCommaItems_of_walk walk [] (',' :: rest)
    simpa [scanCommaItems, opensGroup, closesGroup, ih] using hscan

theorem exists_items_from {depth : Nat} {item : List Char}
    (h : itemWalk 0 item.reverse = some depth) (text : List Char) :
    ∃ pieces, CutsItems (item.reverse ++ text) pieces := by
  induction text generalizing depth item with
  | nil => exact ⟨_, by simpa using .last h⟩
  | cons c rest ih =>
    cases hstep : itemStep depth c with
    | some next =>
      have hwalk : itemWalk 0 (c :: item).reverse = some next := by
        rw [List.reverse_cons, itemWalk_append, h]
        simp [itemWalk_cons, hstep]
      simpa using ih hwalk
    | none =>
      obtain ⟨rfl, rfl⟩ := itemStep_eq_none_iff.mp hstep
      have hstart : itemWalk 0 ([] : List Char).reverse = some 0 := rfl
      obtain ⟨pieces, hpieces⟩ := ih hstart
      exact ⟨_, .more h hpieces⟩

/-- Every text is cut into items somewhere. -/
theorem exists_cutsItems (text : List Char) : ∃ pieces, CutsItems text pieces := by
  have hstart : itemWalk 0 ([] : List Char).reverse = some 0 := rfl
  exact exists_items_from hstart text

/-! ## Enclosed texts -/

/-- No scanner cuts the text, and the text leaves open what was open before it. -/
structure Enclosed (text : List Char) : Prop where
  arguments : ∀ opened, argumentWalk opened text = some opened
  items : ∀ depth, itemWalk depth text = some depth

/-- The same of a text that stands in some bracket, so that commas are allowed in it. -/
structure EnclosedWithin (text : List Char) : Prop where
  arguments : ∀ opened, opened ≠ .outside → argumentWalk opened text = some opened
  items : ∀ depth, itemWalk (depth + 1) text = some (depth + 1)

/-- A text that is cut nowhere is cut in no bracket. -/
theorem Enclosed.within {text : List Char} (h : Enclosed text) : EnclosedWithin text where
  arguments opened _ := h.arguments opened
  items depth := h.items (depth + 1)

/-- Two enclosed texts make an enclosed one. -/
theorem Enclosed.append {a b : List Char} (ha : Enclosed a) (hb : Enclosed b) :
    Enclosed (a ++ b) where
  arguments opened := by simp [argumentWalk_append, ha.arguments, hb.arguments]
  items depth := by simp [itemWalk_append, ha.items, hb.items]

theorem EnclosedWithin.append {a b : List Char} (ha : EnclosedWithin a)
    (hb : EnclosedWithin b) : EnclosedWithin (a ++ b) where
  arguments opened h := by simp [argumentWalk_append, ha.arguments opened h, hb.arguments opened h]
  items depth := by simp [itemWalk_append, ha.items, hb.items]

@[simp] theorem enclosed_nil : Enclosed [] where
  arguments _ := rfl
  items _ := rfl

/-- A text without delimiters is enclosed. -/
theorem enclosed_of_plain {text : List Char} (h : Plain text) : Enclosed text where
  arguments opened := argumentWalk_plain opened h
  items depth := itemWalk_plain depth h

theorem enclosed_blanks {text : List Char} (h : Blanks text) : Enclosed text :=
  enclosed_of_plain (plain_blanks h)

/-- A comma that stands in some bracket does not cut. -/
theorem enclosedWithin_comma : EnclosedWithin [','] where
  arguments opened h := by
    cases hstep : argumentStep opened ',' with
    | none =>
      rcases argumentStep_eq_none_iff.mp hstep with ⟨hgt, -⟩ | ⟨-, houtside⟩
      · cases hgt
      · exact absurd houtside h
    | some next =>
      have hnext : next = opened := by
        revert hstep
        simp only [argumentStep]
        split <;> simp_all [opensGroup, closesGroup]
      rw [argumentWalk_cons, hstep, hnext]
      rfl
  items depth := by simp [itemWalk_cons, itemStep, opensGroup, closesGroup]

/-- Angle brackets enclose what stands in them. -/
theorem EnclosedWithin.angled {text : List Char} (h : EnclosedWithin text) :
    Enclosed ('<' :: text ++ ['>']) where
  arguments opened := by
    have hinside := h.arguments ⟨opened.angles + 1, opened.groups⟩ (by simp [OpenBrackets.outside])
    simp [argumentWalk_cons, argumentWalk_append, argumentStep, hinside]
  items depth := by
    simp [itemWalk_cons, itemWalk_append, itemStep, opensGroup, closesGroup, h.items]

/-- Round brackets enclose what stands in them. -/
theorem EnclosedWithin.rounded {text : List Char} (h : EnclosedWithin text) :
    Enclosed ('(' :: text ++ [')']) where
  arguments opened := by
    have hinside := h.arguments ⟨opened.angles, opened.groups + 1⟩ (by simp [OpenBrackets.outside])
    simp [argumentWalk_cons, argumentWalk_append, argumentStep, opensGroup, closesGroup, hinside]
  items depth := by
    simp [itemWalk_cons, itemWalk_append, itemStep, opensGroup, closesGroup, h.items]

/-- Square brackets enclose what stands in them. -/
theorem EnclosedWithin.squared {text : List Char} (h : EnclosedWithin text) :
    Enclosed ('[' :: text ++ [']']) where
  arguments opened := by
    have hinside := h.arguments ⟨opened.angles, opened.groups + 1⟩ (by simp [OpenBrackets.outside])
    simp [argumentWalk_cons, argumentWalk_append, argumentStep, opensGroup, closesGroup, hinside]
  items depth := by
    simp [itemWalk_cons, itemWalk_append, itemStep, opensGroup, closesGroup, h.items]

/-- Enclosed texts between commas, all of them in some bracket. -/
theorem enclosedWithin_intercalate {pieces : List (List Char)}
    (h : ∀ piece ∈ pieces, Enclosed piece) :
    EnclosedWithin (List.intercalate [','] pieces) := by
  induction pieces with
  | nil => exact enclosed_nil.within
  | cons piece rest ih =>
    have hpiece : Enclosed piece := h piece List.mem_cons_self
    cases rest with
    | nil => simpa using hpiece.within
    | cons next others =>
      have hrest := ih fun p hp => h p (List.mem_cons_of_mem piece hp)
      rw [List.intercalate_cons_cons]
      exact (hpiece.within.append enclosedWithin_comma).append hrest

/-! ## Pieces that stay apart -/

/-- Written between commas behind a `<`, the pieces are cut apart again: all but the last
leave no bracket open, and the last leaves at most round and square ones open. -/
def ApartAsArguments : List (List Char) → Prop
  | [] => True
  | [last] => ∃ groups, argumentWalk .outside last = some ⟨0, groups⟩
  | piece :: next :: rest =>
    argumentWalk .outside piece = some .outside ∧ ApartAsArguments (next :: rest)

/-- Written between commas, the pieces are cut apart again: all but the last leave no
bracket open. -/
def ApartAsItems : List (List Char) → Prop
  | [] => True
  | [last] => ∃ depth, itemWalk 0 last = some depth
  | piece :: next :: rest => itemWalk 0 piece = some 0 ∧ ApartAsItems (next :: rest)

/-- Blanks around arguments keep them as far apart as they were. -/
theorem apartAsArguments_trim {pieces : List (List Char)} :
    ApartAsArguments (pieces.map trim) ↔ ApartAsArguments pieces := by
  induction pieces with
  | nil => exact Iff.rfl
  | cons piece rest ih =>
    cases rest with
    | nil => simp [ApartAsArguments, argumentWalk_trim]
    | cons next others =>
      simp only [List.map_cons] at ih
      simp [ApartAsArguments, argumentWalk_trim, ih]

theorem apartAsItems_trim {pieces : List (List Char)} :
    ApartAsItems (pieces.map trim) ↔ ApartAsItems pieces := by
  induction pieces with
  | nil => exact Iff.rfl
  | cons piece rest ih =>
    cases rest with
    | nil => simp [ApartAsItems, itemWalk_trim]
    | cons next others =>
      simp only [List.map_cons] at ih
      simp [ApartAsItems, itemWalk_trim, ih]

/-- Texts that leave no bracket open stay apart. -/
theorem apartAsArguments_of_walks {pieces : List (List Char)}
    (h : ∀ piece ∈ pieces, argumentWalk .outside piece = some .outside) :
    ApartAsArguments pieces := by
  induction pieces with
  | nil => trivial
  | cons piece rest ih =>
    have hpiece := h piece List.mem_cons_self
    cases rest with
    | nil => exact ⟨0, hpiece⟩
    | cons next others => exact ⟨hpiece, ih fun p hp => h p (List.mem_cons_of_mem piece hp)⟩

/-- So do enclosed texts. -/
theorem apartAsArguments_of_enclosed {pieces : List (List Char)}
    (h : ∀ piece ∈ pieces, Enclosed piece) : ApartAsArguments pieces :=
  apartAsArguments_of_walks fun piece hpiece => (h piece hpiece).arguments .outside

theorem apartAsItems_of_enclosed {pieces : List (List Char)}
    (h : ∀ piece ∈ pieces, Enclosed piece) : ApartAsItems pieces := by
  induction pieces with
  | nil => trivial
  | cons piece rest ih =>
    have hpiece := (h piece List.mem_cons_self).items 0
    cases rest with
    | nil => exact ⟨0, hpiece⟩
    | cons next others => exact ⟨hpiece, ih fun p hp => h p (List.mem_cons_of_mem piece hp)⟩

/-- The pieces that a text is cut into stay apart. -/
theorem CutsArguments.apart {text : List Char} {pieces : List (List Char)}
    (h : CutsArguments text pieces) : ApartAsArguments pieces := by
  induction h with
  | unclosed walk => trivial
  | @last piece rest groups walk => exact ⟨groups, walk⟩
  | @more piece rest pieces walk others ih =>
    cases pieces with
    | nil => exact ⟨0, walk⟩
    | cons next others => exact ⟨walk, ih⟩

theorem CutsItems.apart {text : List Char} {pieces : List (List Char)}
    (h : CutsItems text pieces) : ApartAsItems pieces := by
  induction h with
  | @last piece depth walk => exact ⟨depth, walk⟩
  | @more piece rest pieces walk others ih =>
    cases pieces with
    | nil => exact ⟨0, walk⟩
    | cons next others => exact ⟨walk, ih⟩

/-- Every text has an item. -/
theorem CutsItems.ne_nil {text : List Char} {pieces : List (List Char)}
    (h : CutsItems text pieces) : pieces ≠ [] := by
  cases h with
  | last walk => exact List.cons_ne_nil _ _
  | more walk others => exact List.cons_ne_nil _ _

/-- Pieces that stay apart are the pieces that their list is cut into. -/
theorem cutsArguments_of_apart {pieces : List (List Char)} (hne : pieces ≠ [])
    (h : ApartAsArguments pieces) (rest : List Char) :
    CutsArguments (List.intercalate [','] pieces ++ '>' :: rest) pieces := by
  induction pieces with
  | nil => exact absurd rfl hne
  | cons piece others ih =>
    cases others with
    | nil =>
      obtain ⟨groups, hwalk⟩ := h
      have hcuts : CutsArguments (piece ++ '>' :: rest) [piece] := .last hwalk
      simpa using hcuts
    | cons next others =>
      have hrest := ih (List.cons_ne_nil next others) h.2
      rw [List.intercalate_cons_cons]
      simpa using CutsArguments.more h.1 hrest

/-- The same of items. -/
theorem cutsItems_of_apart {pieces : List (List Char)} (hne : pieces ≠ [])
    (h : ApartAsItems pieces) : CutsItems (List.intercalate [','] pieces) pieces := by
  induction pieces with
  | nil => exact absurd rfl hne
  | cons piece others ih =>
    cases others with
    | nil =>
      obtain ⟨depth, hwalk⟩ := h
      simpa using CutsItems.last hwalk
    | cons next others =>
      have hrest := ih (List.cons_ne_nil next others) h.2
      rw [List.intercalate_cons_cons]
      simpa using CutsItems.more h.1 hrest

end CanonicalIdl
