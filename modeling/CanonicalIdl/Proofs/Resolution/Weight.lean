import CanonicalIdl.Proofs.Resolution.Names
import CanonicalIdl.Proofs.Resolution.Rendering

/-!
# Weights of type expressions

Resolving an expression and writing the tree out again may lose text but brings next to
none with it: the only new text is what takes the place of a word, as `publicKey` takes
the place of `pubkey`.  A weight counts the characters of a text that are not blank, and
more for the words that may still be replaced, so that a replacement does not make the
text heavier.  The weight of a text is the sum of the weights of its pieces between
brackets and commas.

Main results:

- Theorem `weight_append_cons`: a break divides the weight of a text.
- Theorem `weight_render_readWithin`: what is read is written with no more weight.
-/

namespace CanonicalIdl

open Text

/-! ## Words between breaks -/

/-- The characters between the words of an expression. -/
def isBreak (c : Char) : Bool := isDelimiter c || c == ';'

/-- A text is a word, or a word in front of a break and another text. -/
theorem induction_breaks {motive : List Char → Prop}
    (word : ∀ text, (∀ c ∈ text, isBreak c = false) → motive text)
    (more : ∀ front c rest, (∀ d ∈ front, isBreak d = false) → isBreak c = true → motive rest →
      motive (front ++ c :: rest))
    (text : List Char) : motive text := by
  have behind : ∀ rest front, (∀ d ∈ front, isBreak d = false) → motive (front ++ rest) := by
    intro rest
    induction rest with
    | nil =>
      intro front hfront
      rw [List.append_nil]
      exact word front hfront
    | cons c rest ih =>
      intro front hfront
      cases hc : isBreak c with
      | true => exact more front c rest hfront hc (ih [] (by simp))
      | false =>
        have hnext : ∀ d ∈ front ++ [c], isBreak d = false := by
          intro d hd
          rcases List.mem_append.mp hd with hd | hd
          · exact hfront d hd
          · rwa [List.mem_singleton.mp hd]
        simpa using ih (front ++ [c]) hnext
  exact behind text [] (by simp)

/-- No break is blank. -/
theorem isBlank_of_isBreak {c : Char} (h : isBreak c = true) : isBlank c = false := by
  rw [isBreak, Bool.or_eq_true, beq_iff_eq] at h
  rcases h with hdelimiter | rfl
  · exact isBlank_of_isDelimiter hdelimiter
  · rfl

/-- A test that no break passes is passed by other characters only. -/
theorem isBreak_eq_false {test : Char → Bool} {c : Char}
    (hdelimiters : ("<>,()[]".toList.all fun d => !test d) = true) (hsemicolon : test ';' = false)
    (hc : test c = true) : isBreak c = false := by
  have hne : c ≠ ';' := by
    rintro rfl
    rw [hsemicolon] at hc
    cases hc
  simp [isBreak, isDelimiter_eq_false hdelimiters hc, hne]

/-- No blank is a break. -/
theorem isBreak_of_isBlank {c : Char} (h : isBlank c = true) : isBreak c = false :=
  isBreak_eq_false (by decide) rfl h

/-! ## Ink -/

/-- The number of characters that are not blank. -/
def ink (text : List Char) : Nat := text.countP (!isBlank ·)

@[simp] theorem ink_nil : ink [] = 0 := rfl

theorem ink_append (a b : List Char) : ink (a ++ b) = ink a + ink b := List.countP_append

/-- A character that is not blank counts. -/
theorem ink_cons {c : Char} (h : isBlank c = false) (text : List Char) :
    ink (c :: text) = ink text + 1 :=
  List.countP_cons_of_pos (by rw [h]; rfl)

/-- Blanks do not. -/
theorem ink_blanks {text : List Char} (h : Blanks text) : ink text = 0 := by
  rw [ink, List.countP_eq_zero]
  intro c hc
  simp [h c hc]

/-- Where nothing is blank, all characters count. -/
theorem ink_of_forall {text : List Char} (h : ∀ c ∈ text, isBlank c = false) :
    ink text = text.length := by
  rw [ink, List.countP_eq_length]
  intro c hc
  simp [h c hc]

/-- Trimming takes no ink away. -/
theorem ink_trim (text : List Char) : ink (trim text) = ink text := by
  obtain ⟨before, after, hb, ha, htext⟩ := exists_pad text
  conv => rhs; rw [htext]
  rw [ink_append, ink_append, ink_blanks hb, ink_blanks ha]
  omega

/-! ## Words that are replaced -/

/-- A word that resolution puts another text in place of. -/
def isReplaced (word : List Char) : Bool :=
  (Primitive.ofWord? word).any (fun p => word != p.spelling.toList) || word == "Node".toList ||
    (Builtin.isMapName word && word != "HashMap".toList && word != "BTreeMap".toList)

/-- The number of words in a text that are replaced. -/
def replaced (text : List Char) : Nat :=
  (text.splitOnP isBreak).countP fun word => isReplaced (trim word)

/-- A break divides the words of a text. -/
theorem replaced_append_cons {c : Char} (hc : isBreak c = true) (a b : List Char) :
    replaced (a ++ c :: b) = replaced a + replaced b := by
  rw [replaced, List.splitOnP_append_cons a b hc, List.countP_append]
  rfl

/-- A text without breaks is one word. -/
theorem replaced_of_word {text : List Char} (h : ∀ c ∈ text, isBreak c = false) :
    replaced text = if isReplaced (trim text) then 1 else 0 := by
  rw [replaced, List.splitOnP_eq_singleton h, List.countP_singleton]

/-- Blanks in front of a text leave its first word what it is. -/
theorem replaced_blanks_append {before : List Char} (h : Blanks before) (text : List Char) :
    replaced (before ++ text) = replaced text := by
  have hplain : ∀ c ∈ before, isBreak c = false := fun c hc => isBreak_of_isBlank (h c hc)
  have hword : ∀ word, (∀ c ∈ word, isBreak c = false) →
      replaced (before ++ word) = replaced word := by
    intro word hword
    have hboth : ∀ c ∈ before ++ word, isBreak c = false := by
      intro c hc
      rcases List.mem_append.mp hc with hc | hc
      · exact hplain c hc
      · exact hword c hc
    rw [replaced_of_word hword, replaced_of_word hboth, trim_blanks_append h]
  induction text using induction_breaks with
  | word text htext => exact hword text htext
  | more front c rest hfront hc ih =>
    rw [← List.append_assoc, replaced_append_cons hc, replaced_append_cons hc, hword front hfront]

/-- Blanks behind a text leave its last word what it is. -/
theorem replaced_append_blanks {after : List Char} (text : List Char) (h : Blanks after) :
    replaced (text ++ after) = replaced text := by
  induction text using induction_breaks with
  | word text htext =>
    have hboth : ∀ c ∈ text ++ after, isBreak c = false := by
      intro c hc
      rcases List.mem_append.mp hc with hc | hc
      · exact htext c hc
      · exact isBreak_of_isBlank (h c hc)
    rw [replaced_of_word htext, replaced_of_word hboth, trim_append_blanks text h]
  | more front c rest hfront hc ih =>
    rw [List.append_assoc, List.cons_append, replaced_append_cons hc, replaced_append_cons hc, ih]

/-- So trimming changes no word. -/
theorem replaced_trim (text : List Char) : replaced (trim text) = replaced text := by
  obtain ⟨before, after, hb, ha, htext⟩ := exists_pad text
  conv => rhs; rw [htext]
  rw [replaced_append_blanks _ ha, replaced_blanks_append hb]

/-! ## Weights -/

/-- The weight of a text.  No word is replaced by one of more than nine characters. -/
def weight (text : List Char) : Nat := ink text + 9 * replaced text

@[simp] theorem weight_nil : weight [] = 0 := by decide

/-- A break divides the weight of a text. -/
theorem weight_append_cons {c : Char} (hc : isBreak c = true) (a b : List Char) :
    weight (a ++ c :: b) = weight a + weight b + 1 := by
  rw [weight, weight, weight, ink_append, ink_cons (isBlank_of_isBreak hc),
    replaced_append_cons hc]
  omega

/-- A break in front of a text adds one to its weight. -/
theorem weight_cons {c : Char} (hc : isBreak c = true) (text : List Char) :
    weight (c :: text) = weight text + 1 := by
  have h := weight_append_cons hc [] text
  rw [List.nil_append, weight_nil] at h
  omega

/-- So does a break behind it. -/
theorem weight_append_singleton {c : Char} (hc : isBreak c = true) (text : List Char) :
    weight (text ++ [c]) = weight text + 1 := by
  rw [weight_append_cons hc, weight_nil, Nat.add_zero]

/-- Trimming leaves the weight of a text. -/
@[simp] theorem weight_trim (text : List Char) : weight (trim text) = weight text := by
  rw [weight, weight, ink_trim, replaced_trim]

@[simp] theorem weight_space_cons (text : List Char) : weight (' ' :: text) = weight text := by
  rw [← weight_trim (' ' :: text), trim_space_cons, weight_trim]

theorem ink_le_weight (text : List Char) : ink text ≤ weight text := Nat.le_add_right _ _

/-- A word weighs its ink, and nine more if it is replaced. -/
theorem weight_of_word {text : List Char} (h : ∀ c ∈ text, isBreak c = false) :
    weight text = if isReplaced (trim text) then ink text + 9 else ink text := by
  rw [weight, replaced_of_word h]
  split <;> omega

/-! ## Weights of words -/

/-- No digit is a break. -/
theorem isBreak_of_isDigit {c : Char} (h : c.isDigit = true) : isBreak c = false :=
  isBreak_eq_false (by decide) rfl h

/-- No character of a path is a break. -/
theorem isBreak_of_isPathChar {c : Char} (h : Builtin.isPathChar c = true) : isBreak c = false :=
  isBreak_eq_false (by decide) (by decide) h

/-- So a path is one word. -/
theorem isBreak_of_mem_path {name : List Char} (h : Builtin.isQualifiedName name = true) :
    ∀ c ∈ name, isBreak c = false := by
  rw [Builtin.isQualifiedName, Bool.and_eq_true] at h
  intro c hc
  exact isBreak_of_isPathChar (List.all_eq_true.mp h.2 c hc)

/-- A primitive is written with no more weight than a word for it. -/
theorem weight_spelling_le {text : List Char} {p : Primitive} (htrim : Trimmed text)
    (h : Primitive.ofWord? text = some p) : weight p.spelling.toList ≤ weight text := by
  by_cases hsame : text = p.spelling.toList
  · exact Nat.le_of_eq (congrArg weight hsame.symm)
  · have hword : Primitive.IsWord text :=
      List.mem_map_of_mem ((Primitive.ofWord?_eq_some_iff htrim).mp h)
    have hbreak := isBreak_of_mem_path hword.isQualifiedName
    have hreplaced : isReplaced (trim text) = true := by
      rw [show trim text = text from htrim]
      simp [isReplaced, h, hsame]
    have hnine : weight p.spelling.toList ≤ 9 := by cases p <;> decide
    rw [weight_of_word hbreak, if_pos hreplaced]
    omega

/-- The last segment of a path has no more ink than the path. -/
theorem ink_lastSegment_le (name : List Char) : ink (Builtin.lastSegment name) ≤ ink name := by
  have hsuffix : Builtin.lastSegment name <:+ name := by
    rcases Builtin.isLastSegment_lastSegment name with ⟨hsame, -⟩ | ⟨before, hsplit, -⟩
    · exact ⟨[], hsame.symm⟩
    · exact ⟨_, hsplit.symm⟩
  exact hsuffix.sublist.countP_le

/-- The name of a map that is not a tree map weighs at least as much as `HashMap`. -/
theorem weight_hashMap_le {name : List Char} (h : Builtin.isMapName name = true)
    (hbTree : Builtin.lastSegment name ≠ "BTreeMap".toList) :
    weight "HashMap".toList ≤ weight name := by
  by_cases hsame : name = "HashMap".toList
  · exact Nat.le_of_eq (congrArg weight hsame.symm)
  · have hpath : Builtin.isQualifiedName name = true := by
      rw [Builtin.isMapName, Bool.and_eq_true] at h
      exact h.1
    have hne : name ≠ "BTreeMap".toList := by
      rintro rfl
      exact hbTree (by decide)
    have hreplaced : isReplaced (trim name) = true := by
      rw [show trim name = name from (isName_of_isQualifiedName hpath).trimmed]
      rw [isReplaced, h, bne_iff_ne.mpr hsame, bne_iff_ne.mpr hne]
      simp
    have hseven : weight "HashMap".toList = 7 := by decide
    rw [weight_of_word (isBreak_of_mem_path hpath), if_pos hreplaced]
    omega

theorem toLower_of_isDigit {c : Char} (h : c.isDigit = true) : c.toLower = c :=
  of_isDigit (p := fun c => c.toLower = c) (by decide) h

/-- No written number is a word that is replaced. -/
theorem isReplaced_decimal (n : Nat) : isReplaced (decimal n) = false := by
  have hword : Primitive.ofWord? (decimal n) = none := by
    rw [Primitive.ofWord?_eq_none_iff (trimmed_decimal n)]
    intro hword
    have hall : (Primitive.words.map Prod.fst).all (fun word => !word.all Char.isDigit) = true := by
      decide
    have hdigits : (asciiLowered (decimal n)).all Char.isDigit = true := by
      apply List.all_eq_true.mpr
      intro c hc
      obtain ⟨d, hd, rfl⟩ := List.mem_map.mp hc
      have hdigit := isDigit_of_mem_decimal hd
      rwa [toLower_of_isDigit hdigit]
    have hnot := List.all_eq_true.mp hall _ hword
    rw [hdigits] at hnot
    cases hnot
  have hnode : decimal n ≠ "Node".toList := by
    intro h
    exact not_mem_decimal (c := 'N') (by decide) n (by rw [h]; decide)
  have hmap : Builtin.isMapName (decimal n) = false := by
    rw [Bool.eq_false_iff]
    intro h
    have hsuffix := (Builtin.isMapName_iff.mp h).suffix
    exact not_mem_decimal (c := 'M') (by decide) n (hsuffix.subset (by decide))
  rw [isReplaced, hword, hmap, beq_eq_false_iff_ne.mpr hnode]
  rfl

/-- A written number weighs as much as it has digits. -/
theorem weight_decimal (n : Nat) : weight (decimal n) = (decimal n).length := by
  have hbreak : ∀ c ∈ decimal n, isBreak c = false :=
    fun c hc => isBreak_of_isDigit (isDigit_of_mem_decimal hc)
  have hblank : ∀ c ∈ decimal n, isBlank c = false :=
    fun c hc => isBlank_of_isDigit (isDigit_of_mem_decimal hc)
  rw [weight_of_word hbreak, show trim (decimal n) = _ from trimmed_decimal n,
    isReplaced_decimal, ink_of_forall hblank]
  rfl

/-! ## Weights of written forms -/

namespace TypeTree

/-- Pieces between commas weigh what they weigh apart, and one for each comma. -/
theorem weight_intercalate {pieces : List (List Char)} (h : pieces ≠ []) :
    weight (List.intercalate [','] pieces) + 1 = (pieces.map weight).sum + pieces.length := by
  induction pieces with
  | nil => exact absurd rfl h
  | cons piece rest ih =>
    cases rest with
    | nil => simp
    | cons next others =>
      have hrest := ih (List.cons_ne_nil next others)
      rw [List.intercalate_cons_cons, List.append_assoc, List.singleton_append,
        weight_append_cons rfl, List.map_cons, List.sum_cons, List.length_cons]
      omega

theorem map_weight_spaced (items : List (List Char)) :
    (spaced items).map weight = items.map weight := by
  cases items with
  | nil => rfl
  | cons first rest => simp [spaced, Function.comp_def]

/-- A written list weighs what its items weigh, and one for each comma. -/
theorem weight_commaList {items : List (List Char)} (h : items ≠ []) :
    weight (commaList items) + 1 = (items.map weight).sum + items.length := by
  have hlength : (spaced items).length = items.length := by
    cases items <;> simp [spaced]
  rw [commaList_eq, weight_intercalate (spaced_ne_nil h), map_weight_spaced, hlength]

/-- A written application weighs its name, its arguments and the marks around them. -/
theorem weight_appliedText (name : List Char) {arguments : List (List Char)}
    (h : arguments ≠ []) :
    weight (appliedText name arguments) =
      weight name + (arguments.map weight).sum + arguments.length + 1 := by
  have hlist := weight_commaList h
  rw [appliedText, List.append_assoc, List.cons_append, weight_append_cons rfl,
    weight_append_singleton rfl]
  omega

/-- A written tuple weighs its items and the marks around them. -/
theorem weight_tupleText {items : List (List Char)} (h : items ≠ []) :
    weight (tupleText items) = (items.map weight).sum + items.length + 1 := by
  have hlist := weight_commaList h
  rw [tupleText, weight_append_singleton rfl, weight_cons rfl]
  omega

/-- A written array weighs its element, its length and three marks. -/
theorem weight_arrayText (element : List Char) (length : UInt64) :
    weight (arrayText element length) = weight element + (decimal length.toNat).length + 3 := by
  rw [arrayText, weight_append_singleton rfl, weight_cons rfl, weight_append_cons rfl,
    weight_space_cons, weight_decimal]

end TypeTree

/-! ## Weights of pieces -/

/-- The arguments of a text weigh no more than the text: each has a mark behind it. -/
theorem CutsArguments.weight_le {text : List Char} {pieces : List (List Char)}
    (h : CutsArguments text pieces) :
    (pieces.map weight).sum + pieces.length ≤ weight text := by
  induction h with
  | unclosed walk => exact Nat.zero_le _
  | @last piece rest groups walk =>
    rw [weight_append_cons rfl, List.map_singleton, List.sum_singleton, List.length_singleton]
    omega
  | @more piece rest pieces walk others ih =>
    rw [weight_append_cons rfl, List.map_cons, List.sum_cons, List.length_cons]
    omega

/-- The items of a text weigh what the text weighs, but for its commas. -/
theorem CutsItems.weight_eq {text : List Char} {pieces : List (List Char)}
    (h : CutsItems text pieces) :
    (pieces.map weight).sum + pieces.length = weight text + 1 := by
  induction h with
  | @last piece depth walk => simp
  | @more piece rest pieces walk others ih =>
    rw [weight_append_cons rfl, List.map_cons, List.sum_cons, List.length_cons]
    omega

theorem map_weight_trim (pieces : List (List Char)) :
    (pieces.map trim).map weight = pieces.map weight := by
  simp [Function.comp_def]

/-- A name and its arguments weigh no more than the text that they stand in. -/
theorem Application.weight_le {text : List Char} (h : (ofText text).arguments ≠ []) :
    weight (ofText text).name + ((ofText text).arguments.map weight).sum +
      (ofText text).arguments.length + 1 ≤ weight text := by
  obtain ⟨name, rest, pieces, -, htext, hcuts, happlication⟩ := exists_angle h
  have hpieces := hcuts.weight_le
  rw [happlication]
  dsimp only
  rw [htext, weight_append_cons rfl, map_weight_trim, weight_trim, List.length_map]
  omega

/-! ## What is read is written with no more weight -/

namespace TypeTree

section Reading

variable {read : List Char → TypeTree}

/-- Trees that are each written with no more weight weigh no more together. -/
theorem sum_weight_map_le (h : ∀ text, weight (read text).render ≤ weight text)
    (texts : List (List Char)) :
    (((texts.map read).map render).map weight).sum ≤ (texts.map weight).sum := by
  induction texts with
  | nil => exact Nat.le_refl _
  | cons text rest ih =>
    have htext := h text
    simp only [List.map_cons, List.sum_cons]
    omega

/-- A name in front of what is read weighs no more than in front of what it was read from. -/
theorem weight_appliedText_map_le (h : ∀ text, weight (read text).render ≤ weight text)
    {name front : List Char} (hname : weight name ≤ weight front) {texts : List (List Char)}
    (hne : texts ≠ []) :
    weight (appliedText name ((texts.map read).map render)) ≤
      weight front + (texts.map weight).sum + texts.length + 1 := by
  have hsum := sum_weight_map_le h texts
  rw [weight_appliedText name (by simpa using hne), List.length_map, List.length_map]
  omega

/-- A map is written with no more weight than its name, its key and its value have. -/
theorem weight_mapTree_le {name : List Char} (hname : Builtin.isMapName name = true)
    (key value : TypeTree) :
    weight (Builtin.mapTree (Builtin.lastSegment name) key value).render ≤
      weight name + weight key.render + weight value.render + 3 := by
  have hink := ink_lastSegment_le name
  have hle := ink_le_weight name
  have hne : [key.render, value.render] ≠ [] := List.cons_ne_nil _ _
  have hsum : ([key.render, value.render].map weight).sum =
      weight key.render + weight value.render := by simp
  have htwo : [key.render, value.render].length = 2 := rfl
  unfold Builtin.mapTree
  split
  · next hbase =>
    have hword : weight "BTreeMap".toList = ink "BTreeMap".toList := by decide
    rw [hbase] at hink
    rw [render_bTreeMap, weight_appliedText "BTreeMap".toList hne, hsum, htwo, hword]
    omega
  · next hbTree =>
    split
    · next hbase =>
      have hsix : ink "VecMap".toList = 6 := by decide
      have hthree : weight "Vec".toList = 3 := by decide
      have hpair : [key, value].map render = [key.render, value.render] := rfl
      rw [hbase, hsix] at hink
      rw [render_vec, render_tuple, hpair,
        weight_appliedText "Vec".toList (List.cons_ne_nil _ _), List.map_singleton,
        List.sum_singleton, List.length_singleton, weight_tupleText hne, hsum, htwo, hthree]
      omega
    · have hhash := weight_hashMap_le hname hbTree
      rw [render_hashMap, weight_appliedText "HashMap".toList hne, hsum, htwo]
      omega

/-- A name with arguments is written with no more weight than they have. -/
theorem weight_ofApplication_le (h : ∀ text, weight (read text).render ≤ weight text)
    (text name : List Char) {arguments : List (List Char)} (hne : arguments ≠ []) :
    weight ((Shape.ofApplication text name arguments).tree .standard read).render ≤
      weight name + (arguments.map weight).sum + arguments.length + 1 := by
  rcases Shape.ofApplication_cases text name arguments with ⟨rfl, -⟩ |
    ⟨inner, rfl, rfl, hshape⟩ | ⟨inner, rfl, rfl, hshape⟩ | ⟨key, value, rfl, hmap, hshape⟩ |
    ⟨-, -, hshape⟩
  · exact absurd rfl hne
  · rw [hshape, Shape.tree, render_vec]
    exact weight_appliedText_map_le h (Nat.le_refl _) hne
  · rw [hshape, Shape.tree, render_option]
    exact weight_appliedText_map_le h (Nat.le_refl _) hne
  · have hkey := h key
    have hvalue := h value
    have htree := weight_mapTree_le hmap (read key) (read value)
    rw [hshape, Shape.tree]
    simp only [List.map_cons, List.map_nil, List.sum_cons, List.sum_nil, List.length_cons,
      List.length_nil]
    omega
  · rw [hshape, Shape.tree, render_applied (by simpa using hne), String.toList_ofList]
    exact weight_appliedText_map_le h (Nat.le_refl _) hne

/-- The items of a tuple are written with no more weight than its inside has. -/
theorem weight_tupleItems_le (h : ∀ text, weight (read text).render ≤ weight text)
    (inner : List Char) :
    weight (tupleText (((Builtin.tupleItems inner).map read).map render)) ≤ weight inner + 2 := by
  unfold Builtin.tupleItems
  split
  · have htwo : weight (tupleText []) = 2 := by decide
    rw [List.map_nil, List.map_nil, htwo]
    omega
  · obtain ⟨pieces, hcuts⟩ := exists_cutsItems inner
    have hpieces := hcuts.weight_eq
    have hsum := sum_weight_map_le h (pieces.map trim)
    rw [commaItems_trim, commaItems_of_cuts hcuts, weight_tupleText (by simpa using hcuts.ne_nil)]
    rw [map_weight_trim] at hsum
    simp only [List.length_map]
    omega

end Reading

/-- What is read from a text is written with no more weight than the text has. -/
theorem weight_render_readWithin (levels : Nat) (text : List Char) :
    weight (readWithin .standard levels text).render ≤ weight text := by
  induction levels generalizing text with
  | zero =>
    have hsame : weight (readWithin .standard 0 text).render = weight text := by
      rw [readWithin, render_bare, String.toList_ofList, weight_trim]
    exact Nat.le_of_eq hsame
  | succ levels ih =>
    rw [← weight_trim text, readWithin]
    generalize htext : trim text = trimmed
    have htrim : Trimmed trimmed := by
      rw [← htext]
      exact trimmed_trim text
    rcases Shape.ofText_cases trimmed with ⟨p, hp, hshape⟩ | ⟨hnode, hshape⟩ |
      ⟨inner, hround, hshape⟩ | ⟨element, length, n, hsquare, -, hn, hshape⟩ | hshape
    · rw [hshape, Shape.tree, PrimitiveWords.tree, render_primitive]
      · exact weight_spelling_le htrim hp
      · rintro ⟨⟩
    · have hbytes : weight (byteArray 32).render ≤ weight "Node".toList := by decide
      rw [hshape, hnode]
      exact hbytes
    · rw [hshape, Shape.tree, render_tuple, hround, weight_append_singleton rfl,
        weight_cons rfl]
      exact weight_tupleItems_le ih inner
    · obtain ⟨hblank, hlength⟩ := length_decimal_le_of_readWord? hn
      have helement := ih element
      have hink := ink_le_weight length
      rw [← ink_trim, ink_of_forall hblank] at hink
      rw [hshape, Shape.tree, render_array, hsquare, weight_arrayText,
        weight_append_singleton rfl, weight_cons rfl, weight_append_cons rfl]
      omega
    · rw [hshape]
      by_cases hne : (Application.ofText trimmed).arguments = []
      · have hsame : (Shape.tree .standard (readWithin .standard levels)
            (Shape.ofApplication trimmed (Application.ofText trimmed).name [])).render =
            trimmed := by
          rw [Shape.ofApplication, Shape.tree, render_bare, String.toList_ofList]
        rw [hne]
        exact Nat.le_of_eq (congrArg weight hsame)
      · exact Nat.le_trans (weight_ofApplication_le ih _ _ hne) (Application.weight_le hne)

end TypeTree

end CanonicalIdl
