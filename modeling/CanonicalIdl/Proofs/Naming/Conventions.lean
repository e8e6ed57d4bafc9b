import CanonicalIdl.Discriminator
import CanonicalIdl.Proofs.Text.Characters

/-!
# Naming conventions

A name of several words may join them by underscores or by hyphens, or mark each word by a
capital, the first word too or not.  Discriminators are made from names in one spelling
only, which is found again from each of the four.  For an account it is upper camel case.
For an instruction it is snake case, and a word must start with two letters, since a hump
is seen by the small letter that it starts behind or is followed by.

Main results:

- Theorem `nameWords_join`: a name in any convention falls into its words again.
- Theorem `joinHumps_snake`: the canonical spelling of a snake case name is lower camel case.
- Theorems `accountSpelling_spell`, `instructionSpelling_spell`: the spelling in a tag does not
  depend on the convention.
- Theorem `Discriminator.conventions_agree`: neither do the tags of accounts and instructions.
-/

namespace CanonicalIdl

open Text

/-! ## Words and conventions -/

/-- A small ASCII letter in front of small ASCII letters and digits. -/
def IsSmallWord : List Char → Prop
  | [] => False
  | c :: rest => c.isLower = true ∧ ∀ d ∈ rest, d.isLower = true ∨ d.isDigit = true

/-- The second character is there and is a letter. -/
def HasSecondLetter : List Char → Prop
  | _ :: d :: _ => d.isAlpha = true
  | _ => False

/-- The word with its first letter capital. -/
def humped : List Char → List Char
  | [] => []
  | c :: rest => c.toUpper :: rest

/-- The ways to write several words as one name. -/
inductive Convention where
  | snake
  | kebab
  | lowerCamel
  | upperCamel
  deriving DecidableEq

/-- The words as one name. -/
def Convention.join : Convention → List (List Char) → List Char
  | .snake, words => List.intercalate ['_'] words
  | .kebab, words => List.intercalate ['-'] words
  | .lowerCamel, [] => []
  | .lowerCamel, first :: rest => first ++ rest.flatMap humped
  | .upperCamel, words => words.flatMap humped

/-- The name that the words make. -/
def Convention.spell (convention : Convention) (words : List (List Char)) : String :=
  String.ofList (convention.join words)

instance (word : List Char) : Decidable (IsSmallWord word) :=
  match word with
  | [] => .isFalse id
  | c :: rest =>
    decidable_of_iff (c.isLower = true ∧ rest.all (fun d => d.isLower || d.isDigit) = true)
      (by simp [IsSmallWord])

instance (word : List Char) : Decidable (HasSecondLetter word) :=
  match word with
  | [] => .isFalse id
  | [_] => .isFalse id
  | _ :: _ :: _ => inferInstanceAs (Decidable (_ = true))

/-! ## Characters of words -/

/-- A small letter or a digit, as the conversions of names see it. -/
structure IsSmall (c : Char) : Prop where
  ascii : c.toNat < 128
  alphanumeric : isAlphanumeric c = true
  notUpper : isUppercase c = false
  notSeparator : isSeparator c = false
  lowered : c.toLower = c

instance (c : Char) : Decidable (IsSmall c) :=
  decidable_of_iff (c.toNat < 128 ∧ isAlphanumeric c = true ∧ isUppercase c = false ∧
      isSeparator c = false ∧ c.toLower = c)
    ⟨fun ⟨hascii, halnum, hupper, hseparator, hlower⟩ =>
      ⟨hascii, halnum, hupper, hseparator, hlower⟩,
    fun h => ⟨h.ascii, h.alphanumeric, h.notUpper, h.notSeparator, h.lowered⟩⟩

/-- The capital of a small letter, as the conversions of names see it. -/
structure IsHump (c : Char) : Prop where
  ascii : c.toUpper.toNat < 128
  alphanumeric : isAlphanumeric c.toUpper = true
  upper : isUppercase c.toUpper = true
  notSeparator : isSeparator c.toUpper = false
  lowered : c.toUpper.toLower = c
  capital : c.toUpper.toUpper = c.toUpper

instance (c : Char) : Decidable (IsHump c) :=
  decidable_of_iff (c.toUpper.toNat < 128 ∧ isAlphanumeric c.toUpper = true ∧
      isUppercase c.toUpper = true ∧ isSeparator c.toUpper = false ∧
      c.toUpper.toLower = c ∧ c.toUpper.toUpper = c.toUpper)
    ⟨fun ⟨hascii, halnum, hupper, hseparator, hlower, hcapital⟩ =>
      ⟨hascii, halnum, hupper, hseparator, hlower, hcapital⟩,
    fun h => ⟨h.ascii, h.alphanumeric, h.upper, h.notSeparator, h.lowered, h.capital⟩⟩

theorem isSmall {c : Char} (h : c.isLower = true ∨ c.isDigit = true) : IsSmall c := by
  rcases h with h | h
  · exact of_mem_range 97 26 (by decide) (isLower_iff.mp h)
  · exact of_isDigit (by decide) h

theorem isHump {c : Char} (h : c.isLower = true) : IsHump c :=
  of_mem_range 97 26 (by decide) (isLower_iff.mp h)

theorem isLowercase_of_isLower {c : Char} (h : c.isLower = true) : isLowercase c = true := by
  rw [isLowercase_ascii (isSmall (.inl h)).ascii, h]

/-! ## Small words -/

namespace IsSmallWord

variable {word : List Char}

theorem ne_nil (h : IsSmallWord word) : word ≠ [] := by
  rintro rfl
  exact h

/-- All characters of a small word are small. -/
theorem small (h : IsSmallWord word) {c : Char} (hc : c ∈ word) : IsSmall c := by
  cases word with
  | nil => cases hc
  | cons first rest =>
    rcases List.mem_cons.mp hc with rfl | hc
    · exact isSmall (.inl h.1)
    · exact isSmall (h.2 c hc)

/-- The characters of a small word with its first letter capital are letters and digits. -/
theorem of_mem_humped (h : IsSmallWord word) {c : Char} (hc : c ∈ humped word) :
    isAlphanumeric c = true ∧ isSeparator c = false := by
  cases word with
  | nil => cases hc
  | cons first rest =>
    rcases List.mem_cons.mp hc with rfl | hc
    · exact ⟨(isHump h.1).alphanumeric, (isHump h.1).notSeparator⟩
    · exact ⟨(isSmall (h.2 c hc)).alphanumeric, (isSmall (h.2 c hc)).notSeparator⟩

end IsSmallWord

namespace Text

/-- On ASCII the small form of a word is the familiar one. -/
theorem loweredWord_ascii {word : List Char} (h : ∀ c ∈ word, c.toNat < 128) :
    loweredWord word = word.map Char.toLower := by
  have hsigma : ∀ c ∈ word, (c == capitalSigma) = false := by
    intro c hc
    apply beq_eq_false_iff_ne.mpr
    rintro rfl
    exact absurd (h _ hc) (by decide)
  fun_induction loweredWord word with
  | case1 => rfl
  | case2 c => simp_all
  | case3 c =>
    have hc : c.toNat < 128 := h c List.mem_cons_self
    simp [lowerForm_ascii hc]
  | case4 c next rest ih =>
    have hc : c.toNat < 128 := h c List.mem_cons_self
    have hrest := ih (fun d hd => h d (List.mem_cons_of_mem c hd))
      fun d hd => hsigma d (List.mem_cons_of_mem c hd)
    simp [lowerForm_ascii hc, hrest]

/-- A small word is its own small form. -/
theorem loweredWord_of_small {word : List Char} (h : ∀ c ∈ word, IsSmall c) :
    loweredWord word = word := by
  rw [loweredWord_ascii fun c hc => (h c hc).ascii]
  exact (List.map_congr_left fun c hc => (h c hc).lowered).trans (List.map_id word)

theorem loweredWord_humped {word : List Char} (h : IsSmallWord word) :
    loweredWord (humped word) = word := by
  cases word with
  | nil => rfl
  | cons c rest =>
    have hrest : ∀ d ∈ rest, IsSmall d := fun d hd => isSmall (h.2 d hd)
    have hascii : ∀ d ∈ c.toUpper :: rest, d.toNat < 128 := by
      intro d hd
      rcases List.mem_cons.mp hd with rfl | hd
      · exact (isHump h.1).ascii
      · exact (hrest d hd).ascii
    have hmap : rest.map Char.toLower = rest :=
      (List.map_congr_left fun d hd => (hrest d hd).lowered).trans (List.map_id rest)
    rw [humped, loweredWord_ascii hascii, List.map_cons, (isHump h.1).lowered, hmap]

theorem capitalizedWord_of_small {word : List Char} (h : IsSmallWord word) :
    capitalizedWord word = humped word := by
  cases word with
  | nil => rfl
  | cons c rest =>
    have hrest : ∀ d ∈ rest, IsSmall d := fun d hd => isSmall (h.2 d hd)
    rw [capitalizedWord, upperForm_ascii (isSmall (.inl h.1)).ascii, loweredWord_of_small hrest]
    rfl

/-! ## Runs of letters and digits -/

section Runs

variable {run : List Char} {mark : Char}

theorem alphanumericRuns_of_forall (h : ∀ c ∈ run, isAlphanumeric c = true) :
    alphanumericRuns run = [run] := by
  induction run with
  | nil => rfl
  | cons c rest ih =>
    have hrest := ih fun d hd => h d (List.mem_cons_of_mem c hd)
    rw [alphanumericRuns, if_pos (h c List.mem_cons_self), hrest, consWord]

/-- A run ends at the first character that is neither a letter nor a digit. -/
theorem alphanumericRuns_append (h : ∀ c ∈ run, isAlphanumeric c = true)
    (hmark : isAlphanumeric mark = false) (rest : List Char) :
    alphanumericRuns (run ++ mark :: rest) = run :: alphanumericRuns rest := by
  induction run with
  | nil => simp [alphanumericRuns, hmark]
  | cons c others ih =>
    have hothers := ih fun d hd => h d (List.mem_cons_of_mem c hd)
    rw [List.cons_append, alphanumericRuns, if_pos (h c List.mem_cons_self), hothers, consWord]

/-- Words that are joined by such a character are its runs. -/
theorem alphanumericRuns_intercalate {words : List (List Char)} (hne : words ≠ [])
    (h : ∀ word ∈ words, ∀ c ∈ word, isAlphanumeric c = true)
    (hmark : isAlphanumeric mark = false) :
    alphanumericRuns (List.intercalate [mark] words) = words := by
  induction words with
  | nil => exact absurd rfl hne
  | cons word rest ih =>
    have hword := h word List.mem_cons_self
    cases rest with
    | nil => rw [List.intercalate_singleton, alphanumericRuns_of_forall hword]
    | cons next others =>
      have hrest := ih (List.cons_ne_nil next others)
        fun w hw => h w (List.mem_cons_of_mem word hw)
      rw [List.intercalate_cons_cons, List.append_assoc, List.singleton_append,
        alphanumericRuns_append hword hmark, hrest]

end Runs

/-! ## Humps -/

/-- A run without capitals is one word. -/
theorem humps_of_no_capital {run : List Char} (mode : WordMode) (hne : run ≠ [])
    (h : ∀ c ∈ run, isUppercase c = false) : humps mode run = [run] := by
  fun_induction humps mode run with
  | case1 => exact absurd rfl hne
  | case2 => rfl
  | case3 mode c next rest hhump =>
    have hnext : isUppercase next = false := h next (by simp)
    simp [hnext] at hhump
  | case4 mode c next rest _ hhump =>
    have hc : isUppercase c = false := h c List.mem_cons_self
    simp [hc] at hhump
  | case5 mode c next rest _ _ ih =>
    rw [ih (List.cons_ne_nil next rest) fun d hd => h d (List.mem_cons_of_mem c hd), consWord]

/-- So is a run of which only the first character may be a capital. -/
theorem humps_cons_of_no_capital {c : Char} {rest : List Char}
    (h : ∀ d ∈ rest, isUppercase d = false) : humps .uncased (c :: rest) = [c :: rest] := by
  cases rest with
  | nil => rfl
  | cons next others =>
    have hnext : isUppercase next = false := h next List.mem_cons_self
    rw [humps, if_neg (by simp [hnext]), if_neg (by simp),
      humps_of_no_capital _ (List.cons_ne_nil next others) h, consWord]

/-- A word ends in front of a capital, if a small letter has come before and no other capital
since. -/
theorem humps_append_capital {mode : WordMode} {d u : Char} {rest : List Char}
    (hd : mode.after d = .lower) (h : ∀ c ∈ d :: rest, IsSmall c) (hu : isUppercase u = true)
    (tail : List Char) :
    humps mode (d :: rest ++ u :: tail) = (d :: rest) :: humps .uncased (u :: tail) := by
  induction rest generalizing mode d with
  | nil =>
    rw [List.singleton_append, humps, if_pos ⟨hd, hu⟩]
  | cons next others ih =>
    have hnext : isUppercase next = false := (h next (by simp)).notUpper
    have hfirst : isUppercase d = false := (h d List.mem_cons_self).notUpper
    have hafter : (WordMode.lower).after next = .lower := by simp [WordMode.after, hnext]
    rw [List.cons_append, List.cons_append, humps, if_neg (by simp [hnext]),
      if_neg (by simp [hfirst]), hd, ← List.cons_append,
      ih hafter fun c hc => h c (List.mem_cons_of_mem d hc), consWord]

/-- A word as a hump starts it, or the first of a name: its second letter is small. -/
def IsHumpWord : List Char → Prop
  | _ :: d :: rest => isLowercase d = true ∧ ∀ c ∈ d :: rest, IsSmall c
  | _ => False

theorem humps_humpWord_append {word : List Char} (h : IsHumpWord word) {u : Char}
    (hu : isUppercase u = true) (tail : List Char) :
    humps .uncased (word ++ u :: tail) = word :: humps .uncased (u :: tail) := by
  match word, h with
  | c :: d :: rest, ⟨hlower, hsmall⟩ =>
    have hd : isUppercase d = false := (hsmall d List.mem_cons_self).notUpper
    have hafter : ∀ mode : WordMode, mode.after d = .lower := by simp [WordMode.after, hlower]
    rw [List.cons_append, List.cons_append, humps, if_neg (by simp [hd]), if_neg (by simp),
      ← List.cons_append, humps_append_capital (hafter _) hsmall hu, consWord]

theorem humps_humpWord {word : List Char} (h : IsHumpWord word) :
    humps .uncased word = [word] := by
  match word, h with
  | c :: d :: rest, ⟨_, hsmall⟩ =>
    exact humps_cons_of_no_capital fun e he => (hsmall e he).notUpper

end Text

theorem IsSmallWord.isHumpWord {word : List Char} (h : IsSmallWord word)
    (hsecond : HasSecondLetter word) : IsHumpWord word ∧ IsHumpWord (humped word) := by
  match word, h, hsecond with
  | c :: d :: rest, h, hsecond =>
    have hlower : d.isLower = true := by
      rcases h.2 d List.mem_cons_self with hlower | hdigit
      · exact hlower
      · have hletter : d.isAlpha = true := hsecond
        have hcode := isDigit_iff.mp hdigit
        simp only [Char.isAlpha, Bool.or_eq_true, isUpper_iff, isLower_iff] at hletter
        omega
    have htail : isLowercase d = true ∧ ∀ e ∈ d :: rest, IsSmall e :=
      ⟨isLowercase_of_isLower hlower, fun e he => isSmall (h.2 e he)⟩
    exact ⟨htail, htail⟩

/-! ## Names fall into their words -/

section Words

variable {words : List (List Char)}

/-- The words of a name in camel case, the first as it is written. -/
theorem humps_flatMap_humped {first : List Char} (hfirst : IsHumpWord first)
    (h : ∀ word ∈ words, IsSmallWord word ∧ HasSecondLetter word) :
    humps .uncased (first ++ words.flatMap humped) = first :: words.map humped := by
  induction words generalizing first with
  | nil => simpa using humps_humpWord hfirst
  | cons word rest ih =>
    obtain ⟨⟨hword, hsecond⟩, hrest⟩ := List.forall_mem_cons.mp h
    have hnext := ih (hword.isHumpWord hsecond).2 hrest
    cases word with
    | nil => exact absurd rfl hword.ne_nil
    | cons c tail =>
      have hcapital := (isHump hword.1).upper
      rw [humped, List.cons_append] at hnext
      rw [List.flatMap_cons, List.map_cons, humped, List.cons_append,
        humps_humpWord_append hfirst hcapital, hnext]

theorem nameWords_intercalate {mark : Char} (hmark : isAlphanumeric mark = false)
    (h : ∀ word ∈ words, IsSmallWord word) :
    nameWords (List.intercalate [mark] words) = words := by
  by_cases hne : words = []
  · subst hne
    rfl
  · have hruns : alphanumericRuns (List.intercalate [mark] words) = words :=
      alphanumericRuns_intercalate hne
        (fun word hword c hc => ((h word hword).small hc).alphanumeric) hmark
    have hhumps : ∀ word ∈ words, humps .uncased word = [word] := fun word hword =>
      humps_of_no_capital .uncased (h word hword).ne_nil
        fun c hc => ((h word hword).small hc).notUpper
    rw [nameWords, hruns, List.flatMap_congr hhumps, List.flatMap_singleton']

theorem nameWords_of_alphanumeric {name : List Char}
    (h : ∀ c ∈ name, isAlphanumeric c = true) : nameWords name = humps .uncased name := by
  rw [nameWords, alphanumericRuns_of_forall h, List.flatMap_singleton]

theorem mem_flatMap_humped (h : ∀ word ∈ words, IsSmallWord word) {c : Char}
    (hc : c ∈ words.flatMap humped) : isAlphanumeric c = true ∧ isSeparator c = false := by
  obtain ⟨word, hword, hc⟩ := List.mem_flatMap.mp hc
  exact (h word hword).of_mem_humped hc

/-- A name in camel case holds letters and digits only. -/
theorem mem_camel {convention : Convention}
    (hcamel : convention = .lowerCamel ∨ convention = .upperCamel)
    (h : ∀ word ∈ words, IsSmallWord word) {c : Char} (hc : c ∈ convention.join words) :
    isAlphanumeric c = true ∧ isSeparator c = false := by
  rcases hcamel with rfl | rfl
  · cases words with
    | nil => cases hc
    | cons first rest =>
      obtain ⟨hfirst, hrest⟩ := List.forall_mem_cons.mp h
      rcases List.mem_append.mp hc with hc | hc
      · exact ⟨(hfirst.small hc).alphanumeric, (hfirst.small hc).notSeparator⟩
      · exact mem_flatMap_humped hrest hc
  · exact mem_flatMap_humped h hc

/-- A name in any convention falls into its words again. -/
theorem nameWords_join (convention : Convention)
    (h : ∀ word ∈ words, IsSmallWord word ∧ HasSecondLetter word) :
    (nameWords (convention.join words)).map loweredWord = words := by
  have hsmall : ∀ word ∈ words, IsSmallWord word := fun word hword => (h word hword).1
  have hlowered : words.map loweredWord = words :=
    (List.map_congr_left fun word hword =>
      loweredWord_of_small fun c hc => (hsmall word hword).small hc).trans (List.map_id words)
  have hhumped : ∀ words : List (List Char), (∀ word ∈ words, IsSmallWord word) →
      (words.map humped).map loweredWord = words := by
    intro words hwords
    rw [List.map_map]
    exact (List.map_congr_left fun word hword => loweredWord_humped (hwords word hword)).trans
      (List.map_id words)
  cases convention with
  | snake => rw [Convention.join, nameWords_intercalate (by decide) hsmall, hlowered]
  | kebab => rw [Convention.join, nameWords_intercalate (by decide) hsmall, hlowered]
  | lowerCamel =>
    rw [nameWords_of_alphanumeric fun c hc => (mem_camel (.inl rfl) hsmall hc).1]
    cases words with
    | nil => rfl
    | cons first rest =>
      obtain ⟨⟨hfirst, hsecond⟩, hrest⟩ := List.forall_mem_cons.mp h
      rw [Convention.join, humps_flatMap_humped (hfirst.isHumpWord hsecond).1 hrest, List.map_cons,
        hhumped rest fun word hword => (hrest word hword).1,
        loweredWord_of_small fun c hc => hfirst.small hc]
  | upperCamel =>
    rw [nameWords_of_alphanumeric fun c hc => (mem_camel (.inr rfl) hsmall hc).1]
    cases words with
    | nil => rfl
    | cons first rest =>
      obtain ⟨⟨hfirst, hsecond⟩, hrest⟩ := List.forall_mem_cons.mp h
      rw [Convention.join, List.flatMap_cons,
        humps_flatMap_humped (hfirst.isHumpWord hsecond).2 hrest, ← List.map_cons,
        hhumped (first :: rest) hsmall]

/-! ## The canonical spelling of a snake case name -/

/-- A character that is no separator is kept. -/
theorem joinHumps_cons_of_not_separator {c : Char} (hc : isSeparator c = false)
    (rest : List Char) : joinHumps (c :: rest) = c :: joinHumps rest := by
  cases rest with
  | nil => rfl
  | cons next others => simp [joinHumps, hc]

theorem joinHumps_append_of_no_separator {front : List Char}
    (h : ∀ c ∈ front, isSeparator c = false) (rest : List Char) :
    joinHumps (front ++ rest) = front ++ joinHumps rest := by
  induction front with
  | nil => rfl
  | cons c others ih =>
    rw [List.cons_append, joinHumps_cons_of_not_separator (h c List.mem_cons_self),
      ih fun d hd => h d (List.mem_cons_of_mem c hd), List.cons_append]

theorem intercalate_cons_eq_flatMap (mark : Char) (first : List Char) :
    List.intercalate [mark] (first :: words) = first ++ words.flatMap (mark :: ·) := by
  induction words generalizing first with
  | nil => simp
  | cons word rest ih =>
    rw [List.intercalate_cons_cons, ih, List.flatMap_cons, List.append_assoc,
      List.singleton_append, List.cons_append]

/-- Each underscore in front of a word becomes the capital of the word. -/
theorem joinHumps_flatMap (h : ∀ word ∈ words, IsSmallWord word) :
    joinHumps (words.flatMap ('_' :: ·)) = words.flatMap humped := by
  induction words with
  | nil => rfl
  | cons word rest ih =>
    obtain ⟨hword, hrest⟩ := List.forall_mem_cons.mp h
    cases word with
    | nil => exact absurd rfl hword.ne_nil
    | cons c tail =>
      have hhump : (isSeparator '_' && takesHump c) = true := by
        simp [isSeparator, takesHump, hword.1]
      have htail : ∀ d ∈ tail, isSeparator d = false :=
        fun d hd => (hword.small (List.mem_cons_of_mem c hd)).notSeparator
      rw [List.flatMap_cons, List.cons_append, List.cons_append, joinHumps, if_pos hhump,
        joinHumps_append_of_no_separator htail, ih hrest]
      rfl

theorem joinHumps_snake (h : ∀ word ∈ words, IsSmallWord word) :
    joinHumps (Convention.snake.join words) = Convention.lowerCamel.join words := by
  cases words with
  | nil => rfl
  | cons first rest =>
    obtain ⟨hfirst, hrest⟩ := List.forall_mem_cons.mp h
    rw [Convention.join, intercalate_cons_eq_flatMap, Convention.join,
      joinHumps_append_of_no_separator fun c hc => (hfirst.small hc).notSeparator,
      joinHumps_flatMap hrest]

/-- The canonical spelling of a snake case name is lower camel case. -/
theorem camelName_snake (h : ∀ word ∈ words, IsSmallWord word) :
    camelName (Convention.snake.spell words) = Convention.lowerCamel.spell words := by
  have hchars : ∀ c ∈ Convention.snake.join words, c.toNat < 128 ∧ c.toLower = c := by
    intro c hc
    cases words with
    | nil => cases hc
    | cons first rest =>
      obtain ⟨hfirst, hrest⟩ := List.forall_mem_cons.mp h
      rw [Convention.join, intercalate_cons_eq_flatMap] at hc
      rcases List.mem_append.mp hc with hc | hc
      · exact ⟨(hfirst.small hc).ascii, (hfirst.small hc).lowered⟩
      obtain ⟨word, hword, hc⟩ := List.mem_flatMap.mp hc
      rcases List.mem_cons.mp hc with rfl | hc
      · decide
      · exact ⟨((hrest word hword).small hc).ascii, ((hrest word hword).small hc).lowered⟩
  have hlowered : lowered (Convention.snake.join words) = Convention.snake.join words := by
    rw [lowered_eq_map_toLower fun c hc => (hchars c hc).1]
    exact (List.map_congr_left fun c hc => (hchars c hc).2).trans (List.map_id _)
  rw [camelName, Convention.spell, String.toList_ofList, hlowered, joinHumps_snake h,
    Convention.spell]

/-! ## Spellings in tags -/

theorem capitalized_ofList {c : Char} (hc : c.toNat < 128) (rest : List Char) :
    capitalized (String.ofList (c :: rest)) = String.ofList (c.toUpper :: rest) := by
  rw [capitalized, String.toList_ofList]
  change String.ofList (upperForm c ++ rest) = String.ofList (c.toUpper :: rest)
  rw [upperForm_ascii hc, List.singleton_append]

theorem accountSpelling_of_no_separator {name : List Char}
    (h : ∀ c ∈ name, isSeparator c = false) :
    Discriminator.accountSpelling (String.ofList name) = capitalized (String.ofList name) := by
  have hnone : name.any isSeparator = false := by simpa using h
  rw [Discriminator.accountSpelling, String.toList_ofList, hnone]
  rfl

theorem accountSpelling_intercalate {mark : Char} (hmark : isSeparator mark = true)
    (halnum : isAlphanumeric mark = false) (h : ∀ word ∈ words, IsSmallWord word) :
    Discriminator.accountSpelling (String.ofList (List.intercalate [mark] words)) =
      Convention.upperCamel.spell words := by
  rcases words with _ | ⟨first, _ | ⟨second, rest⟩⟩
  · exact capitalized_empty
  · have hfirst := h first List.mem_cons_self
    cases first with
    | nil => exact absurd rfl hfirst.ne_nil
    | cons c tail =>
      rw [List.intercalate_singleton,
        accountSpelling_of_no_separator fun d hd => (hfirst.small hd).notSeparator,
        capitalized_ofList (isSmall (.inl hfirst.1)).ascii]
      simp [Convention.spell, Convention.join, humped]
  · have hsome : (List.intercalate [mark] (first :: second :: rest)).any isSeparator = true := by
      rw [List.intercalate_cons_cons]
      simp [hmark]
    have hwords : ∀ word ∈ first :: second :: rest, capitalizedWord word = humped word :=
      fun word hword => capitalizedWord_of_small (h word hword)
    rw [Discriminator.accountSpelling, String.toList_ofList, if_pos hsome, upperCamelCase,
      nameWords_intercalate halnum h, List.flatMap_congr hwords]
    rfl

/-- The tag of an account holds its name in upper camel case. -/
theorem accountSpelling_spell (convention : Convention)
    (h : ∀ word ∈ words, IsSmallWord word) :
    Discriminator.accountSpelling (convention.spell words) =
      Convention.upperCamel.spell words := by
  cases convention with
  | snake => exact accountSpelling_intercalate (by decide) (by decide) h
  | kebab => exact accountSpelling_intercalate (by decide) (by decide) h
  | lowerCamel =>
    rw [Convention.spell,
      accountSpelling_of_no_separator fun c hc => (mem_camel (.inl rfl) h hc).2]
    rcases words with _ | ⟨_ | ⟨c, tail⟩, rest⟩
    · exact capitalized_empty
    · exact absurd rfl (h [] List.mem_cons_self).ne_nil
    · have hfirst := h (c :: tail) List.mem_cons_self
      rw [Convention.join, List.cons_append, capitalized_ofList (isSmall (.inl hfirst.1)).ascii]
      rfl
  | upperCamel =>
    rw [Convention.spell,
      accountSpelling_of_no_separator fun c hc => (mem_camel (.inr rfl) h hc).2]
    rcases words with _ | ⟨_ | ⟨c, tail⟩, rest⟩
    · exact capitalized_empty
    · exact absurd rfl (h [] List.mem_cons_self).ne_nil
    · have hhump := isHump (h (c :: tail) List.mem_cons_self).1
      rw [Convention.join, List.flatMap_cons, humped, List.cons_append,
        capitalized_ofList hhump.ascii, hhump.capital]

/-- The tag of an instruction holds its name in snake case. -/
theorem instructionSpelling_spell (convention : Convention)
    (h : ∀ word ∈ words, IsSmallWord word ∧ HasSecondLetter word) :
    Discriminator.instructionSpelling (convention.spell words) =
      Convention.snake.spell words := by
  rw [Discriminator.instructionSpelling, Convention.spell, String.toList_ofList, snakeCase,
    nameWords_join convention h]
  rfl

/-- Words of one letter run together in upper camel case. -/
example :
    Discriminator.instructionSpelling (Convention.upperCamel.spell [['a'], ['b']]) = "ab" := by
  decide

end Words

/-- The tags of an account and of an instruction do not depend on the convention that its name is
written in, nor the tag of an instruction on whether its snake case name has been brought to the
canonical spelling. -/
theorem Discriminator.conventions_agree {words : List (List Char)}
    (h : ∀ word ∈ words, IsSmallWord word) :
    (∀ convention other : Convention,
        ofAccount (convention.spell words) = ofAccount (other.spell words)) ∧
      ((∀ word ∈ words, HasSecondLetter word) →
        (∀ convention other : Convention,
          ofInstruction (convention.spell words) = ofInstruction (other.spell words)) ∧
        ofInstruction (camelName (Convention.snake.spell words)) =
          ofInstruction (Convention.snake.spell words)) := by
  refine ⟨?_, ?_⟩
  · intro convention other
    rw [ofAccount, ofAccount, accountSpelling_spell convention h, accountSpelling_spell other h]
  · intro hsecond
    have hwords : ∀ word ∈ words, IsSmallWord word ∧ HasSecondLetter word :=
      fun word hword => ⟨h word hword, hsecond word hword⟩
    have hsame : ∀ convention other : Convention,
        ofInstruction (convention.spell words) = ofInstruction (other.spell words) := by
      intro convention other
      rw [ofInstruction, ofInstruction, instructionSpelling_spell convention hwords,
        instructionSpelling_spell other hwords]
    refine ⟨hsame, ?_⟩
    rw [camelName_snake h]
    exact hsame .lowerCamel .snake

/-- A name with digits at the end of a word. -/
theorem Discriminator.conventions_agree_createVault2Pool :
    (∀ word ∈ ["create".toList, "vault2".toList, "pool".toList],
        IsSmallWord word ∧ HasSecondLetter word) ∧
      ofAccount "create_vault2_pool" = ofAccount "CreateVault2Pool" ∧
      ofInstruction "create-vault2-pool" = ofInstruction "createVault2Pool" ∧
      ofInstruction (camelName "create_vault2_pool") = ofInstruction "create_vault2_pool" := by
  have hwords : ∀ word ∈ ["create".toList, "vault2".toList, "pool".toList],
      IsSmallWord word ∧ HasSecondLetter word := by
    decide
  obtain ⟨haccount, hinstruction⟩ :=
    conventions_agree fun word hword => (hwords word hword).1
  obtain ⟨hsame, hcanonical⟩ := hinstruction fun word hword => (hwords word hword).2
  exact ⟨hwords, haccount .snake .upperCamel, hsame .kebab .lowerCamel, hcanonical⟩

end CanonicalIdl
