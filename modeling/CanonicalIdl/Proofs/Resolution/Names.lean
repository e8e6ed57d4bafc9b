import CanonicalIdl.Proofs.Resolution.Forms
import CanonicalIdl.Proofs.Text.Characters

/-!
# Names in type expressions

The words that stand for a primitive, the names that stand for themselves, and the paths
that may stand in front of the arguments of a map.

Main results:

- Theorem `ofText_name`: a name that is no word of the language is read as itself.
- Theorem `isMapName_iff`: the names of maps are the paths whose last segment ends in `Map`.
-/

namespace CanonicalIdl

open Text

/-! ## Primitive words -/

namespace Primitive

/-- A word for a primitive, in any ASCII case. -/
def IsWord (text : List Char) : Prop :=
  asciiLowered text ∈ words.map Prod.fst

instance (text : List Char) : Decidable (IsWord text) :=
  inferInstanceAs (Decidable (_ ∈ _))

/-- A trimmed text stands for the primitive that the table has for it. -/
theorem ofWord?_eq_some_iff {text : List Char} (h : Trimmed text) {p : Primitive} :
    ofWord? text = some p ↔ (asciiLowered text, p) ∈ words := by
  have hall : ∀ entry ∈ words, words.lookup entry.1 = some entry.2 := by
    decide
  rw [ofWord?, show trim text = text from h]
  constructor
  · intro hlookup
    obtain ⟨before, after, hwords, -⟩ := List.lookup_eq_some_iff.mp hlookup
    rw [hwords]
    simp
  · intro hmem
    exact hall _ hmem

theorem ofWord?_eq_none_iff {text : List Char} (h : Trimmed text) :
    ofWord? text = none ↔ ¬ IsWord text := by
  rw [Option.eq_none_iff_forall_ne_some]
  constructor
  · rintro hnone hword
    obtain ⟨⟨word, p⟩, hmem, rfl⟩ := List.mem_map.mp hword
    exact hnone p ((ofWord?_eq_some_iff h).mpr hmem)
  · intro hword p hlookup
    exact hword (List.mem_map_of_mem ((ofWord?_eq_some_iff h).mp hlookup))

theorem isAlphanum_of_isWord {text : List Char} (h : IsWord text) {c : Char} (hc : c ∈ text) :
    c.isAlphanum = true := by
  obtain ⟨entry, hentry, hword⟩ := List.mem_map.mp h
  apply isAlphanum_of_toLower
  apply isAlphanum_of_mem_words hentry
  rw [hword]
  exact List.mem_map_of_mem hc

end Primitive

/-! ## Names -/

/-- A name as it may stand in a type expression. -/
structure IsName (text : List Char) : Prop where
  nonempty : text ≠ []
  trimmed : Trimmed text
  plain : Plain text

instance (text : List Char) : Decidable (IsName text) :=
  decidable_of_iff (text ≠ [] ∧ Trimmed text ∧ Plain text)
    ⟨fun ⟨hne, htrim, hplain⟩ => ⟨hne, htrim, hplain⟩, fun h => ⟨h.nonempty, h.trimmed, h.plain⟩⟩

theorem IsName.not_mem {text : List Char} (h : IsName text) {c : Char}
    (hc : isDelimiter c = true) : c ∉ text := by
  intro hmem
  rw [h.plain c hmem] at hc
  cases hc

/-- A name that is no word of the language is read as itself. -/
theorem Shape.ofText_name {text : List Char} (h : IsName text)
    (hword : ¬ Primitive.IsWord text) (hnode : text ≠ "Node".toList) :
    ofText text = .bare text := by
  have hnone := (Primitive.ofWord?_eq_none_iff h.trimmed).mpr hword
  rcases ofText_cases text with ⟨p, hp, -⟩ | ⟨heq, -⟩ | ⟨inner, heq, -⟩ |
    ⟨element, length, n, heq, -⟩ | hshape
  · rw [hnone] at hp
    cases hp
  · exact absurd heq hnode
  · refine absurd ?_ (h.not_mem (c := '(') rfl)
    simp [heq]
  · refine absurd ?_ (h.not_mem (c := '[') rfl)
    simp [heq]
  · have hangle : ∀ c ∈ text, c ≠ '<' := by
      rintro c hc rfl
      exact h.not_mem rfl hc
    rw [hshape, Application.ofText_of_no_angle hangle]
    rfl

/-- A primitive word is read as the primitive that the table has for it. -/
theorem Shape.ofText_word {text : List Char} (h : Trimmed text) {p : Primitive}
    (hword : (asciiLowered text, p) ∈ Primitive.words) : ofText text = .primitive p := by
  rw [ofText, (Primitive.ofWord?_eq_some_iff h).mpr hword]

/-! ## Characters of paths -/

/-- The codes of the blank characters. -/
def blankCodes : List Nat :=
  List.range' 9 5 ++ [0x20, 0x85, 0xA0, 0x1680] ++ List.range' 0x2000 11 ++
    [0x2028, 0x2029, 0x202F, 0x205F, 0x3000]

theorem mem_blankCodes {c : Char} (h : isBlank c = true) : c.toNat ∈ blankCodes := by
  simp only [isBlank, Bool.or_eq_true, Bool.and_eq_true, decide_eq_true_eq, beq_iff_eq] at h
  simp only [blankCodes, List.mem_append, List.mem_range'_1, List.mem_cons, List.not_mem_nil,
    or_false]
  omega

/-- No blank is a letter or a number. -/
theorem isAlphanumeric_of_isBlank {c : Char} (h : isBlank c = true) :
    isAlphanumeric c = false := by
  have hall : ∀ code ∈ blankCodes, isAlphanumeric (Char.ofNat code) = false := by
    decide +kernel
  have hcode := hall c.toNat (mem_blankCodes h)
  rwa [Char.ofNat_toNat] at hcode

theorem isBlank_of_isPathChar {c : Char} (h : Builtin.isPathChar c = true) :
    isBlank c = false := by
  simp only [Builtin.isPathChar, Bool.or_eq_true, beq_iff_eq] at h
  rcases h with (halphanumeric | rfl) | rfl
  · by_contra hblank
    rw [Bool.not_eq_false] at hblank
    rw [isAlphanumeric_of_isBlank hblank] at halphanumeric
    cases halphanumeric
  · rfl
  · rfl

/-- A text of letters, numbers, underscores and colons is a name. -/
theorem isName_of_isQualifiedName {text : List Char} (h : Builtin.isQualifiedName text = true) :
    IsName text := by
  rw [Builtin.isQualifiedName, Bool.and_eq_true] at h
  obtain ⟨hne, hall⟩ := h
  have hchars : ∀ c ∈ text, Builtin.isPathChar c = true := List.all_eq_true.mp hall
  have hblank : ∀ c ∈ text, isBlank c = false := fun c hc => isBlank_of_isPathChar (hchars c hc)
  have hplain : Plain text := fun c hc => isDelimiter_eq_false (by decide) (hchars c hc)
  exact ⟨by simpa using hne, trimmed_of_forall hblank, hplain⟩

theorem Primitive.IsWord.isQualifiedName {text : List Char} (h : Primitive.IsWord text) :
    Builtin.isQualifiedName text = true := by
  rw [Builtin.isQualifiedName, Bool.and_eq_true]
  constructor
  · cases text with
    | nil => exact absurd h (by decide)
    | cons c rest => rfl
  · apply List.all_eq_true.mpr
    intro c hc
    have halpha := Primitive.isAlphanum_of_isWord h hc
    rw [Builtin.isPathChar, isAlphanumeric_ascii (lt_of_isAlphanum halpha), halpha]
    rfl

/-- A primitive word is a name like others, but for what it stands for. -/
theorem Primitive.IsWord.isName {text : List Char} (h : Primitive.IsWord text) : IsName text :=
  isName_of_isQualifiedName h.isQualifiedName

/-! ## Paths -/

namespace Builtin

/-- The part of a path behind its last `::`, which is all of a path without one. -/
def IsLastSegment (path base : List Char) : Prop :=
  (path = base ∧ ¬ "::".toList <:+: path) ∨
    ∃ before, path = before ++ "::".toList ++ base ∧ ¬ "::".toList <:+: ':' :: base

/-- A path in front of the arguments of a map, with its last segment. -/
structure IsMapPath (path base : List Char) : Prop where
  nonempty : path ≠ []
  characters : ∀ c ∈ path, isAlphanumeric c = true ∨ c = '_' ∨ c = ':'
  segment : IsLastSegment path base
  ending : "Map".toList <:+ base

/-- Two colons stand in a text where it starts with them or in what follows. -/
theorem colons_infix_cons_iff {c : Char} {text : List Char} :
    "::".toList <:+: c :: text ↔ (c = ':' ∧ [':'] <+: text) ∨ "::".toList <:+: text := by
  rw [List.infix_cons_iff, show "::".toList = [':', ':'] from rfl, List.cons_prefix_cons]
  constructor
  · rintro (⟨rfl, htext⟩ | htext)
    · exact .inl ⟨rfl, htext⟩
    · exact .inr htext
  · rintro (⟨rfl, htext⟩ | htext)
    · exact .inl ⟨rfl, htext⟩
    · exact .inr htext

theorem colons_infix_cons_cons_iff {c d : Char} {text : List Char} :
    "::".toList <:+: c :: d :: text ↔ (c = ':' ∧ d = ':') ∨ "::".toList <:+: d :: text := by
  rw [colons_infix_cons_iff, List.cons_prefix_cons]
  constructor
  · rintro (⟨hc, hd, -⟩ | htext)
    · exact .inl ⟨hc, hd.symm⟩
    · exact .inr htext
  · rintro (⟨hc, hd⟩ | htext)
    · exact .inl ⟨hc, hd.symm, List.nil_prefix⟩
    · exact .inr htext

/-- What stands in front of a `::` that no other `::` is in front of. -/
theorem beforeColons_append {text : List Char} (h : ¬ "::".toList <:+: text ++ [':'])
    (rest : List Char) : beforeColons (text ++ "::".toList ++ rest) = text := by
  fun_induction beforeColons text with
  | case1 => rfl
  | case2 c =>
    have hc : c ≠ ':' := fun hc => h (colons_infix_cons_cons_iff.mpr (.inl ⟨hc, rfl⟩))
    have hfirst : beforeColons (':' :: ':' :: rest) = [] := by simp [beforeColons]
    have hstep : [c] ++ "::".toList ++ rest = c :: ':' :: ':' :: rest := rfl
    rw [hstep, beforeColons, hfirst]
    simp [hc]
  | case3 c d tail hcolons =>
    have hboth : c = ':' ∧ d = ':' := by simpa using hcolons
    exact absurd (colons_infix_cons_cons_iff.mpr (.inl hboth)) h
  | case4 c d tail hcolons ih =>
    have hrest : ¬ "::".toList <:+: (d :: tail) ++ [':'] := fun hinfix =>
      h (colons_infix_cons_cons_iff.mpr (.inr hinfix))
    have hstep : c :: d :: tail ++ "::".toList ++ rest =
        c :: d :: (tail ++ "::".toList ++ rest) := by simp
    rw [hstep, beforeColons, if_neg hcolons]
    exact congrArg (c :: ·) (ih hrest)

/-- A text is what stands in front of its first `::`, alone or with that `::` behind it. -/
theorem beforeColons_cases (text : List Char) :
    (beforeColons text = text ∧ ¬ "::".toList <:+: text) ∨
      ∃ rest, text = beforeColons text ++ "::".toList ++ rest ∧
        ¬ "::".toList <:+: beforeColons text ++ [':'] := by
  fun_induction beforeColons text with
  | case1 => exact .inl ⟨rfl, by decide⟩
  | case2 c =>
    refine .inl ⟨rfl, fun hinfix => ?_⟩
    have hlength : 2 ≤ 1 := hinfix.length_le
    omega
  | case3 c d tail hcolons =>
    obtain ⟨rfl, rfl⟩ : c = ':' ∧ d = ':' := by simpa using hcolons
    exact .inr ⟨tail, rfl, by decide⟩
  | case4 c d tail hcolons ih =>
    have hboth : ¬ (c = ':' ∧ d = ':') := by simpa using hcolons
    rcases ih with ⟨hsame, hnot⟩ | ⟨rest, hsplit, hnot⟩
    · refine .inl ⟨by rw [hsame], ?_⟩
      rw [colons_infix_cons_cons_iff]
      rintro (hends | hinfix)
      · exact hboth hends
      · exact hnot hinfix
    · refine .inr ⟨rest, congrArg (c :: ·) hsplit, ?_⟩
      rw [List.cons_append, colons_infix_cons_iff]
      rintro (⟨hc, hstarts⟩ | hinfix)
      -- The first character behind `c` is the same with and without the rest.
      · have hlong : [':'] <+: d :: tail := by
          rw [hsplit]
          refine hstarts.trans ⟨':' :: rest, ?_⟩
          simp
        exact hboth ⟨hc, (List.cons_prefix_cons.mp hlong).1.symm⟩
      · exact hnot hinfix

theorem colons_infix_reverse {text : List Char} :
    "::".toList <:+: text.reverse ↔ "::".toList <:+: text := by
  have hcolons : "::".toList = "::".toList.reverse := rfl
  rw [hcolons, List.reverse_infix]
  rfl

/-- The last segment of a path is found from its end. -/
theorem lastSegment_of_isLastSegment {path base : List Char} (h : IsLastSegment path base) :
    lastSegment path = base := by
  rcases h with ⟨rfl, hcolons⟩ | ⟨before, rfl, hcolons⟩
  · rcases beforeColons_cases path.reverse with ⟨hsame, -⟩ | ⟨rest, hsplit, -⟩
    · rw [lastSegment, hsame, List.reverse_reverse]
    · exact absurd (colons_infix_reverse.mp ⟨_, _, hsplit.symm⟩) hcolons
  · have hrest : ¬ "::".toList <:+: base.reverse ++ [':'] := by
      rw [← List.reverse_cons]
      exact mt colons_infix_reverse.mp hcolons
    have hreverse : (before ++ "::".toList ++ base).reverse =
        base.reverse ++ "::".toList ++ before.reverse := by simp
    rw [lastSegment, hreverse, beforeColons_append hrest, List.reverse_reverse]

theorem isLastSegment_lastSegment (path : List Char) : IsLastSegment path (lastSegment path) := by
  rcases beforeColons_cases path.reverse with ⟨hsame, hnot⟩ | ⟨rest, hsplit, hnot⟩
  · refine .inl ⟨?_, mt colons_infix_reverse.mpr hnot⟩
    rw [lastSegment, hsame, List.reverse_reverse]
  · refine .inr ⟨rest.reverse, ?_, ?_⟩
    · have hreverse := congrArg List.reverse hsplit
      rw [List.reverse_reverse, List.reverse_append, List.reverse_append] at hreverse
      simpa [lastSegment] using hreverse
    · rw [← colons_infix_reverse, List.reverse_cons, lastSegment, List.reverse_reverse]
      exact hnot

/-- The names of maps are the paths whose last segment ends in `Map`. -/
theorem isMapName_iff {name : List Char} :
    isMapName name = true ↔ IsMapPath name (lastSegment name) := by
  rw [isMapName, isQualifiedName, Bool.and_eq_true, Bool.and_eq_true]
  constructor
  · rintro ⟨⟨hne, hchars⟩, hmap⟩
    refine ⟨by simpa using hne, ?_, isLastSegment_lastSegment name,
      List.isSuffixOf_iff_suffix.mp hmap⟩
    intro c hc
    have hpath : isPathChar c = true := List.all_eq_true.mp hchars c hc
    simpa [isPathChar, or_assoc] using hpath
  · rintro ⟨hne, hchars, -, hmap⟩
    refine ⟨⟨by simpa using hne, List.all_eq_true.mpr ?_⟩, List.isSuffixOf_iff_suffix.mpr hmap⟩
    intro c hc
    simpa [isPathChar, or_assoc] using hchars c hc

theorem IsMapPath.isMapName {path base : List Char} (h : IsMapPath path base) :
    isMapName path = true := by
  rw [isMapName_iff, lastSegment_of_isLastSegment h.segment]
  exact h

theorem IsMapPath.isName {path base : List Char} (h : IsMapPath path base) : IsName path := by
  apply isName_of_isQualifiedName
  have hmap := h.isMapName
  rw [Builtin.isMapName, Bool.and_eq_true] at hmap
  exact hmap.1

/-- A path of a map ends in `Map`. -/
theorem IsMapPath.suffix {path base : List Char} (h : IsMapPath path base) :
    "Map".toList <:+ path := by
  rcases h.segment with ⟨rfl, -⟩ | ⟨before, rfl, -⟩
  · exact h.ending
  · exact h.ending.trans (List.suffix_append _ _)

end Builtin

end CanonicalIdl
