import CanonicalIdl.Proofs.Naming.Conventions

/-!
# Snake case names

A snake case name holds small letters, digits and underscores.  Underscores may stand at its
ends and next to one another, but not in front of a digit: a digit has no capital, and an
underscore that is dropped there leaves no trace.  In front of a letter it leaves a capital, so
the name can be told from its canonical spelling.

Main results:

- Theorem `splitHumps_joinHumps`: splitting the humps of a name gives back what was joined.
- Theorem `splitHumps_camelName`: the name is told from its canonical spelling.
- Theorem `camelName_inj`: two names in snake case do not get one spelling.
- Theorem `nodup_map_camelName`: different names in snake case stay different.
-/

namespace CanonicalIdl

open Text

/-! ## The names -/

/-- A small letter, a digit or an underscore. -/
def IsSnakeChar (c : Char) : Prop :=
  c.isLower = true ∨ c.isDigit = true ∨ c = '_'

/-- Small letters, digits and underscores, without an underscore in front of a digit. -/
structure IsSnakeCase (name : List Char) : Prop where
  chars : ∀ c ∈ name, IsSnakeChar c
  digits : name.IsChain fun c d => c = '_' → d.isDigit = false

instance (c : Char) : Decidable (IsSnakeChar c) :=
  inferInstanceAs (Decidable (_ ∨ _ ∨ _))

instance (name : List Char) : Decidable (IsSnakeCase name) :=
  decidable_of_iff (name.all (fun c => decide (IsSnakeChar c)) = true ∧
      name.IsChain fun c d => c = '_' → d.isDigit = false)
    ⟨fun ⟨hchars, hdigits⟩ => ⟨by simpa using hchars, hdigits⟩,
      fun h => ⟨by simpa using h.chars, h.digits⟩⟩

/-- The name with an underscore and a small letter for each capital. -/
def splitHumps (name : List Char) : List Char :=
  name.flatMap fun c => if c.isUpper then ['_', c.toLower] else [c]

theorem splitHumps_cons_of_not_upper {c : Char} (h : c.isUpper = false) (rest : List Char) :
    splitHumps (c :: rest) = c :: splitHumps rest := by
  rw [splitHumps, List.flatMap_cons, h, if_neg Bool.false_ne_true]
  rfl

/-- The capital of a small letter is split into an underscore and the letter. -/
theorem splitHumps_cons_toUpper {c : Char} (h : c.isLower = true) (rest : List Char) :
    splitHumps (c.toUpper :: rest) = '_' :: c :: splitHumps rest := by
  have hhump := isHump h
  have hupper : c.toUpper.isUpper = true := by
    rw [← isUppercase_ascii hhump.ascii]
    exact hhump.upper
  rw [splitHumps, List.flatMap_cons, if_pos hupper, hhump.lowered]
  rfl

/-! ## Characters -/

namespace IsSnakeChar

variable {c : Char} (h : IsSnakeChar c)

include h

theorem isSmall_or_eq_underscore : IsSmall c ∨ c = '_' := by
  rcases h with hlower | hdigit | hunderscore
  · exact .inl (isSmall (.inl hlower))
  · exact .inl (isSmall (.inr hdigit))
  · exact .inr hunderscore

/-- Making a snake case character small changes nothing. -/
theorem lowered : c.toNat < 128 ∧ c.toLower = c := by
  rcases h.isSmall_or_eq_underscore with hsmall | rfl
  · exact ⟨hsmall.ascii, hsmall.lowered⟩
  · decide

theorem isUpper_eq_false : c.isUpper = false := by
  rcases h.isSmall_or_eq_underscore with hsmall | rfl
  · rw [← isUppercase_ascii hsmall.ascii]
    exact hsmall.notUpper
  · decide

/-- The only separator in snake case is the underscore. -/
theorem eq_underscore (hseparator : isSeparator c = true) : c = '_' := by
  rcases h.isSmall_or_eq_underscore with hsmall | hunderscore
  · exact absurd hseparator (by simp [hsmall.notSeparator])
  · exact hunderscore

end IsSnakeChar

/-! ## Splitting what was joined -/

namespace IsSnakeCase

variable {name : List Char}

theorem tail {c : Char} {rest : List Char} (h : IsSnakeCase (c :: rest)) : IsSnakeCase rest :=
  ⟨fun d hd => h.chars d (List.mem_cons_of_mem c hd), h.digits.tail⟩

/-- A character that takes a hump behind a separator is a letter. -/
theorem isLower_of_takesHump {c next : Char} {rest : List Char}
    (h : IsSnakeCase (c :: next :: rest)) (hseparator : isSeparator c = true)
    (hhump : takesHump next = true) : next.isLower = true := by
  have hdigit : next.isDigit = false :=
    (List.isChain_cons_cons.mp h.digits).1 ((h.chars c List.mem_cons_self).eq_underscore hseparator)
  simpa [takesHump, hdigit] using hhump

/-- Splitting the humps of a snake case name gives back what was joined.  The induction follows
the pairs that `joinHumps` looks at, and each one that it joins is split again. -/
theorem splitHumps_joinHumps (h : IsSnakeCase name) : splitHumps (joinHumps name) = name := by
  fun_induction joinHumps name with
  | case1 => rfl
  | case2 c =>
    rw [splitHumps_cons_of_not_upper (h.chars c List.mem_cons_self).isUpper_eq_false]
    rfl
  | case3 c next rest hjoined ih =>
    obtain ⟨hseparator, hhump⟩ := Bool.and_eq_true_iff.mp hjoined
    have hunderscore : c = '_' := (h.chars c List.mem_cons_self).eq_underscore hseparator
    have hnext : next.isLower = true := h.isLower_of_takesHump hseparator hhump
    rw [splitHumps_cons_toUpper hnext, ih h.tail.tail, hunderscore]
  | case4 c next rest hkept ih =>
    rw [splitHumps_cons_of_not_upper (h.chars c List.mem_cons_self).isUpper_eq_false, ih h.tail]

theorem lowered_eq (h : IsSnakeCase name) : Text.lowered name = name := by
  rw [lowered_eq_map_toLower fun c hc => (h.chars c hc).lowered.1]
  exact (List.map_congr_left fun c hc => (h.chars c hc).lowered.2).trans (List.map_id name)

end IsSnakeCase

/-- A snake case name is told from its canonical spelling. -/
theorem splitHumps_camelName {name : String} (h : IsSnakeCase name.toList) :
    splitHumps (camelName name).toList = name.toList := by
  rw [camelName, String.toList_ofList, h.lowered_eq, h.splitHumps_joinHumps]

/-- Two names in snake case do not get one canonical spelling. -/
theorem camelName_inj {name other : String} (h : IsSnakeCase name.toList)
    (hother : IsSnakeCase other.toList) (heq : camelName name = camelName other) :
    name = other := by
  apply String.toList_injective
  rw [← splitHumps_camelName h, ← splitHumps_camelName hother, heq]

/-- Different names in snake case stay different. -/
theorem nodup_map_camelName {names : List String}
    (h : ∀ name ∈ names, IsSnakeCase name.toList) (hnodup : names.Nodup) :
    (names.map camelName).Nodup :=
  hnodup.map_on fun name hname other hother heq => camelName_inj (h name hname) (h other hother) heq

/-- In front of a digit an underscore is lost. -/
example : camelName "v_2" = camelName "v2" := by decide

end CanonicalIdl
