import CanonicalIdl.Text.Blank

/-!
# Laws of trimming

Trimming is a projection: what it leaves has no blanks at its ends, and blanks put
around a text change nothing.  A text is its trimming with blanks on both sides.

Main results:

- Theorem `trim_trim`: a trimmed text is left as it is.
- Theorem `trim_pad`: blanks around a text do not matter.
- Theorem `exists_pad`: every text is its trimming between blanks.
-/

namespace CanonicalIdl.Text

/-- A text of blanks only, the empty one included. -/
def Blanks (text : List Char) : Prop := ∀ c ∈ text, isBlank c = true

/-- A text without blanks at its ends. -/
def Trimmed (text : List Char) : Prop := trim text = text

instance (text : List Char) : Decidable (Blanks text) :=
  decidable_of_iff (text.all isBlank = true) List.all_eq_true

instance (text : List Char) : Decidable (Trimmed text) :=
  inferInstanceAs (Decidable (trim text = text))

/-! ## Blanks -/

@[simp] theorem blanks_nil : Blanks [] := by
  intro c hc
  cases hc

theorem Blanks.append {a b : List Char} (ha : Blanks a) (hb : Blanks b) : Blanks (a ++ b) := by
  intro c hc
  rcases List.mem_append.mp hc with h | h
  · exact ha c h
  · exact hb c h

theorem Blanks.reverse {a : List Char} (ha : Blanks a) : Blanks a.reverse := by
  intro c hc
  exact ha c (List.mem_reverse.mp hc)

/-- The blanks that a text starts with are blanks. -/
theorem blanks_takeWhile (text : List Char) : Blanks (text.takeWhile isBlank) := by
  intro c hc
  exact List.all_eq_true.mp List.all_takeWhile c hc

/-! ## Dropping blanks at one end -/

theorem trimStart_blanks_append {before : List Char} (h : Blanks before) (text : List Char) :
    trimStart (before ++ text) = trimStart text := by
  induction before with
  | nil => rfl
  | cons c rest ih =>
    have hc : isBlank c = true := h c List.mem_cons_self
    have hrest : Blanks rest := fun d hd => h d (List.mem_cons_of_mem c hd)
    simpa [trimStart, hc] using ih hrest

theorem trimEnd_append_blanks {after : List Char} (text : List Char) (h : Blanks after) :
    trimEnd (text ++ after) = trimEnd text := by
  have hdrop := trimStart_blanks_append h.reverse text.reverse
  simp only [trimStart] at hdrop
  simp [trimEnd, hdrop]

/-- A text whose first character is not blank keeps it when its end is trimmed. -/
theorem trimEnd_cons {c : Char} {text : List Char} (hc : isBlank c = false) :
    trimEnd (c :: text) = c :: trimEnd text := by
  unfold trimEnd
  rw [List.reverse_cons, List.dropWhile_append]
  split
  · next hempty =>
    have hnil : text.reverse.dropWhile isBlank = [] := List.isEmpty_iff.mp hempty
    simp [hnil, hc]
  · simp

/-! ## Trimming -/

/-- A text that does not start with a blank only loses blanks at its end. -/
theorem trim_cons {c : Char} {text : List Char} (hc : isBlank c = false) :
    trim (c :: text) = c :: trimEnd text := by
  rw [trim, trimStart_of_head hc, trimEnd_cons hc]

/-- Blanks around a text do not matter. -/
theorem trim_pad {before after : List Char} (hb : Blanks before) (text : List Char)
    (ha : Blanks after) : trim (before ++ text ++ after) = trim text := by
  rw [List.append_assoc, trim, trimStart_blanks_append hb]
  cases hs : trimStart text with
  | nil =>
    have hall : Blanks text := trimStart_eq_nil_iff.mp hs
    have hnil : trimStart (text ++ after) = [] := trimStart_eq_nil_iff.mpr (hall.append ha)
    rw [hnil, trim, hs]
  | cons c rest =>
    have hsplit : trimStart (text ++ after) = trimStart text ++ after := by
      rw [trimStart, List.dropWhile_append, ← trimStart, hs]
      rfl
    rw [hsplit, trimEnd_append_blanks _ ha, trim]

theorem trim_blanks_append {before : List Char} (hb : Blanks before) (text : List Char) :
    trim (before ++ text) = trim text := by
  simpa using trim_pad hb text blanks_nil

theorem trim_append_blanks {after : List Char} (text : List Char) (ha : Blanks after) :
    trim (text ++ after) = trim text := by
  simpa using trim_pad blanks_nil text ha

@[simp] theorem trim_space_cons (text : List Char) : trim (' ' :: text) = trim text :=
  trim_blanks_append (by decide : Blanks [' ']) text

/-- Every text is its trimming between blanks. -/
theorem exists_pad (text : List Char) :
    ∃ before after, Blanks before ∧ Blanks after ∧ text = before ++ trim text ++ after := by
  have hstart : text = text.takeWhile isBlank ++ trimStart text :=
    List.takeWhile_append_dropWhile.symm
  have hend :
      trimStart text = trim text ++ ((trimStart text).reverse.takeWhile isBlank).reverse := by
    have hsplit := List.takeWhile_append_dropWhile (p := isBlank) (l := (trimStart text).reverse)
    have hrev := congrArg List.reverse hsplit
    rw [List.reverse_append, List.reverse_reverse] at hrev
    exact hrev.symm
  refine ⟨_, _, blanks_takeWhile text, (blanks_takeWhile (trimStart text).reverse).reverse, ?_⟩
  rw [List.append_assoc, ← hend]
  exact hstart

/-- A trimmed text is left as it is. -/
@[simp] theorem trim_trim (text : List Char) : trim (trim text) = trim text := by
  obtain ⟨before, after, hb, ha, htext⟩ := exists_pad text
  calc trim (trim text) = trim (before ++ trim text ++ after) := (trim_pad hb _ ha).symm
    _ = trim text := by rw [← htext]

theorem trimmed_trim (text : List Char) : Trimmed (trim text) :=
  trim_trim text

/-- Trimming leaves a text that starts and ends with characters that are not blank. -/
theorem trimmed_of_ends {c d : Char} {middle : List Char} (hc : isBlank c = false)
    (hd : isBlank d = false) : Trimmed (c :: middle ++ [d]) := by
  rw [Trimmed, List.cons_append, trim_cons hc, trimEnd_of_last hd]

/-- A text without blanks is trimmed. -/
theorem trimmed_of_forall {text : List Char} (h : ∀ c ∈ text, isBlank c = false) :
    Trimmed text := by
  apply trim_of_ends
  · intro c hc
    exact h c (List.mem_of_head? hc)
  · intro c hc
    exact h c (List.mem_of_getLast? hc)

/-- A trimmed text does not start with a blank. -/
theorem Trimmed.head {c : Char} {rest : List Char} (h : Trimmed (c :: rest)) :
    isBlank c = false := by
  cases hs : trimStart (c :: rest) with
  | nil =>
    rw [Trimmed, trim, hs] at h
    cases h
  | cons d tail =>
    have hd : isBlank d = false := trimStart_head hs
    rw [Trimmed, trim, hs, trimEnd_cons hd] at h
    cases h
    exact hd

/-- Trimming neither adds nor changes characters. -/
theorem mem_of_mem_trim {c : Char} {text : List Char} (h : c ∈ trim text) : c ∈ text := by
  obtain ⟨before, after, -, -, htext⟩ := exists_pad text
  rw [htext]
  simp [h]

/-- A character that is not blank survives trimming. -/
theorem mem_trim {c : Char} {text : List Char} (hc : isBlank c = false) (h : c ∈ text) :
    c ∈ trim text := by
  obtain ⟨before, after, hb, ha, htext⟩ := exists_pad text
  rw [htext] at h
  rcases List.mem_append.mp h with h | h
  · rcases List.mem_append.mp h with h | h
    · rw [hb c h] at hc
      cases hc
    · exact h
  · rw [ha c h] at hc
    cases hc

end CanonicalIdl.Text
