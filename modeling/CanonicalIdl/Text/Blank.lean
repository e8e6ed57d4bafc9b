/-!
# Blank characters and trimming

A character is blank when it has the Unicode property White_Space.  Trimming
takes the blanks off both ends of a text and leaves the inside alone.

Main results:

- Theorem `trim_eq_nil_iff`: trimming leaves nothing exactly of a text of blanks.
- Theorem `trim_of_ends`: a text whose ends are not blank is left as it is.
-/

namespace CanonicalIdl.Text

/-- The characters with the property White_Space. -/
def isBlank (c : Char) : Bool :=
  let n := c.toNat
  (9 ≤ n && n ≤ 13) || n == 0x20 || n == 0x85 || n == 0xA0 || n == 0x1680 ||
    (0x2000 ≤ n && n ≤ 0x200A) || n == 0x2028 || n == 0x2029 || n == 0x202F ||
    n == 0x205F || n == 0x3000

/-- The text without the blanks it starts with. -/
def trimStart (text : List Char) : List Char :=
  text.dropWhile isBlank

/-- The text without the blanks it ends with. -/
def trimEnd (text : List Char) : List Char :=
  (text.reverse.dropWhile isBlank).reverse

/-- The text without the blanks at its two ends. -/
def trim (text : List Char) : List Char :=
  trimEnd (trimStart text)

/-- Trimming on strings. -/
def trimmed (text : String) : String :=
  String.ofList (trim text.toList)

/-- A text that is empty or made of blanks. -/
def isBlankText (text : String) : Bool :=
  text.toList.all isBlank

/-! ## Small facts -/

@[simp] theorem trim_nil : trim [] = [] := rfl

theorem trimStart_of_head {c : Char} {text : List Char}
    (h : isBlank c = false) : trimStart (c :: text) = c :: text := by
  simp [trimStart, h]

theorem trimEnd_of_last {c : Char} {text : List Char}
    (h : isBlank c = false) : trimEnd (text ++ [c]) = text ++ [c] := by
  simp [trimEnd, h]

/-- A text whose first and last characters are not blank is its own trimming. -/
theorem trim_of_ends {text : List Char}
    (first : ∀ c, text.head? = some c → isBlank c = false)
    (last : ∀ c, text.getLast? = some c → isBlank c = false) : trim text = text := by
  cases text with
  | nil => rfl
  | cons c rest =>
    have hc : isBlank c = false := first c rfl
    have hl := List.getLast?_eq_some_getLast (List.cons_ne_nil c rest)
    have hd := last _ hl
    unfold trim
    rw [trimStart_of_head hc]
    conv => lhs; rw [← List.dropLast_concat_getLast (List.cons_ne_nil c rest)]
    rw [trimEnd_of_last hd, List.dropLast_concat_getLast]

/-- The blanks at the front are dropped one by one, and nothing else is. -/
theorem trimStart_eq_nil_iff {text : List Char} :
    trimStart text = [] ↔ ∀ c ∈ text, isBlank c = true := by
  induction text with
  | nil => simp [trimStart]
  | cons c rest ih =>
    cases hc : isBlank c with
    | true =>
      rw [trimStart] at ih
      rw [trimStart, List.dropWhile_cons_of_pos hc, ih]
      simp [hc]
    | false => simp [trimStart, hc]

/-- What is left after the leading blanks does not start with one. -/
theorem trimStart_head {text rest : List Char} {c : Char}
    (h : trimStart text = c :: rest) : isBlank c = false := by
  induction text with
  | nil => simp [trimStart] at h
  | cons d tail ih =>
    cases hd : isBlank d with
    | true => exact ih (by simpa [trimStart, hd] using h)
    | false =>
      rw [trimStart_of_head hd] at h
      cases h
      exact hd

/-- Nothing is left of a text exactly when it holds only blanks. -/
theorem trim_eq_nil_iff {text : List Char} :
    trim text = [] ↔ ∀ c ∈ text, isBlank c = true := by
  constructor
  · intro h
    have hend : trimStart (trimStart text).reverse = [] := by
      simpa [trim, trimEnd, trimStart] using h
    have hall : ∀ c ∈ trimStart text, isBlank c = true := by
      simpa using trimStart_eq_nil_iff.mp hend
    cases hd : trimStart text with
    | nil => exact trimStart_eq_nil_iff.mp hd
    | cons c rest =>
      have hc : isBlank c = true := hall c (by simp [hd])
      simp [trimStart_head hd] at hc
  · intro h
    simp [trim, trimStart_eq_nil_iff.mpr h, trimEnd]

end CanonicalIdl.Text
