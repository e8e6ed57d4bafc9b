import CanonicalIdl.Json.Scanner
import CanonicalIdl.Proofs.Json.Everywhere
import CanonicalIdl.Proofs.Text.Numerals

/-!
# Scanning written numbers

A number is written as digits, a fraction behind a point and an exponent behind an `e`, of
which the last two may be missing.  It is scanned into these parts, up to where it ends.

Main results:

- Theorem `scanNumber_text`: a number is scanned into the parts that it is written with.
- Theorem `document_decimal`: an integer within 64 bits is scanned into itself.
- Theorem `double?_eq`: up to 64 bits all digits of a number count.
-/

namespace CanonicalIdl.Json

open Text

/-! ## The text of a number -/

/-- A text that ends a number in front of it. -/
def EndsToken (text : List Char) : Prop := ∀ c ∈ text.head?, c = ',' ∨ c = '\n'

namespace NumberParts

/-- The fraction behind its point, if there is one. -/
def fractionText (parts : NumberParts) : List Char :=
  if parts.fraction.isEmpty then [] else '.' :: parts.fraction

/-- The exponent behind its letter and sign, if there is one. -/
def exponentText (parts : NumberParts) : List Char :=
  match parts.exponent with
  | none => []
  | some e => 'e' :: (if e < 0 then '-' else '+') :: decimal e.natAbs

/-- The parts of a number behind its sign. -/
def text (parts : NumberParts) : List Char :=
  parts.whole ++ (parts.fractionText ++ parts.exponentText)

/-- Digits in front of and behind the point, with a zero in front only if it stands alone. -/
structure IsWritten (parts : NumberParts) : Prop where
  whole : ∀ c ∈ parts.whole, c.isDigit = true
  head : parts.whole = ['0'] ∨ ∃ c rest, parts.whole = c :: rest ∧ c ≠ '0'
  fraction : ∀ c ∈ parts.fraction, c.isDigit = true

end NumberParts

/-! ## Digits -/

/-- A text at which digits in front of it end. -/
def EndsDigits (text : List Char) : Prop := ∀ c ∈ text.head?, c.isDigit = false

theorem EndsToken.endsDigits {text : List Char} (h : EndsToken text) : EndsDigits text := by
  intro c hc
  rcases h c hc with rfl | rfl <;> rfl

theorem EndsDigits.startsWithDigit {text : List Char} (h : EndsDigits text) :
    startsWithDigit text = false := by
  cases text with
  | nil => rfl
  | cons c rest => exact h c rfl

/-- Digits end where the text behind them starts. -/
theorem span_digits {digits rest : List Char} (hdigits : ∀ c ∈ digits, c.isDigit = true)
    (hrest : EndsDigits rest) :
    (digits ++ rest).takeWhile Char.isDigit = digits ∧
      (digits ++ rest).dropWhile Char.isDigit = rest := by
  rw [List.takeWhile_append_of_pos hdigits, List.dropWhile_append_of_pos hdigits]
  cases rest with
  | nil => simp
  | cons c rest => simp [hrest c rfl]

/-- Only zero is written with a zero in front. -/
theorem decimal_of_head_zero {n : Nat} {digits : List Char} (h : decimal n = '0' :: digits) :
    digits = [] := by
  by_contra hne
  have hempty : digits.isEmpty = false := by simpa using hne
  have hall : digits.all Char.isDigit = true := by
    apply List.all_eq_true.mpr
    intro c hc
    exact isDigit_of_mem_decimal (h ▸ List.mem_cons_of_mem _ hc)
  have hvalue : Nat.ofDigitChars 10 digits 0 = n := by
    have hn : Nat.ofDigitChars 10 (decimal n) 0 = n :=
      Nat.ofDigitChars_toDigits (by decide) (by decide)
    rwa [h] at hn
  have hread : readDigits? digits = some n := by
    rw [readDigits?, hempty, hall, hvalue]
    rfl
  have hlength := (length_decimal_le hread).2
  rw [h, List.length_cons] at hlength
  omega

/-- The digits of a number stand in front of a point as they are. -/
theorem head_decimal (n : Nat) :
    decimal n = ['0'] ∨ ∃ c rest, decimal n = c :: rest ∧ c ≠ '0' := by
  cases hd : decimal n with
  | nil => exact absurd hd (decimal_ne_nil n)
  | cons c digits =>
    by_cases hzero : c = '0'
    · subst hzero
      exact .inl (by rw [decimal_of_head_zero hd])
    · exact .inr ⟨c, digits, rfl, hzero⟩

/-! ## Scanning the parts -/

section Scanning

variable (parts : NumberParts) {rest : List Char} (hrest : EndsToken rest)

include hrest

theorem endsDigits_exponentText : EndsDigits (parts.exponentText ++ rest) := by
  unfold NumberParts.exponentText
  split
  · exact hrest.endsDigits
  · rintro c hc
    obtain rfl := Option.some.inj hc
    rfl

theorem endsDigits_fractionText :
    EndsDigits (parts.fractionText ++ (parts.exponentText ++ rest)) := by
  unfold NumberParts.fractionText
  split
  · exact endsDigits_exponentText parts hrest
  · rintro c hc
    obtain rfl := Option.some.inj hc
    rfl

theorem scanExponentDigits_decimal (negative : Bool) (whole fraction : List Char) (below : Bool)
    (n : Nat) :
    scanExponentDigits negative whole fraction below (decimal n ++ rest) =
      ((⟨negative, whole, fraction, some (if below then -n else n)⟩ : NumberParts).document,
        some rest) := by
  obtain ⟨htake, hdrop⟩ :=
    span_digits (fun _ hc => isDigit_of_mem_decimal hc : ∀ c ∈ decimal n, _) hrest.endsDigits
  have hvalue : Nat.ofDigitChars 10 (decimal n) 0 = n :=
    Nat.ofDigitChars_toDigits (by decide) (by decide)
  cases hd : decimal n with
  | nil => exact absurd hd (decimal_ne_nil n)
  | cons c digits =>
    rw [hd, List.cons_append] at htake hdrop
    rw [hd] at hvalue
    rw [List.cons_append, scanExponentDigits, if_pos (decimal_head_isDigit hd), htake, hdrop]
    simp only [hvalue]

theorem scanExponent_text :
    scanExponent parts.negative parts.whole parts.fraction (parts.exponentText ++ rest) =
      (parts.document, some rest) := by
  obtain ⟨negative, whole, fraction, exponent⟩ := parts
  cases exponent with
  | none =>
    cases rest with
    | nil => rfl
    | cons c rest => rcases hrest c rfl with rfl | rfl <;> rfl
  | some e =>
    by_cases hneg : e < 0
    · have hscan := scanExponentDigits_decimal hrest negative whole fraction true e.natAbs
      rw [if_pos rfl, show -(e.natAbs : Int) = e by omega] at hscan
      simpa [NumberParts.exponentText, hneg, scanExponent] using hscan
    · have hscan := scanExponentDigits_decimal hrest negative whole fraction false e.natAbs
      rw [if_neg (by decide), show (e.natAbs : Int) = e by omega] at hscan
      simpa [NumberParts.exponentText, hneg, scanExponent] using hscan

theorem head_exponentText_ne_point : (parts.exponentText ++ rest).head? ≠ some '.' := by
  unfold NumberParts.exponentText
  split
  · intro h
    rcases hrest '.' h with h | h <;> cases h
  · simp

variable {parts}

theorem scanFraction_text (hfraction : ∀ c ∈ parts.fraction, c.isDigit = true) :
    scanFraction parts.negative parts.whole
        (parts.fractionText ++ (parts.exponentText ++ rest)) =
      (parts.document, some rest) := by
  have hscan := scanExponent_text parts hrest
  cases hd : parts.fraction with
  | nil =>
    have hpoint := head_exponentText_ne_point parts hrest
    rw [hd] at hscan
    simp only [NumberParts.fractionText, hd, List.isEmpty_nil, if_true, List.nil_append]
    unfold scanFraction
    split
    · next heq => exact absurd (congrArg List.head? heq) hpoint
    · exact hscan
  | cons c digits =>
    obtain ⟨htake, hdrop⟩ := span_digits hfraction (endsDigits_exponentText parts hrest)
    have hstart : startsWithDigit (c :: (digits ++ (parts.exponentText ++ rest))) = true :=
      hfraction c (hd ▸ List.mem_cons_self)
    rw [hd] at htake hdrop hscan
    simp only [NumberParts.fractionText, hd, List.isEmpty_cons, List.cons_append, scanFraction]
      at htake hdrop ⊢
    rw [if_neg (by decide)]
    simp only [List.cons_append, hstart, if_true, htake, hdrop, hscan]

/-- A number is scanned into the parts that it is written with. -/
theorem scanNumber_text (h : parts.IsWritten) :
    scanNumber parts.negative (parts.text ++ rest) = (parts.document, some rest) := by
  have hscan := scanFraction_text hrest h.fraction
  obtain ⟨htake, hdrop⟩ := span_digits h.whole (endsDigits_fractionText parts hrest)
  rw [NumberParts.text, List.append_assoc, List.append_assoc]
  rcases h.head with hzero | ⟨c, digits, hcons, hne⟩
  · have hends := (endsDigits_fractionText parts hrest).startsWithDigit
    rw [hzero] at hscan ⊢
    rw [List.singleton_append, scanNumber]
    simp [hends, hscan]
  · have hdigit : c.isDigit = true := h.whole c (hcons ▸ List.mem_cons_self)
    rw [hcons, List.cons_append] at htake hdrop
    rw [hcons] at hscan
    rw [hcons, List.cons_append, scanNumber]
    simp only [beq_iff_eq, hne, if_false, hdigit, if_true]
    rw [htake, hdrop, hscan]

end Scanning

/-! ## Values of numbers -/

/-- An integer within 64 bits is scanned into itself. -/
theorem document_decimal {n : Int} (h : (Document.int n).IsBounded) :
    (⟨decide (n < 0), decimal n.natAbs, [], none⟩ : NumberParts).document = .int n := by
  obtain ⟨hleast, hgreatest⟩ := h
  have hvalue : Nat.ofDigitChars 10 (decimal n.natAbs) 0 = n.natAbs :=
    Nat.ofDigitChars_toDigits (by decide) (by decide)
  have hsize : UInt64.size = 2 ^ 64 := rfl
  have hint : (⟨decide (n < 0), decimal n.natAbs, [], none⟩ : NumberParts).int? = some n := by
    simp only [NumberParts.int?, hvalue, hsize, List.isEmpty_nil, Option.isNone_none,
      Bool.and_self, if_true, decide_eq_true_eq, Bool.and_eq_true]
    by_cases hneg : n < 0
    · rw [if_pos hneg, if_pos (by omega)]
      exact congrArg some (by omega)
    · rw [if_neg hneg, if_pos (by omega)]
      exact congrArg some (by omega)
  rw [NumberParts.document, hint]

/-- Digits only add to what is in front of them. -/
theorem le_ofDigitChars (digits : List Char) (start : Nat) :
    start ≤ Nat.ofDigitChars 10 digits start := by
  induction digits generalizing start with
  | nil => simp
  | cons c rest ih =>
    rw [Nat.ofDigitChars_cons]
    exact le_trans (by omega) (ih _)

/-- Digits are absorbed as long as their number fits. -/
theorem absorbDigits_eq {digits : List Char} {start : Nat}
    (h : Nat.ofDigitChars 10 digits start < UInt64.size) :
    absorbDigits start digits = (Nat.ofDigitChars 10 digits start, digits.length, []) := by
  induction digits generalizing start with
  | nil => simp [absorbDigits]
  | cons c rest ih =>
    have hgrown : start * 10 + digitValue c = 10 * start + (c.toNat - '0'.toNat) := by
      rw [Nat.mul_comm]
      rfl
    rw [Nat.ofDigitChars_cons] at h ⊢
    rw [absorbDigits, hgrown]
    simp only [if_pos ((le_ofDigitChars rest _).trans_lt h), ih h, List.length_cons]

/-- Up to 64 bits all digits of a number count. -/
theorem NumberParts.double?_eq {parts : NumberParts}
    (h : Nat.ofDigitChars 10 (parts.whole ++ parts.fraction) 0 < UInt64.size) :
    parts.double? =
      (Magnitude.ofDecimal? (Nat.ofDigitChars 10 (parts.whole ++ parts.fraction) 0)
        (parts.exponent.getD 0 - parts.fraction.length)).map fun m => ⟨parts.negative, m⟩ := by
  rw [Nat.ofDigitChars_append] at h ⊢
  have hwhole := absorbDigits_eq ((le_ofDigitChars parts.fraction _).trans_lt h)
  have hfraction := absorbDigits_eq h
  rw [NumberParts.double?, hwhole]
  simp only [hfraction, List.length_nil]
  congr 2
  omega

end CanonicalIdl.Json
