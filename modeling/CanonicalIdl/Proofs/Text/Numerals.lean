import CanonicalIdl.Proofs.Text.Characters
import CanonicalIdl.Proofs.Text.Trimming
import CanonicalIdl.Text.Numeral

/-!
# Laws of numerals

A number may be written with zeros and a plus sign in front of its digits, and is read
back all the same.  No numeral holds a blank.

Main results:

- Theorem `IsNumeral.readWord?_eq`: a numeral is read as the number that it is for.
- Theorem `IsNumeral.trimmed`: trimming leaves a numeral as it is.
- Theorem `length_decimal_le_of_readWord?`: writing a number out is as short as it can be.
-/

namespace CanonicalIdl.Text

/-! ## Digits -/

theorem isDigit_of_mem_decimal {n : Nat} {c : Char} (h : c ∈ decimal n) : c.isDigit = true :=
  Nat.isDigit_of_mem_toDigits (by decide) (by decide) h

/-- No digit is what a numeral ends at. -/
theorem not_mem_decimal {c : Char} (hc : c.isDigit = false) (n : Nat) : c ∉ decimal n := by
  intro h
  rw [isDigit_of_mem_decimal h] at hc
  cases hc

theorem isBlank_of_isDigit {c : Char} (h : c.isDigit = true) : isBlank c = false :=
  of_isDigit (p := fun c => isBlank c = false) (by decide) h

theorem decimal_ne_nil (n : Nat) : decimal n ≠ [] := by
  simp [decimal, Nat.toDigits_ne_nil]

theorem trimmed_decimal (n : Nat) : Trimmed (decimal n) :=
  trimmed_of_forall fun _ hc => isBlank_of_isDigit (isDigit_of_mem_decimal hc)

/-! ## Numerals -/

/-- A decimal numeral for a number of 64 bits, with zeros and one plus sign in front or without. -/
def IsNumeral (text : List Char) (n : UInt64) : Prop :=
  ∃ sign zeros, (sign = [] ∨ sign = ['+']) ∧
    text = sign ++ List.replicate zeros '0' ++ decimal n.toNat

namespace IsNumeral

variable {text : List Char} {n : UInt64}

/-- A numeral is a plus sign and digits. -/
theorem mem_cases (h : IsNumeral text n) {c : Char} (hc : c ∈ text) :
    c = '+' ∨ c.isDigit = true := by
  obtain ⟨sign, zeros, hsign, rfl⟩ := h
  rcases List.mem_append.mp hc with hc | hc
  · rcases List.mem_append.mp hc with hc | hc
    · rcases hsign with rfl | rfl
      · cases hc
      · exact .inl (List.mem_singleton.mp hc)
    · obtain ⟨-, rfl⟩ := List.mem_replicate.mp hc
      exact .inr rfl
  · exact .inr (isDigit_of_mem_decimal hc)

theorem not_mem (h : IsNumeral text n) {c : Char} (hplus : c ≠ '+') (hdigit : c.isDigit = false) :
    c ∉ text := by
  intro hc
  rcases h.mem_cases hc with rfl | hd
  · exact hplus rfl
  · rw [hd] at hdigit
    cases hdigit

theorem trimmed (h : IsNumeral text n) : Trimmed text := by
  apply trimmed_of_forall
  intro c hc
  rcases h.mem_cases hc with rfl | hd
  · rfl
  · exact isBlank_of_isDigit hd

theorem readDigits?_zeros_append (zeros n : Nat) :
    readDigits? (List.replicate zeros '0' ++ decimal n) = some n := by
  have hempty : (List.replicate zeros '0' ++ decimal n).isEmpty = false := by simp [decimal_ne_nil]
  have hdigits : (List.replicate zeros '0' ++ decimal n).all Char.isDigit = true := by
    apply List.all_eq_true.mpr
    intro c hc
    rcases List.mem_append.mp hc with hc | hc
    · obtain ⟨-, rfl⟩ := List.mem_replicate.mp hc
      rfl
    · exact isDigit_of_mem_decimal hc
  have hvalue : Nat.ofDigitChars 10 (List.replicate zeros '0' ++ decimal n) 0 = n := by
    rw [Nat.ofDigitChars_append, Nat.ofDigitChars_replicate_zero, Nat.mul_zero]
    exact Nat.ofDigitChars_toDigits (by decide) (by decide)
  rw [readDigits?, hempty, hdigits, hvalue]
  rfl

theorem withoutPlus_zeros_append (zeros n : Nat) :
    withoutPlus (List.replicate zeros '0' ++ decimal n) =
      List.replicate zeros '0' ++ decimal n := by
  cases zeros with
  | zero => exact withoutPlus_decimal n
  | succ zeros => exact withoutPlus_of_ne (by decide)

/-- A numeral is read as the number that it is for. -/
theorem readWord?_eq (h : IsNumeral text n) : readWord? text = some n := by
  obtain ⟨sign, zeros, hsign, rfl⟩ := h
  have hplus : withoutPlus (sign ++ List.replicate zeros '0' ++ decimal n.toNat) =
      List.replicate zeros '0' ++ decimal n.toNat := by
    rcases hsign with rfl | rfl
    · exact withoutPlus_zeros_append zeros n.toNat
    · rfl
  rw [readWord?, hplus, readDigits?_zeros_append, Option.bind_some, word?_toNat]

end IsNumeral

/-! ## Lengths of numerals -/

theorem ofDigitChars_lt {digits : List Char} (h : ∀ c ∈ digits, c.isDigit = true) (start : Nat) :
    Nat.ofDigitChars 10 digits start < 10 ^ digits.length * (start + 1) := by
  induction digits generalizing start with
  | nil => simp
  | cons c rest ih =>
    have hdigit : c.toNat - '0'.toNat ≤ 9 :=
      of_isDigit (p := fun c => c.toNat - '0'.toNat ≤ 9) (by decide) (h c List.mem_cons_self)
    have hrest := ih (fun d hd => h d (List.mem_cons_of_mem c hd))
      (10 * start + (c.toNat - '0'.toNat))
    rw [Nat.ofDigitChars_cons]
    calc Nat.ofDigitChars 10 rest (10 * start + (c.toNat - '0'.toNat))
        < 10 ^ rest.length * (10 * start + (c.toNat - '0'.toNat) + 1) := hrest
      _ ≤ 10 ^ rest.length * (10 * (start + 1)) := Nat.mul_le_mul_left _ (by omega)
      _ = 10 ^ (c :: rest).length * (start + 1) := by
        rw [List.length_cons, Nat.pow_succ, Nat.mul_assoc]

/-- No numeral for a number is shorter than the number written out. -/
theorem length_decimal_le {text : List Char} {n : Nat} (h : readDigits? text = some n) :
    (∀ c ∈ text, c.isDigit = true) ∧ (decimal n).length ≤ text.length := by
  unfold readDigits? at h
  split at h
  · cases h
  · next hdigits =>
    simp only [Bool.or_eq_true, not_or, List.isEmpty_iff, Bool.not_eq_true', Bool.not_eq_false,
      List.all_eq_true] at hdigits
    obtain ⟨hne, hall⟩ := hdigits
    cases h
    refine ⟨hall, ?_⟩
    have hpos : 0 < text.length := List.length_pos_iff.mpr hne
    have hlt := ofDigitChars_lt hall 0
    rw [Nat.zero_add, Nat.mul_one] at hlt
    exact (Nat.length_toDigits_le_iff (by decide) hpos).mpr hlt

/-- A text that is read as a number holds no blanks and is not shorter than the number
written out. -/
theorem length_decimal_le_of_readWord? {text : List Char} {n : UInt64}
    (h : readWord? text = some n) :
    (∀ c ∈ text, isBlank c = false) ∧ (decimal n.toNat).length ≤ text.length := by
  obtain ⟨number, hdigits, hword⟩ := Option.bind_eq_some_iff.mp h
  have hnumber : number = n.toNat := by
    unfold word? at hword
    split at hword
    · next hlt =>
      cases hword
      rfl
    · cases hword
  subst hnumber
  obtain ⟨hall, hlength⟩ := length_decimal_le hdigits
  have hsplit : text = withoutPlus text ∨ text = '+' :: withoutPlus text := by
    unfold withoutPlus
    split
    · exact .inr rfl
    · exact .inl rfl
  rcases hsplit with hsame | hplus
  · rw [hsame]
    exact ⟨fun c hc => isBlank_of_isDigit (hall c hc), hlength⟩
  · rw [hplus]
    constructor
    · intro c hc
      rcases List.mem_cons.mp hc with rfl | hc
      · rfl
      · exact isBlank_of_isDigit (hall c hc)
    · rw [List.length_cons]
      omega

end CanonicalIdl.Text
