import Mathlib

/-!
# Characters by their codes

The small letters, the capitals and the digits are ranges of codes, so a decidable property of
all characters of such a class is checked code by code.

Main results:

- Theorem `of_mem_range`: what holds code by code holds of the characters of a range.
- Theorem `lt_of_isAlphanum`: letters and digits are ASCII characters.
-/

namespace CanonicalIdl

variable {c : Char}

theorem isLower_iff : c.isLower = true ↔ 97 ≤ c.toNat ∧ c.toNat < 123 := by
  simp [Char.isLower, UInt32.le_iff_toNat_le, ← Char.toNat_val, Nat.lt_succ_iff]

theorem isUpper_iff : c.isUpper = true ↔ 65 ≤ c.toNat ∧ c.toNat < 91 := by
  simp [Char.isUpper, UInt32.le_iff_toNat_le, ← Char.toNat_val, Nat.lt_succ_iff]

theorem isDigit_iff : c.isDigit = true ↔ 48 ≤ c.toNat ∧ c.toNat < 58 := by
  simp [Char.isDigit, UInt32.le_iff_toNat_le, ← Char.toNat_val, Nat.lt_succ_iff]

/-- Letters and digits are ASCII characters. -/
theorem lt_of_isAlphanum (h : c.isAlphanum = true) : c.toNat < 128 := by
  simp only [Char.isAlphanum, Char.isAlpha, Bool.or_eq_true, isUpper_iff, isLower_iff,
    isDigit_iff] at h
  omega

/-- A property of the characters of a range of codes is checked code by code. -/
theorem of_mem_range {p : Char → Prop} (first count : Nat)
    (hall : ∀ code ∈ List.range' first count, p (Char.ofNat code))
    (hc : first ≤ c.toNat ∧ c.toNat < first + count) : p c := by
  have hcode := hall c.toNat (List.mem_range'_1.mpr hc)
  rwa [Char.ofNat_toNat] at hcode

/-- A property of the digits is checked digit by digit. -/
theorem of_isDigit {p : Char → Prop} (hall : ∀ code ∈ List.range' 48 10, p (Char.ofNat code))
    (h : c.isDigit = true) : p c :=
  of_mem_range 48 10 hall (isDigit_iff.mp h)

end CanonicalIdl
