/-!
# Decimal numerals

Numbers are written with the fewest digits and read with an optional plus sign and
any number of leading zeros.

Main results:

- Theorem `readDigits?_decimal`: a written number reads back as itself.
- Theorem `readWord?_decimal`: so does a written 64-bit word.
-/

namespace CanonicalIdl.Text

/-- The number in decimal digits, without leading zeros. -/
def decimal (n : Nat) : List Char :=
  Nat.toDigits 10 n

/-- An integer in decimal digits, with a minus sign in front of a negative one. -/
def signedDecimal (n : Int) : List Char :=
  (if n < 0 then ['-'] else []) ++ decimal n.natAbs

/-- The value of a text of one or more decimal digits. -/
def readDigits? (text : List Char) : Option Nat :=
  if text.isEmpty || !text.all Char.isDigit then none else some (Nat.ofDigitChars 10 text 0)

/-- The number as a 64-bit word, if it fits. -/
def word? (n : Nat) : Option UInt64 :=
  if h : n < UInt64.size then some (UInt64.ofNatLT n h) else none

/-- The text without one plus sign in front. -/
def withoutPlus : List Char → List Char
  | '+' :: rest => rest
  | text => text

/-- The value of a numeral that fits in 64 bits; one plus sign may stand in front. -/
def readWord? (text : List Char) : Option UInt64 :=
  (readDigits? (withoutPlus text)).bind word?

/-- A written number reads back as itself. -/
theorem readDigits?_decimal (n : Nat) : readDigits? (decimal n) = some n := by
  have hne : decimal n ≠ [] := by simp [decimal, Nat.toDigits_ne_nil]
  have hall : (decimal n).all Char.isDigit = true := by
    simp only [List.all_eq_true]
    intro c hc
    exact Nat.isDigit_of_mem_toDigits (by decide) (by decide) hc
  have hval : Nat.ofDigitChars 10 (decimal n) 0 = n :=
    Nat.ofDigitChars_toDigits (by decide) (by decide)
  have hempty : (decimal n).isEmpty = false := by simpa using hne
  simp [readDigits?, hempty, hall, hval]

/-- No numeral starts with a sign. -/
theorem decimal_head_isDigit {n : Nat} {c : Char} {rest : List Char}
    (h : decimal n = c :: rest) : c.isDigit = true :=
  Nat.isDigit_of_mem_toDigits (b := 10) (n := n) (by decide) (by decide)
    (by rw [← decimal, h]; simp)

@[simp] theorem word?_toNat (w : UInt64) : word? w.toNat = some w := by
  simp [word?, w.toNat_lt_size]

theorem withoutPlus_of_ne {c : Char} {rest : List Char} (h : c ≠ '+') :
    withoutPlus (c :: rest) = c :: rest := by
  unfold withoutPlus
  split
  · next heq => cases heq; exact absurd rfl h
  · rfl

theorem withoutPlus_decimal (n : Nat) : withoutPlus (decimal n) = decimal n := by
  cases hd : decimal n with
  | nil => rfl
  | cons c rest =>
    apply withoutPlus_of_ne
    rintro rfl
    exact absurd (decimal_head_isDigit hd) (by decide)

/-- A written 64-bit number reads back as itself. -/
theorem readWord?_decimal (w : UInt64) : readWord? (decimal w.toNat) = some w := by
  simp [readWord?, withoutPlus_decimal, readDigits?_decimal]

end CanonicalIdl.Text
