import CanonicalIdl.Proofs.Json.Numbers
import CanonicalIdl.Proofs.Json.ShortestForm
import Mathlib

/-!
# Reading written floating-point numbers

A binary64 number is written with up to 17 digits, all of which count when it is read.  What is
written is not farther from the number than half a unit of its significand, and so it is read
as a number in range: the two greatest numbers excepted, which are looked at one by one.

Main results:

- Theorem `Double.text_eq`: the parts that a number is written with.
- Theorem `isSome_double?_writtenParts`: a written number is in range.
- Theorem `Double.document_writtenParts`: the parts of a written number are those of a number.
-/

namespace CanonicalIdl.Json

open Text

/-! ## Digits without the zeros behind them -/

/-- The digits of a positive number without the zeros behind them. -/
structure IsSignificant (n : Nat) (digits : List Char) (zeros : Nat) : Prop where
  decimal : decimal n = digits ++ List.replicate zeros '0'
  value : n = Nat.ofDigitChars 10 digits 0 * 10 ^ zeros
  head : ∃ c rest, digits = c :: rest ∧ c ≠ '0'

/-- A positive number has significant digits, which zeros may follow. -/
theorem exists_isSignificant {n : Nat} (h : 0 < n) :
    ∃ zeros, IsSignificant n (withoutTrailingZeros (decimal n)) zeros := by
  have hsplit := List.rdropWhile_append_rtakeWhile (p := (· == '0')) (l := decimal n)
  change withoutTrailingZeros (decimal n) ++ _ = _ at hsplit
  have hzeros : (decimal n).rtakeWhile (· == '0') =
      List.replicate ((decimal n).rtakeWhile (· == '0')).length '0' :=
    List.eq_replicate_of_mem fun c hc => by simpa using List.mem_rtakeWhile_imp hc
  rw [hzeros] at hsplit
  have hvalue : Nat.ofDigitChars 10 (decimal n) 0 = n :=
    Nat.ofDigitChars_toDigits (by decide) (by decide)
  rw [← hsplit, Nat.ofDigitChars_append, Nat.ofDigitChars_replicate_zero, Nat.mul_comm] at hvalue
  refine ⟨_, hsplit.symm, hvalue.symm, ?_⟩
  cases hdigits : withoutTrailingZeros (decimal n) with
  | nil =>
    rw [hdigits, Nat.ofDigitChars_nil, Nat.zero_mul] at hvalue
    omega
  | cons c rest =>
    refine ⟨c, rest, rfl, ?_⟩
    rintro rfl
    rw [hdigits, List.cons_append] at hsplit
    have hnil := decimal_of_head_zero hsplit.symm
    obtain ⟨rfl, hempty⟩ := List.append_eq_nil_iff.mp hnil
    rw [hdigits] at hvalue
    have hzero : Nat.ofDigitChars 10 ['0'] 0 = 0 := rfl
    rw [hzero, Nat.zero_mul] at hvalue
    omega

namespace IsSignificant

variable {n zeros : Nat} {digits : List Char} (h : IsSignificant n digits zeros)

include h

theorem isDigit {c : Char} (hc : c ∈ digits) : c.isDigit = true :=
  isDigit_of_mem_decimal (h.decimal ▸ List.mem_append_left _ hc)

/-- There is a significant digit. -/
theorem ne_nil : digits ≠ [] := by
  obtain ⟨c, rest, rfl, -⟩ := h.head
  exact List.cons_ne_nil _ _

/-- The significant digits and the zeros are all the digits. -/
theorem length_decimal : (Text.decimal n).length = digits.length + zeros := by
  rw [h.decimal, List.length_append, List.length_replicate]

end IsSignificant

/-- The shortest digits of a number have significant ones. -/
theorem exists_isSignificant_shortest {x : Magnitude} (hx : x.IsBinary64)
    (hzero : x.significand ≠ 0) :
    ∃ zeros, IsSignificant x.shortest.digits
      (withoutTrailingZeros (decimal x.shortest.digits)) zeros :=
  exists_isSignificant (Magnitude.shortest_spec hx (Nat.pos_of_ne_zero hzero)).1

/-- Numbers up to `10 ^ 17` have up to 17 digits in front of the zeros behind them. -/
theorem length_withoutTrailingZeros_le {n : Nat} (h : n ≤ 10 ^ 17) :
    (withoutTrailingZeros (decimal n)).length ≤ 17 := by
  rcases Nat.lt_or_eq_of_le h with hlt | rfl
  · have hlength := (Nat.length_toDigits_le_iff (by decide) (by decide)).mpr hlt
    exact (List.rdropWhile_prefix (· == '0') (l := decimal n)).length_le.trans hlength
  · decide

/-! ## The parts that a number is written with -/

/-- The parts of digits with a plain decimal point. -/
def plainParts (negative : Bool) (digits : List Char) (lead : Int) : NumberParts :=
  if lead < 0 then ⟨negative, ['0'], List.replicate (-lead - 1).toNat '0' ++ digits, none⟩
  else
    let whole := lead.toNat + 1
    let front := digits.take whole
    let back := digits.drop whole
    ⟨negative, front ++ List.replicate (whole - front.length) '0',
      if back.isEmpty then ['0'] else back, none⟩

/-- The parts of digits with an exponent. -/
def powerParts (negative : Bool) (digits : List Char) (lead : Int) : NumberParts :=
  ⟨negative, digits.take 1, digits.drop 1, some lead⟩

/-- The parts that a magnitude is written with. -/
def writtenParts (negative : Bool) (x : Magnitude) : NumberParts :=
  if x.significand = 0 then ⟨negative, ['0'], ['0'], none⟩
  else
    let form := x.shortest
    let written := decimal form.digits
    let lead := form.exponent + written.length - 1
    let digits := withoutTrailingZeros written
    if doubleFormat.leastPlain ≤ lead ∧ lead ≤ doubleFormat.greatestPlain then
      plainParts negative digits lead
    else powerParts negative digits lead

/-- There are always digits behind a plain decimal point. -/
theorem isEmpty_fraction_plainParts (negative : Bool) {digits : List Char} (h : digits ≠ [])
    (lead : Int) : (plainParts negative digits lead).fraction.isEmpty = false := by
  unfold plainParts
  split
  · simp [h]
  · dsimp only
    split <;> simp_all

/-- A text without an exponent is that of parts without one. -/
theorem plainText_eq (negative : Bool) {digits : List Char} (h : digits ≠ []) (lead : Int) :
    plainText digits lead = (plainParts negative digits lead).text := by
  have hfraction := isEmpty_fraction_plainParts negative h lead
  rw [NumberParts.text, NumberParts.fractionText, hfraction]
  unfold plainText plainParts
  split <;> simp [NumberParts.exponentText]

/-- A text with an exponent is that of parts with one. -/
theorem exponentText_eq (negative : Bool) (digits : List Char) (lead : Int) :
    exponentText digits lead = (powerParts negative digits lead).text := by
  cases digits with
  | nil => rfl
  | cons c rest =>
    cases rest <;>
      simp [exponentText, powerParts, NumberParts.text, NumberParts.fractionText,
        NumberParts.exponentText]

/-- Either way a magnitude is written as its parts. -/
theorem magnitudeText_eq (negative : Bool) {x : Magnitude} (hx : x.IsBinary64) :
    magnitudeText x = (writtenParts negative x).text := by
  unfold magnitudeText writtenParts
  split
  · rfl
  · next hzero =>
    obtain ⟨zeros, hsignificant⟩ := exists_isSignificant_shortest hx hzero
    dsimp only
    split
    · exact plainText_eq negative hsignificant.ne_nil _
    · exact exponentText_eq negative _ _

theorem isDigit_of_mem_zeros {k : Nat} {c : Char} (h : c ∈ List.replicate k '0') :
    c.isDigit = true := by
  rw [(List.mem_replicate.mp h).2]
  rfl

/-- Parts without an exponent are written as a scanner reads them. -/
theorem isWritten_plainParts (negative : Bool) {n zeros : Nat} {digits : List Char}
    (h : IsSignificant n digits zeros) (lead : Int) :
    (plainParts negative digits lead).IsWritten := by
  obtain ⟨c, rest, hcons, hne⟩ := h.head
  unfold plainParts
  split
  · refine ⟨fun d hd => isDigit_of_mem_zeros (k := 1) hd, .inl rfl, fun d hd => ?_⟩
    exact (List.mem_append.mp hd).elim isDigit_of_mem_zeros h.isDigit
  · refine ⟨fun d hd => ?_, .inr ⟨c, _, by simp [hcons]; rfl, hne⟩, fun d hd => ?_⟩
    · exact (List.mem_append.mp hd).elim (fun hd => h.isDigit (List.mem_of_mem_take hd))
        isDigit_of_mem_zeros
    · dsimp only at hd
      split at hd
      · exact isDigit_of_mem_zeros (k := 1) hd
      · exact h.isDigit (List.mem_of_mem_drop hd)

/-- So are parts with one. -/
theorem isWritten_powerParts (negative : Bool) {n zeros : Nat} {digits : List Char}
    (h : IsSignificant n digits zeros) (lead : Int) :
    (powerParts negative digits lead).IsWritten := by
  obtain ⟨c, rest, hcons, hne⟩ := h.head
  refine ⟨fun d hd => h.isDigit (List.mem_of_mem_take hd), .inr ⟨c, [], ?_, hne⟩,
    fun d hd => h.isDigit (List.mem_of_mem_drop hd)⟩
  rw [powerParts, hcons]
  rfl

/-- What holds of significant digits with a plain decimal point and with an exponent holds of the
parts that a magnitude is written with. -/
theorem writtenParts_cases {P : NumberParts → Prop} {negative : Bool} {x : Magnitude}
    (hx : x.IsBinary64) (hzero : P ⟨negative, ['0'], ['0'], none⟩)
    (hplain : ∀ {n digits zeros}, IsSignificant n digits zeros →
      ∀ lead, P (plainParts negative digits lead))
    (hpower : ∀ {n digits zeros}, IsSignificant n digits zeros →
      ∀ lead, P (powerParts negative digits lead)) : P (writtenParts negative x) := by
  unfold writtenParts
  split
  · exact hzero
  · next hne =>
    obtain ⟨zeros, hsignificant⟩ := exists_isSignificant_shortest hx hne
    dsimp only
    split
    · exact hplain hsignificant _
    · exact hpower hsignificant _

theorem negative_writtenParts (negative : Bool) {x : Magnitude} (hx : x.IsBinary64) :
    (writtenParts negative x).negative = negative := by
  refine writtenParts_cases (P := (·.negative = negative)) hx rfl (fun _ lead => ?_) fun _ _ => rfl
  unfold plainParts
  split <;> rfl

theorem isWritten_writtenParts (negative : Bool) {x : Magnitude} (hx : x.IsBinary64) :
    (writtenParts negative x).IsWritten :=
  writtenParts_cases hx
    ⟨fun _ hc => isDigit_of_mem_zeros (k := 1) hc, .inl rfl,
      fun _ hc => isDigit_of_mem_zeros (k := 1) hc⟩
    (isWritten_plainParts negative) (isWritten_powerParts negative)

/-- A floating-point number is never written as an integer. -/
theorem int?_writtenParts (negative : Bool) {x : Magnitude} (hx : x.IsBinary64) :
    (writtenParts negative x).int? = none := by
  refine writtenParts_cases (P := (·.int? = none)) hx rfl (fun hsignificant lead => ?_)
    fun _ lead => ?_
  · rw [NumberParts.int?, isEmpty_fraction_plainParts negative hsignificant.ne_nil]
    rfl
  · rw [NumberParts.int?, powerParts, Option.isNone_some, Bool.and_false]
    rfl

/-! ## Numbers in range -/

/-- A number with more places behind its point than its exponent moves is in range. -/
theorem isSome_double?_of_lt {parts : NumberParts}
    (hsize : Nat.ofDigitChars 10 (parts.whole ++ parts.fraction) 0 < UInt64.size)
    (h : parts.exponent.getD 0 < parts.fraction.length) : parts.double?.isSome = true := by
  rw [NumberParts.double?_eq hsize, Option.isSome_map]
  exact Magnitude.isSome_ofDecimal? hsize fun hnot => by omega

/-- A number of up to 17 digits fits in 64 bits. -/
theorem ofDigitChars_lt_size {digits : List Char} (h : ∀ c ∈ digits, c.isDigit = true)
    (hlength : digits.length ≤ 17) : Nat.ofDigitChars 10 digits 0 < UInt64.size := by
  have hlt := ofDigitChars_lt h 0
  rw [Nat.zero_add, Nat.mul_one] at hlt
  exact hlt.trans_le ((Nat.pow_le_pow_right (by decide) hlength).trans (by decide))

/-- At most seventeen digits without an exponent are read as a number, unless the first of them
stands too high. -/
theorem isSome_double?_plainParts (negative : Bool) {n zeros : Nat} {digits : List Char}
    (h : IsSignificant n digits zeros) (hlength : digits.length ≤ 17) {lead : Int}
    (hlead : lead ≤ 15) : (plainParts negative digits lead).double?.isSome = true := by
  have hpos : 0 < digits.length := List.length_pos_iff.mpr h.ne_nil
  have hwritten := isWritten_plainParts negative h lead
  unfold plainParts at hwritten ⊢
  split at hwritten
  · next hneg =>
    rw [if_pos hneg]
    refine isSome_double?_of_lt ?_ ?_
    · dsimp only
      rw [Nat.ofDigitChars_append, Nat.ofDigitChars_append,
        show Nat.ofDigitChars 10 ['0'] 0 = 0 from rfl, Nat.ofDigitChars_replicate_zero,
        Nat.mul_zero]
      exact ofDigitChars_lt_size (fun _ => h.isDigit) hlength
    · simp only [Option.getD_none, List.length_append]
      omega
  · next hneg =>
    rw [if_neg hneg]
    refine isSome_double?_of_lt (ofDigitChars_lt_size (fun c hc => ?_) ?_) ?_
    · exact (List.mem_append.mp hc).elim (hwritten.whole c) (hwritten.fraction c)
    · dsimp only
      split <;> simp_all <;> omega
    · dsimp only
      split <;> simp_all

/-- So are digits with an exponent that stay below the greatest number. -/
theorem isSome_double?_powerParts (negative : Bool) {n zeros : Nat} {digits : List Char}
    (h : IsSignificant n digits zeros) (hlength : digits.length ≤ 17) {exponent : Int}
    (hrange : (n : ℚ) * 10 ^ exponent ≤ (2 ^ 53 - 5 / 2) * 2 ^ Magnitude.greatestExponent) :
    (powerParts negative digits (exponent + (decimal n).length - 1)).double?.isSome = true := by
  have hdigits : digits.take 1 ++ digits.drop 1 = digits := List.take_append_drop 1 digits
  have hsize : Nat.ofDigitChars 10 digits 0 < UInt64.size :=
    ofDigitChars_lt_size (fun _ => h.isDigit) hlength
  have hfraction : (digits.drop 1).length = digits.length - 1 := List.length_drop
  have hpos : 0 < digits.length := List.length_pos_iff.mpr h.ne_nil
  have hplaces : exponent + (decimal n).length - 1 - (digits.drop 1).length = exponent + zeros := by
    rw [h.length_decimal, hfraction]
    omega
  rw [NumberParts.double?_eq (by rw [powerParts, hdigits]; exact hsize), Option.isSome_map]
  simp only [powerParts, hdigits, Option.getD_some, hplaces]
  refine Magnitude.isSome_ofDecimal? hsize fun _ => ?_
  rw [zpow_add₀ (by norm_num), mul_left_comm, zpow_natCast]
  rw [h.value] at hrange
  push_cast at hrange
  linarith

/-- All but the two greatest numbers are far enough from the end of the range. -/
theorem le_range_or_greatest {x : Magnitude} (hx : x.IsBinary64) :
    ((x.significand + 1 / 2 : ℚ) * 2 ^ x.exponent ≤
        (2 ^ 53 - 5 / 2) * 2 ^ Magnitude.greatestExponent) ∨
      x = ⟨2 ^ 53 - 2, 971⟩ ∨ x = ⟨2 ^ 53 - 1, 971⟩ := by
  have hsignificand : x.significand < 2 ^ 53 := hx.significand
  have hunit : (0 : ℚ) < 2 ^ x.exponent := by positivity
  rcases hx.greatest.lt_or_eq with hexponent | hexponent
  · left
    have hhalf : (2 : ℚ) * 2 ^ x.exponent ≤ 2 ^ Magnitude.greatestExponent := by
      rw [← zpow_one_add₀ (by norm_num)]
      exact zpow_le_zpow_right₀ (by norm_num) (by omega)
    have hcast : (x.significand : ℚ) + 1 ≤ 2 ^ 53 := by exact_mod_cast hsignificand
    have hspan := mul_le_mul_of_nonneg_right hcast hunit.le
    linarith
  · by_cases hgreat : x.significand ≤ 2 ^ 53 - 3
    · left
      have hthree : x.significand + 3 ≤ 2 ^ 53 := by omega
      have hcast : (x.significand : ℚ) + 3 ≤ 2 ^ 53 := by exact_mod_cast hthree
      rw [← hexponent]
      gcongr
      linarith
    · right
      obtain ⟨significand, exponent⟩ := x
      obtain rfl : exponent = 971 := hexponent
      rcases (by dsimp only at hsignificand hgreat; omega :
        significand = 2 ^ 53 - 2 ∨ significand = 2 ^ 53 - 1) with rfl | rfl
      · exact .inl rfl
      · exact .inr rfl

/-- A written binary64 number is in range. -/
theorem isSome_double?_writtenParts (negative : Bool) {x : Magnitude} (hx : x.IsBinary64) :
    (writtenParts negative x).double?.isSome = true := by
  rcases le_range_or_greatest hx with hrange | rfl | rfl
  · unfold writtenParts
    split
    · cases negative <;> decide
    · next hzero =>
      obtain ⟨-, hcount, hnear⟩ := Magnitude.shortest_spec hx (Nat.pos_of_ne_zero hzero)
      obtain ⟨zeros, hsignificant⟩ := exists_isSignificant_shortest hx hzero
      have hlength := length_withoutTrailingZeros_le hcount
      dsimp only
      split
      · next hplain => exact isSome_double?_plainParts negative hsignificant hlength hplain.2
      · exact isSome_double?_powerParts negative hsignificant hlength (hnear.trans hrange)
  · cases negative <;> decide +kernel
  · cases negative <;> decide +kernel

/-! ## Scanning -/

namespace Double

/-- A number whose magnitude is a binary64 number. -/
def IsBinary64 (x : Double) : Prop := x.magnitude.IsBinary64

/-- The number that a number is read as when it has been written. -/
def reread (x : Double) : Double :=
  (writtenParts x.negative x.magnitude).double?.getD x

/-- A number is written with its parts behind its sign. -/
theorem text_eq {x : Double} (hx : x.IsBinary64) :
    x.text = (if x.negative then ['-'] else []) ++ (writtenParts x.negative x.magnitude).text := by
  rw [text, magnitudeText_eq x.negative hx]

/-- The parts of a written number are those of a number. -/
theorem document_writtenParts {x : Double} (hx : x.IsBinary64) :
    (writtenParts x.negative x.magnitude).document = .double x.reread := by
  obtain ⟨y, hy⟩ := Option.isSome_iff_exists.mp (isSome_double?_writtenParts x.negative hx)
  rw [NumberParts.document, int?_writtenParts _ hx, reread, hy]
  rfl

end Double

namespace Document

/-- No integer beyond 64 bits and no floating-point number but those of binary64. -/
def IsRepresentable : Document → Prop
  | .double x => x.IsBinary64
  | d => d.IsBounded

theorem IsExact.isRepresentable {d : Document} (h : d.IsExact) : d.IsRepresentable := by
  cases d with
  | double x => exact absurd h.1 id
  | _ => exact h.2

end Document

end CanonicalIdl.Json
