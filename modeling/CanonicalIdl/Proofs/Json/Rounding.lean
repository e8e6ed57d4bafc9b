import CanonicalIdl.Json.Double
import Mathlib

/-!
# Rounded quotients

A positive quotient is rounded on the grid on which it has 53 bits, or on the finest one.  So
what is rounded is a binary64 number again, it is not far from the quotient, and it is in range
unless the quotient is as great as the first number that would round out of range.

Main results:

- Theorem `gridExponent_spec`: how a quotient lies on its grid.
- Theorem `isBinary64_of_nearest?`, `isBinary64_of_ofDecimal?`: what is rounded is a binary64
  number.
- Theorem `isSome_ofDecimal?`: a decimal that is not too great is in range.
-/

namespace CanonicalIdl.Json

/-! ## Quotients on grids -/

/-- The quotient of two integers in units of a power of two. -/
def onGrid (num den : Nat) (e : Int) : ℚ := num / den * 2 ^ (-e)

theorem shift_div_shift (num den : Nat) (e : Int) :
    ((num <<< (-e).toNat : Nat) : ℚ) / (den <<< e.toNat : Nat) = onGrid num den e := by
  unfold onGrid
  rcases Int.le_total 0 e with he | he
  · obtain ⟨k, rfl⟩ := Int.eq_ofNat_of_zero_le he
    have hneg : (-(k : Int)).toNat = 0 := by omega
    rw [hneg, Int.toNat_natCast, Nat.shiftLeft_zero, Nat.shiftLeft_eq, zpow_neg, zpow_natCast]
    push_cast
    rw [div_mul_eq_div_div, div_eq_mul_inv (_ / _)]
  · obtain ⟨k, hk⟩ := Int.eq_ofNat_of_zero_le (Int.neg_nonneg_of_nonpos he)
    have hpos : e.toNat = 0 := by omega
    rw [hpos, hk, Int.toNat_natCast, Nat.shiftLeft_zero, Nat.shiftLeft_eq, zpow_natCast]
    push_cast
    rw [div_mul_eq_mul_div]

theorem shiftLeft_pos {n : Nat} (h : 0 < n) (k : Nat) : 0 < n <<< k := by
  rw [Nat.shiftLeft_eq]
  exact Nat.mul_pos h (Nat.two_pow_pos k)

/-- The next coarser grid. -/
theorem onGrid_succ (num den : Nat) (e : Int) : onGrid num den (e + 1) = onGrid num den e / 2 := by
  rw [onGrid, onGrid, neg_add, zpow_add₀ (by norm_num), mul_div_assoc]
  norm_num [div_eq_mul_inv]

/-- Quotients on a coarser grid are not greater. -/
theorem onGrid_anti (num den : Nat) {e e' : Int} (h : e ≤ e') :
    onGrid num den e' ≤ onGrid num den e := by
  refine mul_le_mul_of_nonneg_left ?_ (by positivity)
  exact zpow_le_zpow_right₀ (by norm_num) (by omega)

/-- A floor is below a bound if the quotient is. -/
theorem div_lt_iff_onGrid {num den : Nat} (hden : 0 < den) (e : Int) (bound : Nat) :
    (num <<< (-e).toNat) / (den <<< e.toNat) < bound ↔ onGrid num den e < bound := by
  have hpos := shiftLeft_pos hden e.toNat
  rw [Nat.div_lt_iff_lt_mul hpos, ← shift_div_shift, div_lt_iff₀ (by exact_mod_cast hpos)]
  exact_mod_cast Iff.rfl

/-- The first guess is off by at most one. -/
theorem onGrid_guess {num den : Nat} (hnum : 0 < num) (hden : 0 < den) :
    2 ^ 52 ≤ onGrid num den (Nat.log2 num - Nat.log2 den - 53) ∧
      onGrid num den (Nat.log2 num - Nat.log2 den - 53) < 2 ^ 54 := by
  have hlow : (2 : ℚ) ^ Nat.log2 num ≤ num := by
    exact_mod_cast Nat.log2_self_le (Nat.pos_iff_ne_zero.mp hnum)
  have hhigh : (num : ℚ) < 2 ^ (Nat.log2 num + 1) := by
    exact_mod_cast (Nat.lt_log2_self : num < 2 ^ (Nat.log2 num + 1))
  have hlow' : (2 : ℚ) ^ Nat.log2 den ≤ den := by
    exact_mod_cast Nat.log2_self_le (Nat.pos_iff_ne_zero.mp hden)
  have hhigh' : (den : ℚ) < 2 ^ (Nat.log2 den + 1) := by
    exact_mod_cast (Nat.lt_log2_self : den < 2 ^ (Nat.log2 den + 1))
  have hden' : (0 : ℚ) < den := by exact_mod_cast hden
  have hscale : (2 : ℚ) ^ (-((Nat.log2 num : Int) - Nat.log2 den - 53)) =
      2 ^ Nat.log2 den * 2 ^ 53 / 2 ^ Nat.log2 num := by
    rw [eq_div_iff (by positivity), ← zpow_natCast, ← zpow_natCast, ← zpow_natCast,
      ← zpow_add₀ (by norm_num), ← zpow_add₀ (by norm_num)]
    congr 1
    push_cast
    ring
  rw [onGrid, hscale, div_mul_div_comm, le_div_iff₀ (by positivity), div_lt_iff₀ (by positivity)]
  rw [pow_succ] at hhigh hhigh'
  have hn : (0 : ℚ) < 2 ^ Nat.log2 num := by positivity
  have hd : (0 : ℚ) < 2 ^ Nat.log2 den := by positivity
  constructor
  · nlinarith [mul_le_mul hhigh'.le hlow hn.le (by positivity)]
  · nlinarith [mul_lt_mul hhigh hlow' hd (by positivity)]

/-- A quotient in units, times the unit. -/
theorem onGrid_mul (num den : Nat) (e : Int) : onGrid num den e * 2 ^ e = num / den := by
  rw [onGrid, mul_assoc, ← zpow_add₀ (by norm_num), neg_add_cancel, zpow_zero, mul_one]

namespace Magnitude

theorem cast_significandBound : (significandBound : ℚ) = 2 ^ 53 := by norm_num [significandBound]

/-- A quotient has at most 53 bits on its grid, and not fewer unless the grid is the finest. -/
theorem gridExponent_spec {num den : Nat} (hnum : 0 < num) (hden : 0 < den) :
    onGrid num den (gridExponent num den) < 2 ^ 53 ∧
      (leastExponent < gridExponent num den → 2 ^ 52 ≤ onGrid num den (gridExponent num den)) := by
  obtain ⟨hlow, hhigh⟩ := onGrid_guess hnum hden
  set guess : Int := Nat.log2 num - Nat.log2 den - 53 with hguess
  obtain ⟨e, he, hupper, hlower⟩ : ∃ e : Int, gridExponent num den = max e leastExponent ∧
      onGrid num den e < 2 ^ 53 ∧ 2 ^ 52 ≤ onGrid num den e := by
    by_cases hfloor : (num <<< (-guess).toNat) / (den <<< guess.toNat) < significandBound
    · have hbound := (div_lt_iff_onGrid hden guess significandBound).mp hfloor
      refine ⟨guess, by simp only [gridExponent, ← hguess, if_pos hfloor], ?_, hlow⟩
      rwa [cast_significandBound] at hbound
    · have hbound := (div_lt_iff_onGrid hden guess significandBound).not.mp hfloor
      refine ⟨guess + 1, by simp only [gridExponent, ← hguess, if_neg hfloor], ?_, ?_⟩
      · rw [onGrid_succ]
        linarith
      · rw [cast_significandBound, not_lt] at hbound
        rw [onGrid_succ]
        linarith
  rw [he]
  refine ⟨lt_of_le_of_lt (onGrid_anti num den (le_max_left e _)) hupper, fun hlt => ?_⟩
  rw [max_eq_left (by omega)]
  exact hlower

/-! ## Rounding on the grid -/

/-- What a quotient is rounded to on its grid. -/
def rounded (num den : Nat) : Nat :=
  roundHalfEven (num <<< (-gridExponent num den).toNat) (den <<< (gridExponent num den).toNat)

theorem rounded_le_add_half (num : Nat) {den : Nat} (hden : 0 < den) :
    (rounded num den : ℚ) ≤ onGrid num den (gridExponent num den) + 1 / 2 := by
  have hpos := shiftLeft_pos hden (gridExponent num den).toNat
  have hwithin := (roundHalfEven_within (num <<< (-gridExponent num den).toNat) _ hpos).1
  have hpos' : (0 : ℚ) < (den <<< (gridExponent num den).toNat : Nat) := by exact_mod_cast hpos
  rw [← shift_div_shift, div_add' _ _ _ hpos'.ne', le_div_iff₀ hpos', rounded]
  have hcast := (Nat.cast_le (α := ℚ)).mpr hwithin
  push_cast at hcast ⊢
  linarith

theorem rounded_le {num : Nat} (hnum : 0 < num) (den : Nat) :
    rounded num den ≤ significandBound := by
  rcases Nat.eq_zero_or_pos den with rfl | hden
  · have hzero : ∀ n, roundHalfEven n 0 ≤ 1 := by
      intro n
      unfold roundHalfEven
      simp only [Nat.div_zero]
      split <;> omega
    rw [rounded, Nat.zero_shiftLeft]
    exact (hzero _).trans (by decide)
  · have hupper := (gridExponent_spec hnum hden).1
    have hhalf := rounded_le_add_half num hden
    have hlt : (rounded num den : ℚ) < significandBound + 1 := by
      rw [cast_significandBound]
      linarith
    exact Nat.lt_succ_iff.mp (by exact_mod_cast hlt)

/-- The nearest number is the rounded quotient on its grid, or on the next one if it has one bit
more. -/
theorem nearest?_eq {num : Nat} (hnum : 0 < num) (den : Nat) :
    nearest? num den =
      if rounded num den = significandBound then
        if greatestExponent < gridExponent num den + 1 then none
        else some ⟨significandBound / 2, gridExponent num den + 1⟩
      else if rounded num den = 0 then some zero
      else if greatestExponent < gridExponent num den then none
      else some ⟨rounded num den, gridExponent num den⟩ := by
  have hne : significandBound / 2 ≠ 0 := by decide
  rw [nearest?, if_neg (Nat.pos_iff_ne_zero.mp hnum), rounded]
  by_cases hbound : roundHalfEven (num <<< (-gridExponent num den).toNat)
      (den <<< (gridExponent num den).toNat) = significandBound
  · simp only [hbound, if_true, hne, if_false]
  · simp only [hbound, if_false]

theorem leastExponent_le_gridExponent (num den : Nat) : leastExponent ≤ gridExponent num den :=
  Int.le_max_right _ _

/-- A binary64 number: zero, or a significand of at most 53 bits and an exponent in range. -/
structure IsBinary64 (x : Magnitude) : Prop where
  significand : x.significand < significandBound
  least : leastExponent ≤ x.exponent
  greatest : x.exponent ≤ greatestExponent

instance (x : Magnitude) : Decidable x.IsBinary64 :=
  decidable_of_iff (x.significand < significandBound ∧ leastExponent ≤ x.exponent ∧
      x.exponent ≤ greatestExponent)
    ⟨fun h => ⟨h.1, h.2.1, h.2.2⟩, fun h => ⟨h.significand, h.least, h.greatest⟩⟩

theorem isBinary64_zero : zero.IsBinary64 := by decide

/-- What is rounded is a binary64 number. -/
theorem isBinary64_of_nearest? {num den : Nat} {x : Magnitude} (h : nearest? num den = some x) :
    x.IsBinary64 := by
  rcases Nat.eq_zero_or_pos num with rfl | hnum
  · obtain rfl := Option.some.inj h
    exact isBinary64_zero
  · have hleast := leastExponent_le_gridExponent num den
    rw [nearest?_eq hnum] at h
    split at h
    · split at h
      · cases h
      · obtain rfl := Option.some.inj h
        exact ⟨Nat.div_lt_self (by decide) (by decide), by dsimp only; omega, by dsimp only; omega⟩
    · split at h
      · obtain rfl := Option.some.inj h
        exact isBinary64_zero
      · split at h
        · cases h
        · next hne _ _ =>
          obtain rfl := Option.some.inj h
          exact ⟨lt_of_le_of_ne (rounded_le hnum den) hne, hleast, by dsimp only; omega⟩

/-! ## Values -/

/-- The rational number that a magnitude is. -/
def value (x : Magnitude) : ℚ := x.significand * 2 ^ x.exponent

theorem value_nonneg (x : Magnitude) : 0 ≤ x.value := by
  rw [value]
  positivity

theorem num_div_den (x : Magnitude) : (x.num : ℚ) / x.den = x.value := by
  have h := shift_div_shift x.significand 1 (-x.exponent)
  rw [neg_neg] at h
  rw [num, den, h, onGrid, value, neg_neg, Nat.cast_one, div_one]

theorem den_pos (x : Magnitude) : 0 < x.den := shiftLeft_pos Nat.one_pos _

/-- A quotient of at least one lies above the grid of the subnormal numbers. -/
theorem leastExponent_lt_gridExponent {num den : Nat} (hnum : 0 < num) (hden : 0 < den)
    (hone : (1 : ℚ) ≤ num / den) : leastExponent < gridExponent num den := by
  by_contra hle
  have hexponent : gridExponent num den ≤ -54 := by rw [leastExponent] at hle; omega
  have hsmall : (2 : ℚ) ^ gridExponent num den ≤ 2 ^ (-54 : ℤ) :=
    zpow_le_zpow_right₀ (by norm_num) hexponent
  have hprod : onGrid num den (gridExponent num den) * 2 ^ gridExponent num den <
      2 ^ 53 * 2 ^ (-54 : ℤ) :=
    mul_lt_mul (gridExponent_spec hnum hden).1 hsmall (by positivity) (by positivity)
  rw [onGrid_mul] at hprod
  norm_num at hprod
  linarith

/-- The nearest number is not above the rounded quotient on its grid: a significand of one bit
more is halved on the next grid. -/
theorem value_le_rounded {num den : Nat} (hnum : 0 < num) {x : Magnitude}
    (h : nearest? num den = some x) :
    x.value ≤ rounded num den * 2 ^ gridExponent num den := by
  rw [nearest?_eq hnum] at h
  split at h
  · next hbound =>
    split at h
    · cases h
    · obtain rfl := Option.some.inj h
      have hhalf : ((significandBound / 2 : Nat) : ℚ) * 2 = significandBound := by
        norm_num [significandBound]
      rw [value, hbound, zpow_add_one₀ (by norm_num), ← hhalf]
      linarith
  · split at h
    · obtain rfl := Option.some.inj h
      norm_num [value, zero]
      positivity
    · split at h
      · cases h
      · obtain rfl := Option.some.inj h
        exact le_rfl

/-- A quotient of at least one is rounded up by at most one part in `2 ^ 53`. -/
theorem value_le_of_nearest? {num den : Nat} (hden : 0 < den) (hone : (1 : ℚ) ≤ num / den)
    {x : Magnitude} (h : nearest? num den = some x) :
    x.value ≤ num / den * (1 + 1 / 2 ^ 53) := by
  have hnum : 0 < num := by
    by_contra hzero
    obtain rfl : num = 0 := by omega
    norm_num at hone
  have hlower := (gridExponent_spec hnum hden).2 (leastExponent_lt_gridExponent hnum hden hone)
  have hhalf := rounded_le_add_half num hden
  have hscale := onGrid_mul num den (gridExponent num den)
  set e := gridExponent num den
  calc x.value ≤ rounded num den * 2 ^ e := value_le_rounded hnum h
    _ ≤ (onGrid num den e + 1 / 2) * 2 ^ e := by gcongr
    _ ≤ (onGrid num den e * (1 + 1 / 2 ^ 53)) * 2 ^ e := by
      gcongr
      norm_num at hlower ⊢
      linarith
    _ = num / den * (1 + 1 / 2 ^ 53) := by rw [← hscale]; ring

/-- A quotient is rounded to a number in range unless it is nearer to the first number out of
range. -/
theorem isSome_nearest? {num den : Nat} (hden : 0 < den)
    (h : (num : ℚ) / den < (2 ^ 53 - 1 / 2) * 2 ^ greatestExponent) :
    (nearest? num den).isSome = true := by
  rcases Nat.eq_zero_or_pos num with rfl | hnum
  · rfl
  set e := gridExponent num den with he
  have hlower := (gridExponent_spec hnum hden).2
  have hhalf := rounded_le_add_half num hden
  rw [← he] at hlower hhalf
  rw [← onGrid_mul num den e] at h
  have hunit : (0 : ℚ) < 2 ^ greatestExponent := by positivity
  have hgreatest : e ≤ greatestExponent := by
    by_contra hlt
    have hlow := hlower (lt_trans (by decide) (not_le.mp hlt))
    have hstep : (2 : ℚ) * 2 ^ greatestExponent ≤ 2 ^ e := by
      rw [← zpow_one_add₀ (by norm_num)]
      exact zpow_le_zpow_right₀ (by norm_num) (by omega)
    have hprod := mul_le_mul hlow hstep (by positivity) (by linarith)
    linarith
  have hcarry : rounded num den = significandBound → e + 1 ≤ greatestExponent := by
    intro hbound
    by_contra hlt
    obtain hexp : e = greatestExponent := by omega
    have hlt' : onGrid num den e < 2 ^ 53 - 1 / 2 := by
      rw [hexp] at h ⊢
      exact lt_of_mul_lt_mul_right h hunit.le
    rw [hbound, cast_significandBound] at hhalf
    linarith
  rw [nearest?_eq hnum, ← he]
  split
  · next hbound => rw [if_neg (by have := hcarry hbound; omega)]; rfl
  · split
    · rfl
    · rw [if_neg (by omega)]; rfl

/-! ## Decimals -/

theorem isBinary64_getD_nearest? (num den : Nat) : ((nearest? num den).getD zero).IsBinary64 := by
  cases h : nearest? num den with
  | none => exact isBinary64_zero
  | some x => exact isBinary64_of_nearest? h

theorem isBinary64_divPowerOfTen (steps : Nat) (x : Magnitude) (n : Nat) :
    (divPowerOfTen steps x n).IsBinary64 := by
  induction steps generalizing x n with
  | zero => exact isBinary64_zero
  | succ steps ih =>
    rw [divPowerOfTen]
    split
    · exact isBinary64_getD_nearest? _ _
    · exact ih _ _

/-- The binary form of a decimal is a binary64 number. -/
theorem isBinary64_of_ofDecimal? {significand : Nat} {exponent : Int} {x : Magnitude}
    (h : ofDecimal? significand exponent = some x) : x.IsBinary64 := by
  obtain ⟨y, -, h⟩ := Option.bind_eq_some_iff.mp h
  split at h
  · obtain rfl := Option.some.inj h
    exact isBinary64_zero
  · split at h
    · obtain rfl := Option.some.inj h
      exact isBinary64_divPowerOfTen _ _ _
    · split at h
      · exact isBinary64_of_nearest? h
      · cases h

/-- What the greatest numbers are multiples of. -/
def greatestUnit : Nat := 2 ^ 971

/-- The greatest power of ten in range. -/
def greatestPowerOfTen : Nat := 10 ^ 308

theorem cast_greatestUnit : (greatestUnit : ℚ) = 2 ^ greatestExponent := by
  rw [greatestUnit, Nat.cast_pow, ← zpow_natCast]
  rfl

theorem greatestPowerOfTen_le : greatestPowerOfTen ≤ (2 ^ 53 - 1) * greatestUnit := by
  decide +kernel

theorem le_greatestPowerOfTen : 2 ^ 53 * greatestUnit ≤ 10 * greatestPowerOfTen := by
  decide +kernel

theorem isSome_nearest?_of_le {n : Nat} (h : n ≤ greatestPowerOfTen) :
    (nearest? n 1).isSome = true := by
  refine isSome_nearest? Nat.one_pos ?_
  have hn : (n : ℚ) ≤ (2 ^ 53 - 1 : Nat) * greatestUnit := by
    exact_mod_cast h.trans greatestPowerOfTen_le
  have hunit : (0 : ℚ) < 2 ^ greatestExponent := by positivity
  rw [cast_greatestUnit] at hn
  rw [Nat.cast_one, div_one]
  norm_num at hn ⊢
  linarith

theorem pow_le_greatestPowerOfTen {n : Nat} (h : n ≤ 308) : 10 ^ n ≤ greatestPowerOfTen := by
  rw [greatestPowerOfTen]
  gcongr
  decide

/-- A power of ten in range is rounded up by at most one part in `2 ^ 53`. -/
theorem value_powerOfTen_le {n : Nat} (h : n ≤ 308) :
    (powerOfTen n).value ≤ 10 ^ n * (1 + 1 / 2 ^ 53) := by
  obtain ⟨x, hx⟩ := Option.isSome_iff_exists.mp
    (isSome_nearest?_of_le (pow_le_greatestPowerOfTen h))
  have hone : (1 : ℚ) ≤ (10 ^ n : Nat) / (1 : Nat) := by
    rw [Nat.cast_one, div_one]
    exact_mod_cast Nat.one_le_pow _ _ (by decide)
  have hle := value_le_of_nearest? Nat.one_pos hone hx
  rw [powerOfTen, show Nat.pow 10 n = 10 ^ n from rfl, hx]
  simpa using hle

/-- Where a multiple of a power of ten is in range, the power is. -/
theorem le_of_mul_pow_le {significand n : Nat} (hone : (1 : ℚ) ≤ significand)
    (h : (significand : ℚ) * 10 ^ n ≤ (2 ^ 53 - 5 / 2) * 2 ^ greatestExponent) : n ≤ 308 := by
  by_contra hlt
  have hunit : (0 : ℚ) < 2 ^ greatestExponent := by positivity
  have hpow : (0 : ℚ) < 10 ^ n := by positivity
  have hten : 10 * greatestPowerOfTen ≤ 10 ^ n := by
    rw [greatestPowerOfTen, ← pow_succ']
    gcongr
    · decide
    · exact not_le.mp hlt
  have hgreat : (2 : ℚ) ^ 53 * greatestUnit ≤ 10 ^ n := by
    exact_mod_cast le_greatestPowerOfTen.trans hten
  rw [cast_greatestUnit] at hgreat
  have hle := le_mul_of_one_le_left hpow.le hone
  linarith

/-- A product is rounded to a number in range unless it is nearer to the first number out of
range. -/
theorem isSome_mul? {x y : Magnitude}
    (h : x.value * y.value < (2 ^ 53 - 1 / 2) * 2 ^ greatestExponent) :
    (mul? x y).isSome = true := by
  have hprod : ((x.num * y.num : Nat) : ℚ) / (x.den * y.den : Nat) = x.value * y.value := by
    push_cast
    rw [← num_div_den, ← num_div_den, div_mul_div_comm]
  rw [mul?]
  exact isSome_nearest? (Nat.mul_pos x.den_pos y.den_pos) (by rwa [hprod])

/-- A decimal is in range unless it is greater than the last significand but two. -/
theorem isSome_ofDecimal? {significand : Nat} {exponent : Int} (hsize : significand < UInt64.size)
    (h : 0 ≤ exponent →
      (significand : ℚ) * 10 ^ exponent ≤ (2 ^ 53 - 5 / 2) * 2 ^ greatestExponent) :
    (ofDecimal? significand exponent).isSome = true := by
  obtain ⟨x, hx⟩ := Option.isSome_iff_exists.mp
    (isSome_nearest?_of_le (hsize.le.trans (by decide +kernel)))
  rw [ofDecimal?, hx, Option.bind_eq_bind, Option.bind_some]
  by_cases hzero : significand = 0
  · rw [if_pos hzero]; rfl
  rw [if_neg hzero]
  by_cases hneg : exponent < 0
  · rw [if_pos hneg]; rfl
  rw [if_neg hneg]
  obtain ⟨n, rfl⟩ := Int.eq_ofNat_of_zero_le (not_lt.mp hneg)
  replace h := h (not_lt.mp hneg)
  rw [zpow_natCast] at h
  have hone : (1 : ℚ) ≤ significand := by exact_mod_cast Nat.one_le_iff_ne_zero.mpr hzero
  have hn : n ≤ 308 := le_of_mul_pow_le hone h
  have hvalue := value_le_of_nearest? Nat.one_pos (by rwa [Nat.cast_one, div_one]) hx
  rw [Nat.cast_one, div_one] at hvalue
  rw [if_pos (by exact_mod_cast hn), Int.toNat_natCast]
  apply isSome_mul?
  -- Both factors are rounded up by one part in `2 ^ 53` at most.
  calc x.value * (powerOfTen n).value
      ≤ (significand * (1 + 1 / 2 ^ 53)) * (10 ^ n * (1 + 1 / 2 ^ 53)) := by
        exact mul_le_mul hvalue (value_powerOfTen_le hn) (value_nonneg _) (by positivity)
    _ = significand * 10 ^ n * (1 + 1 / 2 ^ 53) ^ 2 := by ring
    _ ≤ (2 ^ 53 - 5 / 2) * 2 ^ greatestExponent * (1 + 1 / 2 ^ 53) ^ 2 := by gcongr
    _ = (2 ^ 53 - 5 / 2) * (1 + 1 / 2 ^ 53) ^ 2 * 2 ^ greatestExponent := by ring
    _ < (2 ^ 53 - 1 / 2) * 2 ^ greatestExponent := by
      gcongr
      norm_num

end Magnitude

end CanonicalIdl.Json
