import CanonicalIdl.Json.Shortest
import CanonicalIdl.Proofs.Json.Rounding
import CanonicalIdl.Proofs.Text.Numerals
import Mathlib

/-!
# Shortest decimal forms

The grid of 17 digits is finer than the numbers around a binary64 number, so one of its two
neighbours there rounds to it: the search for a shortest form ends with a hit.  What it hits is
not farther from the number than half a unit of its significand.

Main results:

- Theorem `leadingPlace_spec`: the place of the leading digit.
- Theorem `isSome_onGrid?`: a grid that is fine enough has a hit.
- Theorem `shortest_spec`: a shortest form has up to 17 digits and is near the number.
-/

namespace CanonicalIdl.Json.Magnitude

variable {x : Magnitude}

/-! ## The leading digit -/

/-- The number of digits of a positive number. -/
theorem pow_length_decimal {n : Nat} (h : 0 < n) :
    10 ^ ((Text.decimal n).length - 1) ≤ n ∧ n < 10 ^ (Text.decimal n).length := by
  have hpos : 0 < (Text.decimal n).length := List.length_pos_iff.mpr (Text.decimal_ne_nil n)
  refine ⟨?_, (Nat.length_toDigits_le_iff (by decide) hpos).mp le_rfl⟩
  rcases Nat.eq_zero_or_pos ((Text.decimal n).length - 1) with hone | hmore
  · rw [hone]
    exact h
  · by_contra hlt
    have hle := (Nat.length_toDigits_le_iff (by decide) hmore).mpr (not_le.mp hlt)
    rw [← Text.decimal] at hle
    omega

/-- The digits of a number that is scaled enough count up to its leading place. -/
theorem scaled_spec {scale : Nat} (hfine : x.den ≤ Nat.pow 10 scale) (hpos : 0 < x.significand)
    {length : Nat} (hlength : length = (Text.decimal (x.num * Nat.pow 10 scale / x.den)).length) :
    (10 : ℚ) ^ ((length : Int) - (scale + 1)) ≤ x.value ∧
      x.value < 10 ^ ((length : Int) - (scale + 1) + 1) := by
  have hden := x.den_pos
  have hscaled : 0 < x.num * Nat.pow 10 scale / x.den :=
    Nat.div_pos (hfine.trans (Nat.le_mul_of_pos_left _ (shiftLeft_pos hpos _))) hden
  have hone : 1 ≤ length := hlength ▸ List.length_pos_iff.mpr (Text.decimal_ne_nil _)
  obtain ⟨hlow, hhigh⟩ := pow_length_decimal hscaled
  rw [← hlength] at hlow hhigh
  have hcast : x.value * 10 ^ (scale : Int) = (x.num * Nat.pow 10 scale : Nat) / x.den := by
    rw [← num_div_den, zpow_natCast, Nat.pow_eq]
    push_cast
    ring
  have hden' : (0 : ℚ) < x.den := by exact_mod_cast hden
  have hscale : (0 : ℚ) < 10 ^ (scale : Int) := by positivity
  constructor
  · refine le_of_mul_le_mul_right ?_ hscale
    rw [hcast, ← zpow_add₀ (by norm_num), le_div_iff₀ hden',
      show (length : Int) - (scale + 1) + scale = (length - 1 : Nat) by omega, zpow_natCast]
    exact_mod_cast (Nat.le_div_iff_mul_le hden).mp hlow
  · refine lt_of_mul_lt_mul_right ?_ hscale.le
    rw [hcast, ← zpow_add₀ (by norm_num), div_lt_iff₀ hden',
      show (length : Int) - (scale + 1) + 1 + scale = (length : Nat) by omega, zpow_natCast]
    exact_mod_cast (Nat.div_lt_iff_lt_mul hden).mp hhigh

/-- The least number times the scale of the leading place is a whole number. -/
theorem den_le_scale (hx : x.IsBinary64) : x.den ≤ Nat.pow 10 330 := by
  have hexponent : (-x.exponent).toNat ≤ (-leastExponent).toNat := by
    have := hx.least
    omega
  rw [den, Nat.one_shiftLeft]
  exact (Nat.pow_le_pow_right (by decide) hexponent).trans (by decide +kernel)

/-- The place of the leading digit of a binary64 number. -/
theorem leadingPlace_spec (hx : x.IsBinary64) (hpos : 0 < x.significand) :
    (10 : ℚ) ^ x.leadingPlace ≤ x.value ∧ x.value < 10 ^ (x.leadingPlace + 1) :=
  scaled_spec (den_le_scale hx) hpos rfl

/-! ## Points of a grid -/

/-- What a point of the grid counts for. -/
def pointWeight (x : Magnitude) (place : Int) : Nat :=
  Nat.pow 10 place.toNat <<< (-(x.exponent - 2)).toNat

/-- What a quarter of a unit of the significand counts for. -/
def quarterWeight (x : Magnitude) (place : Int) : Nat :=
  Nat.pow 10 (-place).toNat <<< (x.exponent - 2).toNat

/-- The point of the grid below a number. -/
def pointBelow (x : Magnitude) (place : Int) : Nat :=
  4 * x.significand * x.quarterWeight place / x.pointWeight place

/-- Whether a point of the grid rounds to the number. -/
def isInside (x : Magnitude) (place : Int) (n : Nat) : Bool :=
  if x.significand % 2 == 0 then
    x.lowerEnd * x.quarterWeight place ≤ n * x.pointWeight place &&
      n * x.pointWeight place ≤ x.upperEnd * x.quarterWeight place
  else
    x.lowerEnd * x.quarterWeight place < n * x.pointWeight place &&
      n * x.pointWeight place < x.upperEnd * x.quarterWeight place

theorem pointWeight_pos (x : Magnitude) (place : Int) : 0 < x.pointWeight place :=
  shiftLeft_pos (Nat.pow_pos (by decide)) _

theorem quarterWeight_pos (x : Magnitude) (place : Int) : 0 < x.quarterWeight place :=
  shiftLeft_pos (Nat.pow_pos (by decide)) _

/-- The exponents of a whole part and of a divisor differ by the exponent. -/
theorem zpow_split (base : ℚ) (hbase : base ≠ 0) (e : Int) :
    base ^ e.toNat = base ^ e * base ^ (-e).toNat := by
  rw [← zpow_natCast, ← zpow_natCast, ← zpow_add₀ hbase]
  congr 1
  omega

/-- The weights compare a point of the grid and a quarter of a unit. -/
theorem pointWeight_mul (x : Magnitude) (place : Int) :
    (x.pointWeight place : ℚ) * 2 ^ (x.exponent - 2) = 10 ^ place * x.quarterWeight place := by
  rw [pointWeight, quarterWeight, Nat.shiftLeft_eq, Nat.shiftLeft_eq, Nat.pow_eq, Nat.pow_eq]
  push_cast
  rw [zpow_split 10 (by norm_num) place, zpow_split 2 (by norm_num) (x.exponent - 2)]
  ring

theorem weight_lt_iff (x : Magnitude) (place : Int) (k n : Nat) :
    k * x.quarterWeight place < n * x.pointWeight place ↔
      (k : ℚ) * 2 ^ (x.exponent - 2) < n * 10 ^ place := by
  have hright : (0 : ℚ) < x.quarterWeight place := by exact_mod_cast quarterWeight_pos x place
  have hunit : (0 : ℚ) < 2 ^ (x.exponent - 2) := by positivity
  rw [← mul_lt_mul_iff_left₀ hright, mul_assoc (n : ℚ), ← pointWeight_mul, ← mul_assoc,
    mul_right_comm, mul_lt_mul_iff_left₀ hunit]
  exact_mod_cast Iff.rfl

theorem lt_weight_iff (x : Magnitude) (place : Int) (k n : Nat) :
    n * x.pointWeight place < k * x.quarterWeight place ↔
      (n : ℚ) * 10 ^ place < k * 2 ^ (x.exponent - 2) := by
  have hright : (0 : ℚ) < x.quarterWeight place := by exact_mod_cast quarterWeight_pos x place
  have hunit : (0 : ℚ) < 2 ^ (x.exponent - 2) := by positivity
  rw [← mul_lt_mul_iff_left₀ hright, mul_assoc (n : ℚ), ← pointWeight_mul, ← mul_assoc,
    mul_right_comm (k : ℚ), mul_lt_mul_iff_left₀ hunit]
  exact_mod_cast Iff.rfl

/-- A unit of the significand in quarters. -/
theorem unit_eq_quarters (x : Magnitude) : (2 : ℚ) ^ x.exponent = 4 * 2 ^ (x.exponent - 2) := by
  rw [zpow_sub₀ (by norm_num)]
  norm_num
  ring

/-- A number in quarters of a unit. -/
theorem value_eq_quarters (x : Magnitude) :
    x.value = (4 * x.significand : Nat) * 2 ^ (x.exponent - 2) := by
  rw [value, unit_eq_quarters]
  push_cast
  ring

/-- A number lies between the neighbouring points of a grid. -/
theorem pointBelow_spec (x : Magnitude) (place : Int) :
    (x.pointBelow place : ℚ) * 10 ^ place ≤ x.value ∧
      x.value < (x.pointBelow place + 1 : Nat) * 10 ^ place := by
  have hpos := pointWeight_pos x place
  rw [value_eq_quarters, ← weight_lt_iff, ← not_lt, ← weight_lt_iff, not_lt]
  exact ⟨Nat.div_mul_le_self _ _, (Nat.div_lt_iff_lt_mul hpos).mp (Nat.lt_succ_self _)⟩

theorem isInside_of_lt {place : Int} {n : Nat}
    (hlow : (x.lowerEnd : ℚ) * 2 ^ (x.exponent - 2) < n * 10 ^ place)
    (hhigh : (n : ℚ) * 10 ^ place < x.upperEnd * 2 ^ (x.exponent - 2)) :
    x.isInside place n = true := by
  rw [← weight_lt_iff] at hlow
  rw [← lt_weight_iff] at hhigh
  unfold isInside
  split <;> simp [hlow, hhigh, hlow.le, hhigh.le]

/-- What rounds to a number is not farther from it than half a unit of its significand. -/
theorem le_of_isInside {place : Int} {n : Nat} (h : x.isInside place n = true) :
    (n : ℚ) * 10 ^ place ≤ (x.significand + 1 / 2) * 2 ^ x.exponent := by
  have hweight : n * x.pointWeight place ≤ x.upperEnd * x.quarterWeight place := by
    unfold isInside at h
    split at h <;> simp only [Bool.and_eq_true, decide_eq_true_eq] at h
    · exact h.2
    · exact h.2.le
  have hupper : (x.significand + 1 / 2 : ℚ) * 2 ^ x.exponent =
      x.upperEnd * 2 ^ (x.exponent - 2) := by
    rw [unit_eq_quarters, upperEnd]
    push_cast
    ring
  rw [hupper]
  exact not_lt.mp fun hlt => hweight.not_gt ((weight_lt_iff x place _ n).mpr hlt)

/-! ## Hits -/

/-- Of the two points next to a number the nearer one, and of equally near ones the even one. -/
def nearerPoint (x : Magnitude) (place : Int) : Nat :=
  let value := 4 * x.significand * x.quarterWeight place
  let toBelow := value - x.pointBelow place * x.pointWeight place
  let toAbove := (x.pointBelow place + 1) * x.pointWeight place - value
  if toBelow < toAbove || (toBelow == toAbove && x.pointBelow place % 2 == 0) then
    x.pointBelow place
  else x.pointBelow place + 1

/-- The search on a grid tries the two points next to the number. -/
theorem onGrid?_eq (x : Magnitude) (place : Int) :
    x.onGrid? place =
      match 0 < x.pointBelow place && x.isInside place (x.pointBelow place),
        x.isInside place (x.pointBelow place + 1) with
      | true, true => some (x.nearerPoint place)
      | true, false => some (x.pointBelow place)
      | false, true => some (x.pointBelow place + 1)
      | false, false => none := rfl

theorem isSome_onGrid?_of_isInside {place : Int}
    (h : (0 < x.pointBelow place ∧ x.isInside place (x.pointBelow place) = true) ∨
      x.isInside place (x.pointBelow place + 1) = true) : (x.onGrid? place).isSome = true := by
  rw [onGrid?_eq]
  split <;> simp_all

theorem nearerPoint_cases (x : Magnitude) (place : Int) :
    x.nearerPoint place = x.pointBelow place ∨ x.nearerPoint place = x.pointBelow place + 1 := by
  rw [nearerPoint]
  split
  · exact .inl rfl
  · exact .inr rfl

/-- A hit is one of the two points next to a number, and rounds to it. -/
theorem of_onGrid?_eq_some {place : Int} {n : Nat} (h : x.onGrid? place = some n) :
    0 < n ∧ n ≤ x.pointBelow place + 1 ∧ x.isInside place n = true := by
  rw [onGrid?_eq] at h
  split at h
  · next hbelow habove =>
    simp only [Bool.and_eq_true, decide_eq_true_eq] at hbelow
    rcases nearerPoint_cases x place with hnear | hnear <;> rw [hnear] at h <;> cases h
    · exact ⟨hbelow.1, Nat.le_succ _, hbelow.2⟩
    · exact ⟨Nat.succ_pos _, le_rfl, habove⟩
  · next hbelow _ =>
    simp only [Bool.and_eq_true, decide_eq_true_eq] at hbelow
    cases h
    exact ⟨hbelow.1, Nat.le_succ _, hbelow.2⟩
  · next _ habove =>
    cases h
    exact ⟨Nat.succ_pos _, le_rfl, habove⟩
  · cases h

theorem cast_upperEnd (x : Magnitude) : (x.upperEnd : ℚ) = 4 * x.significand + 2 := by
  rw [upperEnd]
  push_cast
  ring

/-- The lower end is half a unit away, except next to a power of two. -/
theorem lowerEnd_cases (hpos : 0 < x.significand) :
    (x.lowerEnd : ℚ) = 4 * x.significand - 2 ∨
      ((x.significand : ℚ) = 2 ^ 52 ∧ (x.lowerEnd : ℚ) = 4 * x.significand - 1) := by
  unfold lowerEnd
  split
  · next h =>
    have hbound : x.significand = 2 ^ 52 := h.1
    refine .inr ⟨by rw [hbound]; norm_num, ?_⟩
    rw [Nat.cast_sub (by omega)]
    push_cast
    ring
  · refine .inl ?_
    rw [Nat.cast_sub (by omega)]
    push_cast
    ring

/-- A grid has a hit if `10 ^ 16` steps of it are not beyond the number.  If the point above is
too far away, the point below is not; next to a power of two, where the numbers below are nearer
to one another, the point above never is. -/
theorem isSome_onGrid? (hx : x.IsBinary64) (hpos : 0 < x.significand) {place : Int}
    (hfine : (10 : ℚ) ^ 16 * 10 ^ place ≤ x.value) : (x.onGrid? place).isSome = true := by
  obtain ⟨hbelow, habove⟩ := pointBelow_spec x place
  have hunit : (0 : ℚ) < 2 ^ (x.exponent - 2) := by positivity
  have hstep : (0 : ℚ) < 10 ^ place := by positivity
  have hsignificand : (x.significand : ℚ) < 2 ^ 53 := by
    rw [← cast_significandBound]
    exact_mod_cast hx.significand
  have hupper := cast_upperEnd x
  rw [value_eq_quarters] at hbelow habove hfine
  push_cast at hbelow habove hfine
  refine isSome_onGrid?_of_isInside ?_
  by_cases hinside : ((x.pointBelow place + 1 : Nat) : ℚ) * 10 ^ place <
      x.upperEnd * 2 ^ (x.exponent - 2)
  · refine .inr (isInside_of_lt ?_ hinside)
    have hlow : (x.lowerEnd : ℚ) ≤ 4 * x.significand := by
      rcases lowerEnd_cases hpos with h | ⟨-, h⟩ <;> linarith
    push_cast
    exact (mul_le_mul_of_nonneg_right hlow hunit.le).trans_lt habove
  · left
    rw [hupper, not_lt] at hinside
    push_cast at hinside
    set unit : ℚ := 2 ^ (x.exponent - 2)
    set step : ℚ := 10 ^ place
    have hspan : (x.significand : ℚ) * unit < 2 ^ 53 * unit :=
      mul_lt_mul_of_pos_right hsignificand hunit
    refine ⟨?_, isInside_of_lt ?_ ?_⟩
    · have hmany : 0 < (x.pointBelow place : ℚ) * step := by linarith
      exact_mod_cast (pos_iff_pos_of_mul_pos hmany).mpr hstep
    · rcases lowerEnd_cases hpos with hlow | ⟨hpower, -⟩
      · rw [hlow]
        linarith
      · rw [hpower] at hinside hfine hbelow
        linarith
    · rw [hupper]
      linarith

/-! ## The search -/

/-- The search ends with a hit if the last grid has one. -/
theorem firstGrid_spec {lead : Int} {more count : Nat}
    (h : (x.onGrid? (lead - (count + more : Nat) + 1)).isSome = true) :
    ∃ digits, count ≤ digits ∧ digits ≤ count + more ∧
      (x.firstGrid lead more count).exponent = lead - digits + 1 ∧
      x.onGrid? (lead - digits + 1) = some (x.firstGrid lead more count).digits := by
  induction more generalizing count with
  | zero =>
    obtain ⟨n, hn⟩ := Option.isSome_iff_exists.mp h
    rw [Nat.add_zero] at hn
    exact ⟨count, le_rfl, le_rfl, rfl, by rw [firstGrid, hn]; rfl⟩
  | succ more ih =>
    cases hgrid : x.onGrid? (lead - count + 1) with
    | some n =>
      rw [firstGrid, hgrid]
      exact ⟨count, le_rfl, by omega, rfl, hgrid⟩
    | none =>
      have hnext : count + 1 + more = count + (more + 1) := by omega
      obtain ⟨digits, hleast, hmost, hsearch⟩ := @ih (count + 1) (by rwa [hnext])
      rw [firstGrid, hgrid]
      exact ⟨digits, by omega, by omega, hsearch⟩

/-- A shortest form has up to 17 digits and is not farther from the number than half a unit of
its significand. -/
theorem shortest_spec (hx : x.IsBinary64) (hpos : 0 < x.significand) :
    0 < x.shortest.digits ∧ x.shortest.digits ≤ 10 ^ 17 ∧
      (x.shortest.digits : ℚ) * 10 ^ x.shortest.exponent ≤
        (x.significand + 1 / 2) * 2 ^ x.exponent := by
  obtain ⟨hleast, hmost⟩ := leadingPlace_spec hx hpos
  have hlast : (x.onGrid? (x.leadingPlace - (1 + 16 : Nat) + 1)).isSome = true := by
    refine isSome_onGrid? hx hpos ?_
    rw [← zpow_natCast, ← zpow_add₀ (by norm_num),
      show ((16 : Nat) : Int) + (x.leadingPlace - (1 + 16 : Nat) + 1) = x.leadingPlace by omega]
    exact hleast
  obtain ⟨count, -, hcount, hexponent, hhit⟩ := firstGrid_spec hlast
  obtain ⟨hdigits, hle, hinside⟩ := of_onGrid?_eq_some hhit
  rw [← hexponent] at hinside
  refine ⟨hdigits, hle.trans ?_, le_of_isInside hinside⟩
  obtain ⟨hbelow, -⟩ := pointBelow_spec x (x.leadingPlace - count + 1)
  have hcast : (x.pointBelow (x.leadingPlace - count + 1) : ℚ) < 10 ^ count := by
    have hstep : (0 : ℚ) < 10 ^ (x.leadingPlace - count + 1) := by positivity
    refine lt_of_mul_lt_mul_right (hbelow.trans_lt ?_) hstep.le
    rw [← zpow_natCast, ← zpow_add₀ (by norm_num),
      show (count : Int) + (x.leadingPlace - count + 1) = x.leadingPlace + 1 by omega]
    exact hmost
  have hlt : x.pointBelow (x.leadingPlace - count + 1) < 10 ^ count := by exact_mod_cast hcast
  exact (Nat.succ_le_of_lt hlt).trans (Nat.pow_le_pow_right (by decide) hcount)

end CanonicalIdl.Json.Magnitude
