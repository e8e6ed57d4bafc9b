/-!
# Finite binary floating-point numbers

A finite binary64 number is a sign, a significand below `2 ^ 53` and a power of two.
Products and quotients are computed exactly and then rounded to nearest, ties to an
even significand.

Main results:

- Theorem `roundHalfEven_within`: a rounded quotient is within half a unit.
-/

namespace CanonicalIdl.Json

/-- The magnitude of a finite binary64 number, `significand · 2 ^ exponent`. -/
structure Magnitude where
  significand : Nat
  exponent : Int
  deriving Repr, DecidableEq, Inhabited

/-- A finite binary64 number. -/
structure Double where
  negative : Bool
  magnitude : Magnitude
  deriving Repr, DecidableEq, Inhabited

/-- Quotient of two numbers, rounded to nearest, a half to the even neighbour. -/
def roundHalfEven (num den : Nat) : Nat :=
  let q := num / den
  let r := num % den
  if den < 2 * r || (2 * r == den && q % 2 == 1) then q + 1 else q

/-- A rounded quotient is within half a unit of the exact one. -/
theorem roundHalfEven_within (num den : Nat) (h : 0 < den) :
    2 * (roundHalfEven num den * den) ≤ 2 * num + den ∧
      2 * num ≤ 2 * (roundHalfEven num den * den) + den := by
  have hdiv := Nat.div_add_mod num den
  have hmod := Nat.mod_lt num h
  have hcomm : den * (num / den) = num / den * den := Nat.mul_comm _ _
  unfold roundHalfEven
  simp only
  split
  · next hup =>
    have hr : den ≤ 2 * (num % den) := by
      simp only [Bool.or_eq_true, Bool.and_eq_true, decide_eq_true_eq, beq_iff_eq] at hup
      omega
    rw [Nat.add_mul]
    omega
  · next hdown =>
    have hr : 2 * (num % den) ≤ den := by
      simp only [Bool.or_eq_true, Bool.and_eq_true, decide_eq_true_eq, beq_iff_eq] at hdown
      omega
    omega

namespace Magnitude

/-- Zero. -/
def zero : Magnitude := ⟨0, 0⟩

/-- The number above all significands, `2 ^ 53`. -/
def significandBound : Nat := 0x20000000000000

/-- The least exponent of a binary64 number. -/
def leastExponent : Int := -1074

/-- The greatest exponent of a binary64 number. -/
def greatestExponent : Int := 971

/-- The exponent of the binary64 grid around the positive quotient `num / den`. -/
def gridExponent (num den : Nat) : Int :=
  let guess : Int := Nat.log2 num - Nat.log2 den - 53
  let quotient := (num <<< (-guess).toNat) / (den <<< guess.toNat)
  max (if quotient < significandBound then guess else guess + 1) leastExponent

/-- The binary64 magnitude nearest to the positive quotient `num / den`, if there is one
in range. -/
def nearest? (num den : Nat) : Option Magnitude :=
  if num = 0 then some zero
  else
    let e := gridExponent num den
    let m := roundHalfEven (num <<< (-e).toNat) (den <<< e.toNat)
    let (m, e) := if m = significandBound then (significandBound / 2, e + 1) else (m, e)
    if m = 0 then some zero
    else if greatestExponent < e then none
    else some ⟨m, e⟩

/-- The numerator of a magnitude as a quotient of two integers. -/
def num (x : Magnitude) : Nat :=
  x.significand <<< x.exponent.toNat

/-- The denominator of a magnitude as a quotient of two integers. -/
def den (x : Magnitude) : Nat :=
  1 <<< (-x.exponent).toNat

/-- The rounded product, if it is in range. -/
def mul? (x y : Magnitude) : Option Magnitude :=
  nearest? (x.num * y.num) (x.den * y.den)

/-- The rounded quotient. -/
def div (x y : Magnitude) : Magnitude :=
  (nearest? (x.num * y.den) (x.den * y.num)).getD zero

/-- The power of ten nearest to `10 ^ n`, for `n` up to 308. -/
def powerOfTen (n : Nat) : Magnitude :=
  (nearest? (Nat.pow 10 n) 1).getD zero

/-- Division by `10 ^ n` in rounded steps of at most 308 places.  After four steps
nothing is left of a number below `2 ^ 64`. -/
def divPowerOfTen : Nat → Magnitude → Nat → Magnitude
  | 0, _, _ => zero
  | steps + 1, x, n =>
    if n ≤ 308 then x.div (powerOfTen n)
    else divPowerOfTen steps (x.div (powerOfTen 308)) (n - 308)

/-- The magnitude of `significand · 10 ^ exponent`: the significand is rounded, and the
result of one multiplication or division by a rounded power of ten is rounded again.
It is out of range when the product is. -/
def ofDecimal? (significand : Nat) (exponent : Int) : Option Magnitude := do
  let x ← nearest? significand 1
  if significand = 0 then return zero
  else if exponent < 0 then return divPowerOfTen 4 x (-exponent).toNat
  else if exponent ≤ 308 then x.mul? (powerOfTen exponent.toNat)
  else none

end Magnitude

end CanonicalIdl.Json
