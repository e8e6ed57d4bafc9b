import CanonicalIdl.Json.Double
import CanonicalIdl.Text.Numeral

/-!
# Shortest decimal form of a binary number

Every finite binary64 number is written with the fewest significant digits that read
back as it; of several such forms the nearest is taken, and of two equally near ones
that with an even last digit.

The numbers that round to `m · 2 ^ q` form an interval around it, whose ends belong to
it when `m` is even.  If a point of a decimal grid lies in the interval, so does one of
the value's two neighbours on that grid; so the first of the grids of 1, 2, … digits
with a neighbour inside gives the digits.
-/

namespace CanonicalIdl.Json

/-- The number `digits · 10 ^ exponent`. -/
structure Scientific where
  digits : Nat
  exponent : Int
  deriving Repr, DecidableEq

namespace Magnitude

/-- The place of the leading decimal digit: `10 ^ p ≤ x < 10 ^ (p + 1)`. -/
def leadingPlace (x : Magnitude) : Int :=
  (Text.decimal (x.num * Nat.pow 10 330 / x.den)).length - 331

/-- Four times the significand, less the distance to the lower end of the interval. -/
def lowerEnd (x : Magnitude) : Nat :=
  if x.significand = significandBound / 2 ∧ leastExponent < x.exponent then 4 * x.significand - 1
  else 4 * x.significand - 2

/-- Four times the significand and the distance to the upper end of the interval. -/
def upperEnd (x : Magnitude) : Nat :=
  4 * x.significand + 2

/-- Some decimal of the grid `10 ^ place` that rounds to the magnitude, the nearest one. -/
def onGrid? (x : Magnitude) (place : Int) : Option Nat :=
  let quarter := x.exponent - 2
  let left := Nat.pow 10 place.toNat <<< (-quarter).toNat
  let right := Nat.pow 10 (-place).toNat <<< quarter.toNat
  let value := 4 * x.significand * right
  let below := value / left
  let above := below + 1
  let even := x.significand % 2 == 0
  let inside (n : Nat) : Bool :=
    let p := n * left
    let lo := x.lowerEnd * right
    let hi := x.upperEnd * right
    if even then lo ≤ p && p ≤ hi else lo < p && p < hi
  let toBelow := value - below * left
  let toAbove := above * left - value
  let preferBelow := toBelow < toAbove || (toBelow == toAbove && below % 2 == 0)
  match 0 < below && inside below, inside above with
  | true, true => some (if preferBelow then below else above)
  | true, false => some below
  | false, true => some above
  | false, false => none

/-- The first grid of at least `count` digits with a hit; `more` further grids are tried. -/
def firstGrid (x : Magnitude) (lead : Int) : Nat → Nat → Scientific
  | 0, count => ⟨(x.onGrid? (lead - count + 1)).getD 0, lead - count + 1⟩
  | more + 1, count =>
    match x.onGrid? (lead - count + 1) with
    | some n => ⟨n, lead - count + 1⟩
    | none => firstGrid x lead more (count + 1)

/-- The shortest decimal form of a positive magnitude. -/
def shortest (x : Magnitude) : Scientific :=
  x.firstGrid x.leadingPlace 16 1

end Magnitude

/-- The text without the zeros it ends with. -/
def withoutTrailingZeros (text : List Char) : List Char :=
  (text.reverse.dropWhile (· == '0')).reverse

/-- Which decimal exponents are written with a plain decimal point. -/
structure DoubleFormat where
  leastPlain : Int
  greatestPlain : Int

/-- Exponents from -5 to 15 are written plainly, the others after an `e` with a sign. -/
def doubleFormat : DoubleFormat := ⟨-5, 15⟩

/-- Digits with a decimal point before the place `lead + 1` from the left. -/
def plainText (digits : List Char) (lead : Int) : List Char :=
  if lead < 0 then
    ['0', '.'] ++ List.replicate (-lead - 1).toNat '0' ++ digits
  else
    let whole := lead.toNat + 1
    let front := digits.take whole
    let back := digits.drop whole
    front ++ List.replicate (whole - front.length) '0' ++ ['.'] ++
      (if back.isEmpty then ['0'] else back)

/-- Digits with a decimal point after the first, and the exponent. -/
def exponentText (digits : List Char) (lead : Int) : List Char :=
  let mantissa :=
    match digits with
    | [] => []
    | [d] => [d]
    | d :: rest => d :: '.' :: rest
  mantissa ++ ['e', if lead < 0 then '-' else '+'] ++ Text.decimal lead.natAbs

/-- The text of a magnitude, always with a fraction or an exponent. -/
def magnitudeText (x : Magnitude) : List Char :=
  if x.significand = 0 then ['0', '.', '0']
  else
    let form := x.shortest
    let written := Text.decimal form.digits
    let lead := form.exponent + written.length - 1
    let digits := withoutTrailingZeros written
    if doubleFormat.leastPlain ≤ lead ∧ lead ≤ doubleFormat.greatestPlain then
      plainText digits lead
    else exponentText digits lead

/-- The text of a number. -/
def Double.text (x : Double) : List Char :=
  (if x.negative then ['-'] else []) ++ magnitudeText x.magnitude

end CanonicalIdl.Json
