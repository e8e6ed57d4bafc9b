/-!
# Ranges of character codes

A property of characters is stored as a list of arithmetic runs of codes.  Most
runs have step one; alternating capital and small letters give runs of step two.
-/

namespace CanonicalIdl.Text

/-- The codes `first, first + step, …` that do not exceed `last`. -/
structure CodeRange where
  first : Nat
  last : Nat
  step : Nat
  deriving Repr, DecidableEq

/-- Membership of one code in a run. -/
def CodeRange.contains (range : CodeRange) (code : Nat) : Bool :=
  range.first ≤ code && code ≤ range.last && (code - range.first) % range.step == 0

/-- Membership of one code in some run of a table. -/
def inRanges (table : List CodeRange) (code : Nat) : Bool :=
  table.any (·.contains code)

/-- A run of codes together with the code that its first member is sent to; the
others are sent to the codes at the same distance. -/
structure CodeShift where
  range : CodeRange
  target : Nat
  deriving Repr, DecidableEq

/-- The code that a table of shifts sends a code to. -/
def shifted? : List CodeShift → Nat → Option Nat
  | [], _ => none
  | shift :: rest, code =>
    if shift.range.contains code then some (shift.target + (code - shift.range.first))
    else shifted? rest code

end CanonicalIdl.Text
