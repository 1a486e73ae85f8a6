import Stencil.Decimal.Digits

/-!
# Lossy decimals — a double from a bounded significand and a power of ten

A decimal is read into a significand of one unsigned sixty-four bit word. Digits are
taken while the significand still fits; from the first digit that does not, the rest
only count. The double is the significand, rounded once, times or divided by one power
of ten, rounded once more. It need not be the double nearest to the decimal.
-/

namespace Stencil.Decimal

/-- Takes digits into a significand while it fits a word. Gives the significand and
    the number of digits taken. -/
def absorb (significand : Nat) : List Char → Nat × Nat
  | [] => (significand, 0)
  | c :: digits =>
    let next := 10 * significand + digitValue c
    if next < 0x10000000000000000 then
      let (final, taken) := absorb next digits
      (final, taken + 1)
    else (significand, 0)

/-- The greatest exponent whose power of ten is a finite double. -/
def greatestPower : Nat := 308

/-- A power of ten, rounded to a double. -/
def powerOfTen (n : Nat) : Float :=
  Float.ofScientific 1 false n

/-- Divides by a power of ten, in steps of the greatest one that is finite. -/
def divide (x : Float) (power : Nat) : Float :=
  if power ≤ greatestPower then x / powerOfTen power
  else if x == 0 then x
  else divide (x / powerOfTen greatestPower) (power - greatestPower)
termination_by power
decreasing_by simp only [greatestPower] at *; omega

/-- A magnitude times a power of ten; none if that exceeds the finite doubles. -/
def scale? (magnitude : Float) (exponent : Int) : Option Float :=
  if exponent < 0 then some (divide magnitude exponent.natAbs)
  else if exponent ≤ greatestPower then
    let scaled := magnitude * powerOfTen exponent.natAbs
    if scaled.isInf then none else some scaled
  else if magnitude == 0 then some magnitude
  else none

/-- The double that `± significand · 10^exponent` is read as; none out of range. -/
def lossy? (negative : Bool) (significand : Nat) (exponent : Int) : Option Float :=
  (scale? (Float.ofNat significand) exponent).map fun x => if negative then -x else x

end Stencil.Decimal
