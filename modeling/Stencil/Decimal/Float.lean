import Stencil.Decimal.Shortest

/-!
# Float text — how a double is spelled

A double is written with its shortest digits. Digits stand in positional form while
the leading one has an exponent in the plain range of the style, with at least one
digit after the point; outside it they stand in exponent form with a signed exponent.
-/

namespace Stencil.Decimal

/-- Which exponents of the leading digit are written in positional form. -/
structure FloatStyle where
  least : Int
  greatest : Int

/-- Documents spell out magnitudes from `0.00001` up to, but not including, `10^16`. -/
def documentStyle : FloatStyle :=
  { least := -5, greatest := 15 }

/-- Digits in positional form; `point` digits stand before the point. -/
def positional (digits : List Char) (point : Int) : List Char :=
  if point ≤ 0 then
    ['0', '.'] ++ List.replicate (-point).toNat '0' ++ digits
  else if digits.length ≤ point.toNat then
    digits ++ List.replicate (point.toNat - digits.length) '0' ++ ['.', '0']
  else
    digits.take point.toNat ++ '.' :: digits.drop point.toNat

/-- Digits in exponent form, `d.ddde±x`; a single digit has no point. -/
def exponential (digits : List Char) (exponent : Int) : List Char :=
  let mantissa := match digits with
    | [] => []
    | [d] => [d]
    | d :: more => d :: '.' :: more
  let sign := if exponent < 0 then '-' else '+'
  mantissa ++ 'e' :: sign :: decimal exponent.natAbs

/-- The text of a finite double. -/
def floatText (style : FloatStyle) (x : Float) : List Char :=
  let b := Binary.ofFloat x
  let magnitude :=
    if b.mantissa = 0 then ['0', '.', '0']
    else
      let s := b.shortest
      let digits := decimal s.digits
      let lead := s.exponent + digits.length - 1
      if style.least ≤ lead ∧ lead ≤ style.greatest then positional digits (lead + 1)
      else exponential digits lead
  if b.negative then '-' :: magnitude else magnitude

end Stencil.Decimal
