import Stencil.Decimal.Digits

/-!
# Shortest digits — the briefest decimal that names a binary fraction

A finite double is `m · 2^q`. Every real number in the interval around it reads back
as the same double; the interval contains its ends exactly when `m` is even. The
shortest decimal is found grid by grid: for one digit, two digits and so on, the two
neighbours of the value on that grid are tried in exact arithmetic. The first grid
with a hit wins, of two hits the nearer one, and of two equally near ones the even one.
-/

namespace Stencil.Decimal

/-- The magnitude `mantissa · 2^exponent` of a finite double, with its sign. `narrow`
    marks a double whose lower neighbour is only half as far as its upper one. -/
structure Binary where
  negative : Bool
  mantissa : Nat
  exponent : Int
  narrow : Bool

/-- The magnitude `digits · 10^exponent`. -/
structure Scaled where
  digits : Nat
  exponent : Int
deriving Repr, DecidableEq

/-- The exact magnitude of a finite double, read off its sixty-four bits. -/
def Binary.ofFloat (x : Float) : Binary :=
  let bits : Nat := x.toBits.toNat
  let fraction : Nat := bits % 0x10000000000000
  let biased : Nat := (bits >>> 52) % 0x800
  { negative := bits >>> 63 = 1
    mantissa := if biased = 0 then fraction else fraction + 0x10000000000000
    exponent := if biased = 0 then -1074 else (biased : Int) - 1075
    narrow := fraction = 0 && biased > 1 }

/-- The interval around a magnitude on the grid of multiples of `10^k`. The value is
    `value / unit` grid steps, its bounds are `low / unit` and `high / unit`. -/
structure Grid where
  value : Nat
  low : Nat
  high : Nat
  unit : Nat
  closed : Bool

/-- Places a magnitude on the grid of multiples of `10^k`, quarters of the last binary
    place being whole numbers. -/
def Binary.onGrid (b : Binary) (k : Int) : Grid :=
  let quarter := b.exponent - 2
  let up := Nat.pow 2 quarter.toNat * Nat.pow 10 (-k).toNat
  let down := Nat.pow 2 (-quarter).toNat * Nat.pow 10 k.toNat
  let centre := 4 * b.mantissa
  { value := centre * up
    low := (centre - if b.narrow then 1 else 2) * up
    high := (centre + 2) * up
    unit := down
    closed := b.mantissa % 2 = 0 }

/-- The grid point `n` reads back as the value. -/
def Grid.holds (g : Grid) (n : Nat) : Bool :=
  if g.closed then g.low ≤ n * g.unit && n * g.unit ≤ g.high
  else g.low < n * g.unit && n * g.unit < g.high

/-- The grid point next to the value that reads back as it, if there is one. -/
def Grid.nearest? (g : Grid) : Option Nat :=
  let below := g.value / g.unit
  let above := below + 1
  match g.holds below, g.holds above with
  | false, false => none
  | true, false => some below
  | false, true => some above
  | true, true =>
    let gapBelow := g.value - below * g.unit
    let gapAbove := above * g.unit - g.value
    if gapBelow < gapAbove then some below
    else if gapAbove < gapBelow then some above
    else some (if below % 2 = 0 then below else above)

/-- The exponent of the leading decimal digit of a positive magnitude. Multiplied by
    `10^400` every positive double exceeds one, so counting digits there is exact. -/
def Binary.leadingExponent (b : Binary) : Int :=
  let g := b.onGrid (-400)
  (decimal (g.value / g.unit)).length - 401

/-- Drops the zeros at the end of a digit string. -/
def Scaled.trim (s : Scaled) : Scaled :=
  if _h : 0 < s.digits ∧ s.digits % 10 = 0 then
    Scaled.trim { digits := s.digits / 10, exponent := s.exponent + 1 }
  else s
termination_by s.digits
decreasing_by omega

/-- The shortest decimal that names a positive magnitude; seventeen digits always do. -/
def Binary.shortest (b : Binary) : Scaled :=
  let lead := b.leadingExponent
  let found := (List.range 17).findSome? fun (more : Nat) =>
    let k := lead - more
    (b.onGrid k).nearest?.map fun digits => (Scaled.mk digits k).trim
  found.getD { digits := 0, exponent := 0 }

end Stencil.Decimal
