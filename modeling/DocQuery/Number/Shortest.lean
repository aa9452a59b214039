import DocQuery.Number.Double

set_option autoImplicit false

/-! # The shortest decimal that reads back

`Double.shortest d` is a decimal `c * 10 ^ k` with as few digits as any decimal that rounds to `d`,
and the nearest to `d` among those. The search looks at the two neighbours of `d` on the grid of
1, 2, … 17 significant digits; a grid that has a point in the rounding interval has one of the two
neighbours in it. Whatever is returned lies in the interval, so different magnitudes get different
decimals. -/

namespace DocQuery.Double

/-- The magnitude as a quotient of two whole numbers. -/
def quotient (d : Double) : Nat × Nat :=
  (d.significand * Nat.pow 2 d.exponent.toNat, Nat.pow 2 (-d.exponent).toNat)

/-- Half the gap to the next smaller magnitude, in quarters of a unit in the last place: a power of
    two stands twice as close to its lower neighbour. -/
def lowerGap (d : Double) : Nat :=
  if d.significand = 2 ^ 52 ∧ -1074 < d.exponent then 1 else 2

/-- `c * 10 ^ k` rounds to the magnitude of `d`. The ends of the interval, where the decimal is
    halfway between two doubles, belong to the one with the even significand. -/
def admits (d : Double) (c : Nat) (k : Int) : Bool :=
  let point := c * Nat.pow 10 k.toNat * Nat.pow 2 (2 - d.exponent).toNat
  let unit := Nat.pow 10 (-k).toNat * Nat.pow 2 (d.exponent - 2).toNat
  let low := (4 * d.significand - d.lowerGap) * unit
  let high := (4 * d.significand + 2) * unit
  if d.significand % 2 = 0 then low ≤ point ∧ point ≤ high
  else low < point ∧ point < high

/-- The exponent of the first significant decimal digit of a positive magnitude. -/
def decimalExponent (d : Double) : Int :=
  let (num, den) := d.quotient
  let shift := (-d.exponent).toNat
  (Nat.toDigits 10 (num * Nat.pow 10 shift / den)).length - 1 - shift

/-- The neighbours of `d` on the grid of `n` significant digits that round to `d`: the nearer of
    the two if both do, and of two equally near the even one. -/
def onGrid? (d : Double) (n : Nat) : Option (Nat × Int) :=
  let k := d.decimalExponent - n + 1
  let (num, den) := d.quotient
  let num := num * Nat.pow 10 (-k).toNat
  let den := den * Nat.pow 10 k.toNat
  let below := num / den
  let nearest := roundHalfEven num den
  let other := if nearest = below then below + 1 else below
  if d.admits nearest k then some (nearest, k)
  else if d.admits other k then some (other, k)
  else none

/-- The magnitude itself, written out. -/
def exactDecimal (d : Double) : Nat × Int :=
  if d.exponent < 0 then (d.significand * Nat.pow 5 (-d.exponent).toNat, d.exponent)
  else (d.significand * Nat.pow 2 d.exponent.toNat, 0)

/-- The decimal `c * 10 ^ k` to write for a nonzero `d`. -/
def shortest (d : Double) : Nat × Int :=
  ((List.range 17).findSome? (fun n => d.onGrid? (n + 1))).getD d.exactDecimal

end DocQuery.Double
