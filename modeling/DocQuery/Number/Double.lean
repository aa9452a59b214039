set_option autoImplicit false

/-! # Finite binary floating-point numbers with 53 significant bits

A `Double` is held exactly, as a sign and a significand times a power of two, so every statement
about its value is a statement about integers. Reading a decimal rounds to the nearest such number,
and a value halfway between two goes to the one with the even significand. -/

-- A power of whole numbers is to be the one of the core library whatever else is imported. For a
-- literal exponent the default below sees to that; any other power is written with `Nat.pow`.
attribute [default_instance 10001] instPowNat

namespace DocQuery

/-- The number `significand * 2 ^ exponent`, or its negation. Each value has one representation:
    a significand below `2 ^ 52` occurs only with the least exponent. Zero has a sign. -/
structure Double where
  negative : Bool
  significand : Nat
  exponent : Int
  significand_lt : significand < 2 ^ 53
  exponent_range : -1074 ≤ exponent ∧ exponent ≤ 971
  normalized : significand < 2 ^ 52 → exponent = -1074
deriving DecidableEq

/-- The integer nearest to `num / den`; halfway between two, the even one. -/
def roundHalfEven (num den : Nat) : Nat :=
  let floor := num / den
  let rest := num % den
  if 2 * rest < den then floor
  else if den < 2 * rest then floor + 1
  else if floor % 2 = 0 then floor
  else floor + 1

namespace Double

/-- Zero with the given sign. -/
def zero (negative : Bool) : Double :=
  ⟨negative, 0, -1074, by decide, by decide, fun _ => rfl⟩

/-- The number with these parts, if they are its representation. -/
def ofParts? (negative : Bool) (significand : Nat) (exponent : Int) : Option Double :=
  if h : significand < 2 ^ 53 ∧ (-1074 ≤ exponent ∧ exponent ≤ 971) ∧
      (significand < 2 ^ 52 → exponent = -1074) then
    some ⟨negative, significand, exponent, h.1, h.2.1, h.2.2⟩
  else none

/-- The value in units of `2 ^ (-1074)`, of which every double is a whole number. -/
def scaled (d : Double) : Int :=
  let magnitude : Int := d.significand * Nat.pow 2 (d.exponent + 1074).toNat
  if d.negative then -magnitude else magnitude

/-! ## Rounding a quotient -/

/-- The largest `e` with `2 ^ e ≤ num / den`, for positive `num` and `den`. -/
def floorLog2 (num den : Nat) : Int :=
  let e : Int := (num.log2 : Int) - den.log2
  if den * Nat.pow 2 e.toNat ≤ num * Nat.pow 2 (-e).toNat then e else e - 1

/-- The double nearest to `num / den`, for positive `num` and `den`; `none` when that is beyond
    the largest one. -/
def ofQuotient? (negative : Bool) (num den : Nat) : Option Double :=
  let exponent := max (-1074) (floorLog2 num den - 52)
  let significand :=
    roundHalfEven (num * Nat.pow 2 (-exponent).toNat) (den * Nat.pow 2 exponent.toNat)
  if significand = 2 ^ 53 then ofParts? negative (2 ^ 52) (exponent + 1)
  else ofParts? negative significand exponent

/-- The double nearest to `digits * 10 ^ exponent`. What lies above `10 ^ 310` is too large and what
    lies below `10 ^ (-330)` rounds to zero, so no larger power is ever computed. -/
def ofDecimal? (negative : Bool) (digits : Nat) (exponent : Int) : Option Double :=
  let position : Int := (Nat.toDigits 10 digits).length + exponent
  if digits = 0 ∨ position < -330 then some (zero negative)
  else if 310 < position then none
  else ofQuotient? negative (digits * Nat.pow 10 exponent.toNat) (Nat.pow 10 (-exponent).toNat)

end Double

/-- The whole number that the double nearest to `n` holds. -/
def nearestDoubleNat (n : Nat) : Nat :=
  if n < 2 ^ 53 then n
  else
    let unit := Nat.pow 2 (n.log2 - 52)
    roundHalfEven n unit * unit

end DocQuery
