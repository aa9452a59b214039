import DocQuery.Number.Double

set_option autoImplicit false

/-! # Numbers in documents

A number is a whole number of at most 64 bits, signed or unsigned, or a double. Two numbers that
both fit 64 signed bits are compared as whole numbers; in every other pair each side is first
rounded to a double. -/

namespace DocQuery

/-- A number of a document. -/
inductive Number where
  | integer (value : Int) (inRange : -2 ^ 63 ≤ value ∧ value < 2 ^ 64)
  | double (value : Double)
deriving DecidableEq

namespace Number

/-- The whole number `i`, if it has 64 bits. -/
def ofInt? (i : Int) : Option Number :=
  if h : -2 ^ 63 ≤ i ∧ i < 2 ^ 64 then some (.integer i h) else none

/-- The whole number held by an unsigned word. -/
def ofWord (n : UInt64) : Number :=
  .integer n.toNat (by have := n.toNat_lt; omega)

/-- The whole number that `n` is held as, if it fits 64 signed bits. -/
def signed? : Number → Option Int
  | .integer i _ => if i < 2 ^ 63 then some i else none
  | .double _ => none

/-- The value of `n` after rounding to a double, in units of `2 ^ (-1074)`. -/
def scaled : Number → Int
  | .integer i _ =>
    let magnitude : Int := nearestDoubleNat i.natAbs * 2 ^ 1074
    if i < 0 then -magnitude else magnitude
  | .double d => d.scaled

/-- The order of two numbers. -/
def compare (a b : Number) : Ordering :=
  match a.signed?, b.signed? with
  | some i, some j => Ord.compare i j
  | _, _ => Ord.compare a.scaled b.scaled

/-- The numbers are equal: `1` and `1.0` are. -/
def equals (a b : Number) : Bool :=
  match a.signed?, b.signed? with
  | some i, some j => i == j
  | _, _ => a.scaled == b.scaled

/-- The number is `1`, in either form. -/
def isOne (n : Number) : Bool :=
  n.scaled == 2 ^ 1074

end Number

end DocQuery
