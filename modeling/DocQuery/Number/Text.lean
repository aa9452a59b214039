import DocQuery.Number.Basic
import DocQuery.Number.Shortest

set_option autoImplicit false

/-! # The text of a number

Whole numbers are written in decimal. A double is written with the fewest digits that read back,
and always with a mark that tells it from a whole number: a fraction, or an exponent. -/

namespace DocQuery

/-! ## Writing -/

/-- Decimal exponents (that of the first significant digit) that are written in positional
    notation; others are written with an exponent and its sign. -/
def isPositional (exponent : Int) : Bool :=
  -5 ≤ exponent ∧ exponent ≤ 15

/-- `digits * 10 ^ exponent` without an exponent, with at least one digit on each side of the
    point. -/
def positionalText (digits : List Char) (exponent : Int) : List Char :=
  let whole := (digits.length + exponent).toNat
  if 0 ≤ exponent then digits ++ List.replicate exponent.toNat '0' ++ ['.', '0']
  else if 0 < whole then digits.take whole ++ '.' :: digits.drop whole
  else '0' :: '.' :: List.replicate (-exponent - digits.length).toNat '0' ++ digits

/-- One digit, the other digits after a point, and the exponent of the first digit. -/
def scientificText (digits : List Char) (exponent : Int) : List Char :=
  let first : Int := digits.length - 1 + exponent
  let mantissa := digits.take 1 ++ (if digits.length ≤ 1 then [] else '.' :: digits.drop 1)
  mantissa ++ 'e' :: (if first < 0 then '-' else '+') :: Nat.toDigits 10 first.natAbs

/-- Drop the final zeros of `digits`, moving them into the exponent. -/
def trimZeros (digits : List Char) (exponent : Int) : List Char × Int :=
  let kept := (digits.reverse.dropWhile (· = '0')).reverse
  (kept, exponent + (digits.length - kept.length : Nat))

/-- The text of a double's magnitude. -/
def Double.magnitudeText (d : Double) : List Char :=
  if d.significand = 0 then ['0', '.', '0']
  else
    let (c, k) := d.shortest
    let (digits, exponent) := trimZeros (Nat.toDigits 10 c) k
    if isPositional (digits.length - 1 + exponent) then positionalText digits exponent
    else scientificText digits exponent

/-- The text of a number. -/
def Number.text : Number → String
  | .integer i _ => String.ofList ((if i < 0 then ['-'] else []) ++ Nat.toDigits 10 i.natAbs)
  | .double d => String.ofList ((if d.negative then ['-'] else []) ++ d.magnitudeText)

/-! ## Reading -/

/-- The number that a run of decimal digits spells. -/
def natOfDigits (digits : List Char) : Nat :=
  digits.foldl (fun n c => 10 * n + (c.toNat - '0'.toNat)) 0

/-- The number that a text of digits spells, if it is one. -/
def natOfDigits? (digits : List Char) : Option Nat :=
  if digits ≠ [] ∧ digits.all Char.isDigit then some (natOfDigits digits) else none

/-- The exponent that follows the mark `e`: digits with an optional sign, and nothing else. -/
def exponentOfChars? : List Char → Option Int
  | '-' :: digits => (natOfDigits? digits).map (fun n => -(n : Int))
  | '+' :: digits => (natOfDigits? digits).map (fun n => (n : Int))
  | digits => (natOfDigits? digits).map (fun n => (n : Int))

/-- What may follow the whole part of a number: a fraction of at least one digit, then an exponent.
    `none` in a place is a part that is not there. -/
def fractionOfChars? (rest : List Char) : Option (Option (List Char) × Option Int) := do
  let (fraction, rest) ← match rest with
    | '.' :: rest =>
      let digits := rest.takeWhile Char.isDigit
      if digits = [] then none else some (some digits, rest.dropWhile Char.isDigit)
    | rest => some (none, rest)
  match rest with
  | [] => some (fraction, none)
  | mark :: rest =>
    if mark = 'e' ∨ mark = 'E' then do return (fraction, some (← exponentOfChars? rest))
    else none

namespace Number

/-- The number with these decimal parts. Without fraction and exponent it is a whole number where
    it has 64 bits; negative zero, and all else, is the nearest double, if there is one. -/
def ofParts? (negative : Bool) (whole : List Char) (fraction : Option (List Char))
    (exponent : Option Int) : Option Number :=
  let asDouble :=
    let digits := fraction.getD []
    (Double.ofDecimal? negative (natOfDigits (whole ++ digits))
      (exponent.getD 0 - digits.length)).map Number.double
  if fraction.isNone ∧ exponent.isNone then
    let n : Int := natOfDigits whole
    if negative ∧ n = 0 then asDouble
    else (ofInt? (if negative then -n else n)).or asDouble
  else asDouble

/-- Read a number: an optional minus, digits without a leading zero, and then optionally a fraction
    and an exponent. -/
def ofChars? (chars : List Char) : Option Number := do
  let (negative, chars) := match chars with
    | '-' :: rest => (true, rest)
    | rest => (false, rest)
  let whole := chars.takeWhile Char.isDigit
  if whole = [] ∨ (whole.head? = some '0' ∧ whole ≠ ['0']) then none
  else
    let (fraction, exponent) ← fractionOfChars? (chars.dropWhile Char.isDigit)
    ofParts? negative whole fraction exponent

end Number

end DocQuery
