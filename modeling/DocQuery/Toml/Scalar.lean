import DocQuery.Number.Text
import DocQuery.Text.Hex
import DocQuery.Toml.Basic

set_option autoImplicit false

/-! # Numbers, dates and truth values of a settings file

These values are runs of letters, digits and a few marks. A run is taken as a whole and then tried
as each kind of value: the kinds have no text in common. -/

namespace DocQuery.Toml

/-! ## Digits -/

/-- Drop the underscores of a run of digits, each of which must stand between two digits. -/
def dropUnderscores? (isDigit : Char → Bool) : List Char → Option (List Char)
  | [] => none
  | [c] => if isDigit c then some [c] else none
  | c :: '_' :: rest => if isDigit c then (dropUnderscores? isDigit rest).map (c :: ·) else none
  | c :: rest => if isDigit c then (dropUnderscores? isDigit rest).map (c :: ·) else none

/-- Drop the sign in front; tells whether it was a minus. -/
def dropSign : List Char → Bool × List Char
  | '-' :: rest => (true, rest)
  | '+' :: rest => (false, rest)
  | chars => (false, chars)

/-- The digits of the whole part of a decimal number: no zero in front of other digits. -/
def decimalDigits? (chars : List Char) : Option (List Char) := do
  let digits ← dropUnderscores? Char.isDigit chars
  if digits.head? = some '0' ∧ digits.length ≠ 1 then none else some digits

/-! ## Integers -/

/-- The number that digits of a base spell. -/
def natOfBase (base : Nat) (digits : List Char) : Nat :=
  digits.foldl (fun n c => base * n + (hexDigit? c).getD 0) 0

/-- The character is a digit of the base. -/
def isBaseDigit (base : Nat) (c : Char) : Bool :=
  match hexDigit? c with
  | some d => d < base
  | none => false

/-- An integer that fits 64 signed bits. -/
def integer? (i : Int) : Option Value :=
  if -2 ^ 63 ≤ i ∧ i < 2 ^ 63 then some (.integer i) else none

/-- An integer of another base than ten, after its mark. -/
def basedInteger? (base : Nat) (chars : List Char) : Option Value :=
  (dropUnderscores? (isBaseDigit base) chars).bind (fun digits => integer? (natOfBase base digits))

/-- An integer. -/
def integerOfChars? : List Char → Option Value
  | '0' :: 'x' :: rest => basedInteger? 16 rest
  | '0' :: 'o' :: rest => basedInteger? 8 rest
  | '0' :: 'b' :: rest => basedInteger? 2 rest
  | chars => do
    let (negative, rest) := dropSign chars
    let n : Int := natOfBase 10 (← decimalDigits? rest)
    integer? (if negative then -n else n)

/-! ## Floats -/

/-- The exponent after its mark. -/
def floatExponent? (chars : List Char) : Option Int := do
  let (negative, rest) := dropSign chars
  let n : Int := natOfBase 10 (← dropUnderscores? Char.isDigit rest)
  return if negative then -n else n

/-- Check a float that is a number: a fraction or an exponent follows the whole part. One above the
    largest double is refused. -/
def finiteFloat? (chars : List Char) : Option Value := do
  let (negative, rest) := dropSign chars
  let isMark (c : Char) : Bool := c = 'e' ∨ c = 'E'
  let mantissa := rest.takeWhile (fun c => !isMark c)
  let exponentPart := rest.dropWhile (fun c => !isMark c)
  let whole ← decimalDigits? (mantissa.takeWhile (· ≠ '.'))
  let fraction ← match mantissa.dropWhile (· ≠ '.') with
    | [] => if exponentPart.isEmpty then none else some []
    | _ :: digits => dropUnderscores? Char.isDigit digits
  let exponent ← match exponentPart with
    | [] => some 0
    | _ :: digits => floatExponent? digits
  let value? := Double.ofDecimal? negative (natOfBase 10 (whole ++ fraction))
    (exponent - fraction.length)
  if value?.isNone ∧ ¬ negative then none else some .float

/-- A float. -/
def floatOfChars? (chars : List Char) : Option Value :=
  let unsigned := (dropSign chars).2
  if unsigned = ['i', 'n', 'f'] ∨ unsigned = ['n', 'a', 'n'] then some .float
  else finiteFloat? chars

/-! ## Dates -/

/-- A number of two digits between the bounds. -/
def twoDigits? (low high : Nat) (a b : Char) : Option Nat :=
  if a.isDigit ∧ b.isDigit ∧ low ≤ natOfDigits [a, b] ∧ natOfDigits [a, b] ≤ high then
    some (natOfDigits [a, b])
  else none

/-- The number of days of a month. -/
def daysInMonth (year month : Nat) : Nat :=
  if month = 2 then
    if year % 4 = 0 ∧ (year % 100 ≠ 0 ∨ year % 400 = 0) then 29 else 28
  else if month = 4 ∨ month = 6 ∨ month = 9 ∨ month = 11 then 30
  else 31

/-- What follows a date in front of a run. -/
def dropDate? : List Char → Option (List Char)
  | y₁ :: y₂ :: y₃ :: y₄ :: '-' :: m₁ :: m₂ :: '-' :: d₁ :: d₂ :: rest =>
    if [y₁, y₂, y₃, y₄].all Char.isDigit then do
      let month ← twoDigits? 1 12 m₁ m₂
      let _ ← twoDigits? 1 (daysInMonth (natOfDigits [y₁, y₂, y₃, y₄]) month) d₁ d₂
      return rest
    else none
  | _ => none

/-- What follows a time in front of a run. Fractions of a second may have any number of digits. -/
def dropTime? : List Char → Option (List Char)
  | h₁ :: h₂ :: ':' :: m₁ :: m₂ :: ':' :: s₁ :: s₂ :: rest => do
    let _ ← twoDigits? 0 23 h₁ h₂
    let _ ← twoDigits? 0 59 m₁ m₂
    let _ ← twoDigits? 0 60 s₁ s₂
    match rest with
    | '.' :: digits =>
      if (digits.takeWhile Char.isDigit).isEmpty then none else some (digits.dropWhile Char.isDigit)
    | _ => some rest
  | _ => none

/-- The run is empty or an offset from universal time. -/
def isOffset : List Char → Bool
  | [] => true
  | [z] => z = 'Z' ∨ z = 'z'
  | [sign, h₁, h₂, ':', m₁, m₂] =>
    (sign = '+' ∨ sign = '-') && (twoDigits? 0 23 h₁ h₂).isSome &&
      (twoDigits? 0 59 m₁ m₂).isSome
  | _ => false

/-- A date, a time, or both with an optional offset. -/
def dateOfChars? (chars : List Char) : Option Value :=
  match dropDate? chars with
  | some [] => some .date
  | some (mark :: rest) =>
    if mark = 'T' ∨ mark = 't' ∨ mark = ' ' then
      match dropTime? rest with
      | some offset => if isOffset offset then some .date else none
      | none => none
    else none
  | none => if dropTime? chars = some [] then some .date else none

/-! ## Runs -/

/-- Characters of which these values are made. -/
def isRunChar (c : Char) : Bool :=
  c.isAlphanum || ['+', '-', '.', '_', ':'].contains c

/-- The value that a run spells. -/
def scalarOfRun? (run : List Char) : Option Value :=
  if run = ['t', 'r', 'u', 'e'] then some (.boolean true)
  else if run = ['f', 'a', 'l', 's', 'e'] then some (.boolean false)
  else ((dateOfChars? run).or (floatOfChars? run)).or (integerOfChars? run)

/-- What follows a date may be a time after a single space. -/
def startsTime : List Char → Bool
  | ' ' :: a :: b :: ':' :: _ => a.isDigit && b.isDigit
  | _ => false

/-- Read a number, a date or a truth value. Returns it and what follows. -/
def readScalar (chars : List Char) : Option (Value × List Char) :=
  let run := chars.takeWhile isRunChar
  let rest := chars.dropWhile isRunChar
  if dropDate? run = some [] ∧ startsTime rest then
    (scalarOfRun? (run ++ ' ' :: (rest.drop 1).takeWhile isRunChar)).map
      (·, (rest.drop 1).dropWhile isRunChar)
  else (scalarOfRun? run).map (·, rest)

end DocQuery.Toml
