import DocQuery.Error
import DocQuery.Text.Blank

set_option autoImplicit false

/-! # Reading the number of documents to skip, and the limit

A count is a whole number of 64 bits without sign. It may be written as a number of either form, or
as a text of digits with an optional plus and blanks around. A double of `2 ^ 64`, one more than the
largest count, is read as the largest. -/

namespace DocQuery.Count

/-- The largest count. -/
def largest : Nat := 2 ^ 64 - 1

/-- The count that a whole number is, if it is in range. -/
def ofNat? (n : Nat) : Option UInt64 :=
  if n ≤ largest then some (UInt64.ofNat n) else none

/-- The count that a double holds. It must be a whole number from zero to `2 ^ 64`. -/
def ofDouble? (d : Double) : Option UInt64 :=
  let unit : Int := 2 ^ 1074
  if 0 ≤ d.scaled ∧ d.scaled % unit = 0 ∧ d.scaled ≤ 2 ^ 64 * unit then
    some (UInt64.ofNat (min (d.scaled / unit).toNat largest))
  else none

/-- The count that a number holds. -/
def ofNumber? : Number → Option UInt64
  | .integer i _ => if 0 ≤ i then ofNat? i.toNat else none
  | .double d => ofDouble? d

/-- The digits of a count text: an optional plus in front is dropped. -/
def unsignedDigits : List Char → List Char
  | '+' :: rest => rest
  | chars => chars

/-- The count that a text spells. -/
def ofText? (text : String) : Option UInt64 :=
  (natOfDigits? (unsignedDigits (trimBlank text.toList))).bind ofNat?

/-- Read the count under `key`; `null` is none. -/
def ofValue (key : String) (value : Value) : Except QueryError (Option UInt64) :=
  let count? := match value with
    | .number n => ofNumber? n
    | .string s => ofText? s
    | _ => none
  match value, count? with
  | .null, _ => .ok none
  | _, some n => .ok (some n)
  | _, none => .error (.invalidPagination key value)

end DocQuery.Count
