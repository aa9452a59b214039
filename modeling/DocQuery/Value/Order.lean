import DocQuery.Value.Basic

set_option autoImplicit false

/-! # Equality and order of values

`Value.equals` compares numbers by value and objects without regard to the order of their fields.
`Value.compare?` is partial: values of different kinds and objects are incomparable, and so are
arrays whose first unequal pair is. `Value.sortOrder` makes a total comparison of it: kinds are
ordered by rank and incomparable values of one kind count as equal. -/

namespace DocQuery

namespace Value

mutual

/-- The values are equal, numbers by value and objects field by field. -/
def equals : Value → Value → Bool
  | .null, .null => true
  | .bool a, .bool b => a == b
  | .number a, .number b => a.equals b
  | .string a, .string b => a == b
  | .array xs, .array ys => equalItems xs ys
  | .object xs, .object ys => xs.length == ys.length && equalFields xs ys
  | _, _ => false

/-- The lists are equally long and equal item by item. -/
def equalItems : List Value → List Value → Bool
  | [], [] => true
  | x :: xs, y :: ys => x.equals y && equalItems xs ys
  | _, _ => false

/-- Every field of the first list has an equal one, of the same name, in the second. -/
def equalFields : List (String × Value) → List (String × Value) → Bool
  | [], _ => true
  | (name, v) :: rest, ys =>
    (match ys.lookup name with
      | some w => v.equals w
      | none => false) && equalFields rest ys

end

mutual

/-- The order of two comparable values. Arrays compare at their first unequal pair, else by
    length. -/
def compare? : Value → Value → Option Ordering
  | .null, .null => some .eq
  | .bool a, .bool b => some (Ord.compare a b)
  | .number a, .number b => some (a.compare b)
  | .string a, .string b => some (Ord.compare a b)
  | .array xs, .array ys => compareItems? xs ys
  | _, _ => none

/-- The order of two lists of values, where it is defined. -/
def compareItems? : List Value → List Value → Option Ordering
  | [], [] => some .eq
  | [], _ :: _ => some .lt
  | _ :: _, [] => some .gt
  | x :: xs, y :: ys =>
    match x.compare? y with
    | some .eq => compareItems? xs ys
    | unequal => unequal

end

/-- The comparison by which rows are sorted. -/
def sortOrder (a b : Value) : Ordering :=
  match Ord.compare a.kind.rank b.kind.rank with
  | .eq => (a.compare? b).getD .eq
  | unequal => unequal

end Value

end DocQuery
