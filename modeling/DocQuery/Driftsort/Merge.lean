set_option autoImplicit false

/-! # Merging lists that are in order

Two lists in order become one from the front, from the back, or from both ends at once. Of items
that tie those of the left list come first. Only the third way asks whether the comparison is
consistent: its two ends may pass each other, and then there is no result. Inserting an item is
merging it from the back. -/

namespace DocQuery.Driftsort

variable {α : Type} (cmp : α → α → Ordering)

/-- The first item has to stand before the second. -/
def isLess (a b : α) : Bool :=
  cmp a b == .lt

/-- Merge from the front. -/
def mergeFront (left right : List α) : List α :=
  left.merge right (fun a b => !isLess cmp b a)

/-- Merge from the back. -/
def mergeBack (left right : List α) : List α :=
  (right.reverse.merge left.reverse (fun b a => !isLess cmp b a)).reverse

/-- Merge from the end where the shorter list is used up first. -/
def mergeRuns (left right : List α) : List α :=
  if left.length ≤ right.length then mergeFront cmp left right else mergeBack cmp left right

/-- Put further items, one after the other, at their places among items in order. -/
def insertAll (sorted : List α) : List α → List α
  | [] => sorted
  | item :: rest => insertAll (mergeBack cmp sorted [item]) rest

/-- Two lists while they are merged: the items that were taken, and what is left of both. -/
structure Merging (α : Type) where
  taken : List α
  left : List α
  right : List α

/-- Take the `count` items that come first. -/
def takeLeast : Nat → List α → List α → Merging α
  | count + 1, x :: left, y :: right =>
    if isLess cmp y x then
      let later := takeLeast count (x :: left) right
      { later with taken := y :: later.taken }
    else
      let later := takeLeast count left (y :: right)
      { later with taken := x :: later.taken }
  | _, left, right => ⟨[], left, right⟩

/-- Merge a list with one that is as long, or longer by one: as many items as `left` has from the
    front and as many from the back. What is between the ends is one item at most. -/
def mergeFromEnds (left right : List α) : Option (List α) :=
  let front := takeLeast cmp left.length left right
  let back := takeLeast (fun a b => cmp b a) left.length right.reverse left.reverse
  let leftEnds := front.left.length + back.right.length
  let rightEnds := front.right.length + back.left.length
  if left.length ≤ leftEnds ∧ right.length ≤ rightEnds then
    let middle := front.left.take (leftEnds - left.length) ++
      front.right.take (rightEnds - right.length)
    some (front.taken ++ middle ++ back.taken.reverse)
  else none

end DocQuery.Driftsort
