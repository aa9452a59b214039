import DocQuery.Driftsort.Merge

set_option autoImplicit false

/-! # Sorting few items

Both halves are sorted by insertion, from eight items on after their first four items were sorted
by a fixed pattern, and then merged from both ends. -/

namespace DocQuery.Driftsort

variable {α : Type} (cmp : α → α → Ordering)

/-- Two items in order. -/
def sortTwo (a b : α) : α × α :=
  if isLess cmp b a then (b, a) else (a, b)

/-- Two pairs in order as one list: the least item, the greatest, and between them the two that are
    left. -/
def mergePairs (left right : α × α) : List α :=
  match isLess cmp right.1 left.1, isLess cmp right.2 left.2 with
  | false, false =>
    let middle := sortTwo cmp left.2 right.1
    [left.1, middle.1, middle.2, right.2]
  | false, true =>
    let middle := sortTwo cmp right.1 right.2
    [left.1, middle.1, middle.2, left.2]
  | true, false =>
    let middle := sortTwo cmp left.1 left.2
    [right.1, middle.1, middle.2, right.2]
  | true, true =>
    let middle := sortTwo cmp left.1 right.2
    [right.1, middle.1, middle.2, left.2]

/-- Four items in order. -/
def sortFour (a b c d : α) : List α :=
  mergePairs cmp (sortTwo cmp a b) (sortTwo cmp c d)

/-- Sort by insertion; with `byFour` the first four items are sorted by comparing pairs. -/
def sortHalf (byFour : Bool) : List α → List α
  | a :: b :: c :: d :: rest =>
    if byFour then insertAll cmp (sortFour cmp a b c d) rest
    else insertAll cmp [] (a :: b :: c :: d :: rest)
  | items => insertAll cmp [] items

/-- Up to this many items are sorted as few. -/
def smallLimit : Nat := 32

/-- Sort both halves and merge them from both ends. -/
def smallSort (items : List α) : Option (List α) :=
  let half := items.length / 2
  let byFour : Bool := 8 ≤ items.length
  mergeFromEnds cmp (sortHalf cmp byFour (items.take half)) (sortHalf cmp byFour (items.drop half))

end DocQuery.Driftsort
