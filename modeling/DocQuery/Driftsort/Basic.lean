import DocQuery.Driftsort.Runs

set_option autoImplicit false

/-! # Driftsort

The stable sort of lists: insertion for a few items, and runs that are merged for more. Runs that
are not in order are sorted by a stable quicksort. For a comparison that orders the items the result
does not depend on any of this. For one that does not, the order of the result does, and beyond
twenty items there may be no result. -/

namespace DocQuery.Driftsort

variable {α : Type} (cmp : α → α → Ordering)

/-! ## Quicksort -/

/-- The median of three items. -/
def medianOfThree (a b c : α) : α :=
  let x := isLess cmp a b
  if x = isLess cmp a c then
    if isLess cmp b c = x then b else c
  else a

/-- An item near the median of the first `count` items: the median of three, which are taken in the
    same way from parts of an eighth. -/
def sample (first : α) (count : Nat) (items : List α) : α :=
  if count < 8 then items.headD first
  else
    let eighth := count / 8
    medianOfThree cmp (sample first eighth items) (sample first eighth (items.drop (4 * eighth)))
      (sample first eighth (items.drop (7 * eighth)))
termination_by count

/-- Quicksort. No item is below `ancestor`, an earlier pivot. A pivot that is not above it, or that
    no item is below, is a least item, and so are the ones that are not above the pivot. After
    `limit` pivots the list is sorted by its runs. -/
def quicksort : Nat → Option α → List α → Option (List α)
  | _, _, [] => some []
  | limit, ancestor, first :: rest =>
    let items := first :: rest
    if items.length ≤ smallLimit then smallSort cmp items
    else
      match limit with
      | 0 => sortByRuns cmp 0 (smallSort cmp) true items
      | limit + 1 =>
        let pivot := sample cmp first items.length items
        let below := items.filter (isLess cmp · pivot)
        if ancestor.all (isLess cmp · pivot) && !below.isEmpty then do
          let right ← quicksort limit (some pivot) (items.filter (!isLess cmp · pivot))
          let left ← quicksort limit ancestor below
          return left ++ right
        else do
          let right ← quicksort limit none (items.filter (isLess cmp pivot ·))
          return items.filter (!isLess cmp pivot ·) ++ right

/-- Quicksort with as many pivots as a list of this length may take. -/
def sortUnordered (items : List α) : Option (List α) :=
  quicksort cmp (2 * items.length.log2) none items

/-! ## Sorting -/

/-- How many of `total` items fit into the space for merging: all of them in up to eight megabytes
    of 72 bytes each, but at least half. -/
def spaceFor (total : Nat) : Nat :=
  max (total - total / 2) (max (min total 111111) 48)

/-- Sort a list. There may be no result if it has more than twenty items and the comparison is not
    transitive on them. -/
def sort (items : List α) : Option (List α) :=
  if items.length ≤ 20 then some (insertAll cmp [] items)
  else if items.length ≤ 2 * smallLimit then
    sortByRuns cmp (spaceFor items.length) (smallSort cmp) true items
  else sortByRuns cmp (spaceFor items.length) (sortUnordered cmp) false items

end DocQuery.Driftsort
