import DocQuery.Driftsort.SmallSort

set_option autoImplicit false

/-! # Sorting by runs

A list is cut into runs from front to back: parts that happen to be in order, and parts of a fixed
length that are sorted at once or left for later. Pending runs are joined in the order of a merge
tree in which the border between two runs has a depth. Neighbours that are both left for later and
fit into the space for merging are joined as they are, since sorting them together is cheaper. -/

namespace DocQuery.Driftsort

variable {α : Type} (cmp : α → α → Ordering)

/-- A part of a list, in order or left for later. -/
structure Run (α : Type) where
  items : List α
  sorted : Bool

/-! ## Finding runs -/

/-- The items at the front of a list that go on after `last`, downwards or not. -/
def continuing (descending : Bool) (last : α) : List α → List α
  | [] => []
  | item :: rest =>
    if isLess cmp item last = descending then item :: continuing descending item rest else []

/-- The longest beginning that is in order, or that is once it is turned around. -/
def naturalRun (first : α) (rest : List α) : List α :=
  let descending := rest.head?.any (isLess cmp · first)
  let run := first :: continuing cmp descending first rest
  if descending then run.reverse else run

/-- The first run of a list. A natural one has to have a length of `least`. -/
def firstRun (eager : Bool) (least : Nat) (first : α) (rest : List α) : Option (Run α) :=
  let natural := naturalRun cmp first rest
  if least ≤ natural.length then some ⟨natural, true⟩
  else if eager then (smallSort cmp ((first :: rest).take smallLimit)).map (⟨·, true⟩)
  else some ⟨(first :: rest).take least, false⟩

/-- The least length of a natural run in a list of `total` items: half of them, but not more than
    64, and about the square root of `total` in long lists. -/
def leastRun (total : Nat) : Nat :=
  if total ≤ 64 * 64 then min (total - total / 2) 64
  else
    let shift := (1 + total.log2) / 2
    (Nat.pow 2 shift + total / Nat.pow 2 shift) / 2

/-! ## Joining runs -/

section Joining

variable (space : Nat) (sorter : List α → Option (List α))

/-- The items of a run in order. -/
def Run.inOrder (run : Run α) : Option (List α) :=
  if run.sorted then some run.items else sorter run.items

/-- Two runs as one. -/
def Run.join (left right : Run α) : Option (Run α) :=
  if left.sorted || right.sorted || space < left.items.length + right.items.length then do
    let l ← left.inOrder sorter
    let r ← right.inOrder sorter
    return ⟨mergeRuns cmp l r, true⟩
  else some ⟨left.items ++ right.items, false⟩

/-- The depth in the merge tree of the border at `middle` between parts that reach from `start` to
    `stop`: the number of leading bits that their midpoints share. -/
def borderDepth (total start middle stop : Nat) : Nat :=
  let scale := (Nat.pow 2 62 + total - 1) / total
  let differing := (scale * (start + middle)) ^^^ (scale * (middle + stop))
  if differing = 0 then 64 else 63 - differing.log2

/-- Join the last run with the pending ones before it whose borders are as deep as `depth`. -/
def collapse (depth : Nat) (last : Run α) :
    List (Run α × Nat) → Option (Run α × List (Run α × Nat))
  | [] => some (last, [])
  | (run, border) :: below =>
    if depth ≤ border then do
      let joined ← run.join cmp space sorter last
      collapse depth joined below
    else some (last, (run, border) :: below)

/-- Go through the rest of a list of `total` items run by run, from `position` on. -/
def joinRuns (eager : Bool) (total position : Nat) (pending : List (Run α × Nat)) (last : Run α) :
    List α → Option (Run α)
  | [] => do
    let (whole, _) ← collapse cmp space sorter 0 last pending
    return whole
  | item :: rest => do
    let next ← firstRun cmp eager (leastRun total) item rest
    let stop := position + next.items.length
    let depth := borderDepth total (position - last.items.length) position stop
    let (joined, pending) ← collapse cmp space sorter depth last pending
    joinRuns eager total stop ((joined, depth) :: pending) next (rest.drop (next.items.length - 1))
termination_by items => items.length
decreasing_by simp only [List.length_drop, List.length_cons]; omega

/-- Sort a list by its runs; eagerly, every run is sorted when it is found. -/
def sortByRuns (eager : Bool) : List α → Option (List α)
  | [] => some []
  | item :: rest => do
    let total := rest.length + 1
    let run ← firstRun cmp eager (leastRun total) item rest
    let whole ← joinRuns cmp space sorter eager total run.items.length [] run
      (rest.drop (run.items.length - 1))
    whole.inOrder sorter

end Joining

end DocQuery.Driftsort
