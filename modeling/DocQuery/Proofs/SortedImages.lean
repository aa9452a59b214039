import DocQuery.Driftsort.Basic
import DocQuery.Proofs.StableMerges

set_option autoImplicit false

/-! # Sorting asks for nothing but the comparison

What sorting does with items depends on how they compare alone: if items compare as their images
do, the images of the sorted items are the sorted images (`sort_map`). So items may carry along what
the comparison does not see. -/

namespace DocQuery.Driftsort

variable {α β : Type} {f : α → β} {cmp : α → α → Ordering} {cmp' : β → β → Ordering}

/-! ## Images -/

/-- The image of a merge under way. -/
def Merging.map (f : α → β) (m : Merging α) : Merging β :=
  ⟨m.taken.map f, m.left.map f, m.right.map f⟩

/-- The image of a run. -/
def Run.map (f : α → β) (run : Run α) : Run β :=
  ⟨run.items.map f, run.sorted⟩

theorem inOrder_map {sorter : List α → Option (List α)} {sorter' : List β → Option (List β)}
    (hsorter : ∀ items, sorter' (items.map f) = (sorter items).map (List.map f)) (run : Run α) :
    (run.map f).inOrder sorter' = (run.inOrder sorter).map (List.map f) := by
  simp only [Run.inOrder, Run.map, hsorter]
  split <;> rfl

variable (hless : ∀ a b, isLess cmp a b = isLess cmp' (f a) (f b))
include hless

/-! ## Merging -/

/-- The images compare the same way when both comparisons are turned. -/
theorem isLess_turned_map (a b : α) : isLess (fun a b => cmp b a) a b =
    isLess (fun a b => cmp' b a) (f a) (f b) :=
  hless b a

theorem mergeFront_map (left right : List α) :
    mergeFront cmp' (left.map f) (right.map f) = (mergeFront cmp left right).map f := by
  symm
  refine List.map_merge ?_
  intro a _ b _
  rw [hless]

theorem mergeBack_map (left right : List α) :
    mergeBack cmp' (left.map f) (right.map f) = (mergeBack cmp left right).map f := by
  rw [mergeBack_eq_reverse, mergeBack_eq_reverse, ← List.map_reverse, ← List.map_reverse,
    mergeFront_map (isLess_turned_map hless), List.map_reverse]

theorem mergeRuns_map (left right : List α) :
    mergeRuns cmp' (left.map f) (right.map f) = (mergeRuns cmp left right).map f := by
  simp only [mergeRuns, List.length_map, mergeFront_map hless, mergeBack_map hless]
  split <;> rfl

theorem insertAll_map (sorted items : List α) :
    insertAll cmp' (sorted.map f) (items.map f) = (insertAll cmp sorted items).map f := by
  induction items generalizing sorted with
  | nil => rfl
  | cons item rest ih =>
    have hitem := mergeBack_map hless sorted [item]
    rw [List.map_singleton] at hitem
    rw [List.map_cons, insertAll, insertAll, hitem, ih]

theorem takeLeast_map (count : Nat) (left right : List α) :
    takeLeast cmp' count (left.map f) (right.map f) = (takeLeast cmp count left right).map f := by
  induction count generalizing left right with
  | zero => cases left <;> cases right <;> rfl
  | succ count ih =>
    cases left with
    | nil => rfl
    | cons x left =>
      cases right with
      | nil => rfl
      | cons y right =>
        have hx := ih left (y :: right)
        have hy := ih (x :: left) right
        rw [List.map_cons] at hx hy
        rw [List.map_cons, List.map_cons, takeLeast, takeLeast, hx, hy, hless]
        split <;> rfl

theorem mergeFromEnds_map (left right : List α) :
    mergeFromEnds cmp' (left.map f) (right.map f) =
      (mergeFromEnds cmp left right).map (List.map f) := by
  unfold mergeFromEnds
  simp only [List.length_map, ← List.map_reverse, takeLeast_map hless,
    takeLeast_map (isLess_turned_map hless), Merging.map]
  split <;> simp

/-! ## Few items -/

theorem sortTwo_map (a b : α) : sortTwo cmp' (f a) (f b) =
    (f (sortTwo cmp a b).1, f (sortTwo cmp a b).2) := by
  rw [sortTwo, sortTwo, hless]
  split <;> rfl

theorem sortFour_map (a b c d : α) : sortFour cmp' (f a) (f b) (f c) (f d) =
    (sortFour cmp a b c d).map f := by
  simp only [sortFour, mergePairs, sortTwo_map hless, hless]
  split <;> rfl

theorem sortHalf_map (byFour : Bool) (items : List α) :
    sortHalf cmp' byFour (items.map f) = (sortHalf cmp byFour items).map f := by
  match items with
  | a :: b :: c :: d :: rest =>
    have hfour := insertAll_map hless [] (a :: b :: c :: d :: rest)
    simp only [List.map_cons, List.map_nil] at hfour
    simp only [sortHalf, List.map_cons, sortFour_map hless, insertAll_map hless, hfour]
    split <;> rfl
  | [] => exact insertAll_map hless [] []
  | [a] => exact insertAll_map hless [] [a]
  | [a, b] => exact insertAll_map hless [] [a, b]
  | [a, b, c] => exact insertAll_map hless [] [a, b, c]

theorem smallSort_map (items : List α) :
    smallSort cmp' (items.map f) = (smallSort cmp items).map (List.map f) := by
  simp only [smallSort, List.length_map, ← List.map_take, ← List.map_drop, sortHalf_map hless,
    mergeFromEnds_map hless]

/-! ## Runs -/

theorem continuing_map (descending : Bool) (last : α) (rest : List α) :
    continuing cmp' descending (f last) (rest.map f) =
      (continuing cmp descending last rest).map f := by
  induction rest generalizing last with
  | nil => rfl
  | cons item rest ih =>
    rw [List.map_cons, continuing, continuing, ih, hless]
    split <;> rfl

theorem naturalRun_map (first : α) (rest : List α) :
    naturalRun cmp' (f first) (rest.map f) = (naturalRun cmp first rest).map f := by
  have hhead : (rest.map f).head?.any (isLess cmp' · (f first)) =
      rest.head?.any (isLess cmp · first) := by
    cases rest <;> simp [hless]
  simp only [naturalRun, hhead, continuing_map hless]
  split <;> simp

theorem firstRun_map (eager : Bool) (least : Nat) (first : α) (rest : List α) :
    firstRun cmp' eager least (f first) (rest.map f) =
      (firstRun cmp eager least first rest).map (Run.map f) := by
  simp only [firstRun, naturalRun_map hless, List.length_map, ← List.map_cons, ← List.map_take,
    smallSort_map hless]
  split_ifs
  · rfl
  · simp only [Option.map_map]
    rfl
  · rfl

section Joining

variable (space : Nat) {sorter : List α → Option (List α)} {sorter' : List β → Option (List β)}
  (hsorter : ∀ items, sorter' (items.map f) = (sorter items).map (List.map f))
include hsorter

theorem join_map (left right : Run α) : (left.map f).join cmp' space sorter' (right.map f) =
    (left.join cmp space sorter right).map (Run.map f) := by
  simp only [Run.join, inOrder_map hsorter]
  simp only [Run.map, List.length_map]
  split
  · cases left.inOrder sorter with
    | none => rfl
    | some l =>
      cases right.inOrder sorter with
      | none => rfl
      | some r => simp [Run.map, mergeRuns_map hless]
  · simp [Run.map]

theorem collapse_map (depth : Nat) (last : Run α) (pending : List (Run α × Nat)) :
    collapse cmp' space sorter' depth (last.map f) (pending.map (Prod.map (Run.map f) id)) =
      (collapse cmp space sorter depth last pending).map
        (Prod.map (Run.map f) (List.map (Prod.map (Run.map f) id))) := by
  induction pending generalizing last with
  | nil => rfl
  | cons top below ih =>
    obtain ⟨run, border⟩ := top
    simp only [List.map_cons, Prod.map_apply, collapse, join_map hless space hsorter, id_eq]
    split
    · cases run.join cmp space sorter last with
      | none => rfl
      | some joined => exact ih joined
    · rfl

theorem joinRuns_map (eager : Bool) (total position : Nat) (pending : List (Run α × Nat))
    (last : Run α) (rest : List α) :
    joinRuns cmp' space sorter' eager total position (pending.map (Prod.map (Run.map f) id))
        (last.map f) (rest.map f) =
      (joinRuns cmp space sorter eager total position pending last rest).map (Run.map f) := by
  induction hlength : rest.length using Nat.strongRecOn generalizing position pending last rest with
  | ind length ih =>
    cases rest with
    | nil =>
      rw [List.map_nil, joinRuns, joinRuns, collapse_map hless space hsorter]
      cases collapse cmp space sorter 0 last pending <;> rfl
    | cons item later =>
      rw [List.map_cons, joinRuns, joinRuns, firstRun_map hless]
      cases firstRun cmp eager (leastRun total) item later with
      | none => rfl
      | some next =>
        have hlengths : ∀ run : Run α, (run.map f).items.length = run.items.length := fun run =>
          List.length_map _
        simp only [Option.map_some, Option.bind_eq_bind, Option.bind_some, hlengths,
          collapse_map hless space hsorter]
        generalize borderDepth total (position - last.items.length) position
          (position + next.items.length) = depth
        cases collapse cmp space sorter depth last pending with
        | none => rfl
        | some result =>
          have hshorter : (later.drop (next.items.length - 1)).length < length := by
            rw [List.length_cons] at hlength
            rw [List.length_drop]
            omega
          have hrest := ih _ hshorter (position + next.items.length)
            ((result.1, depth) :: result.2) next _ rfl
          rw [List.map_drop] at hrest
          exact hrest

theorem sortByRuns_map (eager : Bool) (items : List α) :
    sortByRuns cmp' space sorter' eager (items.map f) =
      (sortByRuns cmp space sorter eager items).map (List.map f) := by
  cases items with
  | nil => rfl
  | cons item rest =>
    simp only [List.map_cons, sortByRuns, firstRun_map hless, List.length_map]
    cases firstRun cmp eager (leastRun (rest.length + 1)) item rest with
    | none => rfl
    | some run =>
      have hstop : (run.map f).items.length = run.items.length := List.length_map _
      have hruns := joinRuns_map hless space hsorter eager (rest.length + 1) run.items.length [] run
        (rest.drop (run.items.length - 1))
      rw [List.map_nil, List.map_drop] at hruns
      simp only [Option.map_some, Option.bind_eq_bind, Option.bind_some, hstop, hruns]
      cases joinRuns cmp space sorter eager (rest.length + 1) run.items.length [] run
          (rest.drop (run.items.length - 1)) with
      | none => rfl
      | some whole => exact inOrder_map hsorter whole

end Joining

/-! ## Quicksort and sorting -/

theorem medianOfThree_map (a b c : α) :
    medianOfThree cmp' (f a) (f b) (f c) = f (medianOfThree cmp a b c) := by
  simp only [medianOfThree, hless, apply_ite f]

theorem sample_map (first : α) (count : Nat) (items : List α) :
    sample cmp' (f first) count (items.map f) = f (sample cmp first count items) := by
  induction count using Nat.strongRecOn generalizing items with
  | ind count ih =>
    rw [sample, sample]
    split
    · cases items <;> rfl
    · have hpart := fun part => ih (count / 8) (by omega) part
      simp only [← List.map_drop, hpart, medianOfThree_map hless]

theorem quicksort_map (limit : Nat) (ancestor : Option α) (items : List α) :
    quicksort cmp' limit (ancestor.map f) (items.map f) =
      (quicksort cmp limit ancestor items).map (List.map f) := by
  induction limit generalizing ancestor items with
  | zero =>
    cases items with
    | nil => rfl
    | cons first rest =>
      rw [List.map_cons, quicksort, quicksort]
      simp only [← List.map_cons, List.length_map, smallSort_map hless]
      split
      · rfl
      · exact sortByRuns_map hless _ (smallSort_map hless) true _
  | succ limit ih =>
    cases items with
    | nil => rfl
    | cons first rest =>
      rw [List.map_cons, quicksort, quicksort]
      simp only [← List.map_cons, List.length_map, smallSort_map hless, sample_map hless]
      split
      · rfl
      · generalize sample cmp first (first :: rest).length (first :: rest) = pivot
        generalize first :: rest = items
        have hfilter : ∀ p : β → Bool, (items.map f).filter p = (items.filter (p <| f ·)).map f :=
          fun p => List.filter_map
        have hancestor : (ancestor.map f).all (isLess cmp' · (f pivot)) =
            ancestor.all (isLess cmp · pivot) := by
          cases ancestor <;> simp [hless]
        simp only [hfilter, hancestor, List.isEmpty_map, ← hless, ← Option.map_some, ih,
          ← Option.map_none (f := f)]
        split
        · cases quicksort cmp limit (some pivot) (items.filter (!isLess cmp · pivot)) with
          | none => rfl
          | some right =>
            cases quicksort cmp limit ancestor (items.filter (isLess cmp · pivot)) <;> simp
        · cases quicksort cmp limit none (items.filter (isLess cmp pivot ·)) <;> simp

theorem sortUnordered_map (items : List α) :
    sortUnordered cmp' (items.map f) = (sortUnordered cmp items).map (List.map f) := by
  have hquick := quicksort_map hless (2 * items.length.log2) none items
  rw [Option.map_none] at hquick
  rw [sortUnordered, sortUnordered, List.length_map, hquick]

/-- Items that compare as their images do are sorted as their images are. -/
theorem sort_map (items : List α) :
    sort cmp' (items.map f) = (sort cmp items).map (List.map f) := by
  simp only [sort, List.length_map]
  split_ifs
  · have hinsert := insertAll_map hless [] items
    rw [List.map_nil] at hinsert
    rw [hinsert, Option.map_some]
  · exact sortByRuns_map hless _ (smallSort_map hless) true items
  · exact sortByRuns_map hless _ (sortUnordered_map hless) false items

end DocQuery.Driftsort
