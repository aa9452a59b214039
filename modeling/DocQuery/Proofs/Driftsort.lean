import DocQuery.Driftsort.Basic
import DocQuery.Proofs.RunSort

set_option autoImplicit false

/-! # Driftsort is a stable sort

Where the comparison is transitive `Driftsort.sort` gives the one stable sort of a list, and if it
gives anything it is a permutation of the list; it gives nothing only for more than twenty items on
which the comparison is not transitive (`sorts_sort`). A list that is partitioned around a pivot
falls into parts that are sorted apart; the items that are not above a least pivot tie with it. -/

namespace DocQuery

open Driftsort Std

variable {α : Type} {cmp : α → α → Ordering} {all items : List α}

/-! ## Pivots -/

theorem medianOfThree_cases (cmp : α → α → Ordering) (a b c : α) :
    medianOfThree cmp a b c = a ∨ medianOfThree cmp a b c = b ∨ medianOfThree cmp a b c = c := by
  unfold medianOfThree
  dsimp only
  split_ifs <;> simp

theorem sample_mem (first : α) (count : Nat) (items : List α) :
    sample cmp first count items ∈ first :: items := by
  induction count using Nat.strongRecOn generalizing items with
  | ind count ih =>
    rw [sample]
    split
    · cases items <;> simp
    · have hpart : ∀ n, sample cmp first (count / 8) (items.drop n) ∈ first :: items := fun n =>
        List.cons_subset_cons first (List.drop_subset n items) (ih _ (by omega) _)
      dsimp only
      rcases medianOfThree_cases cmp (sample cmp first (count / 8) items)
        (sample cmp first (count / 8) (items.drop (4 * (count / 8))))
        (sample cmp first (count / 8) (items.drop (7 * (count / 8)))) with h | h | h <;> rw [h]
      · exact hpart 0
      · exact hpart _
      · exact hpart _

/-! ## Quicksort -/

/-- The items that are not above a least item tie with it, so they are in order. -/
theorem SortedWithin.of_least [OrientedCmp cmp] {pivot : α} (hpivot : pivot ∈ all)
    (hsub : items ⊆ all) {right : List α}
    (hleast : TransitiveOn cmp all → ∀ a ∈ items, (cmp pivot a).isLE)
    (hr : SortedWithin cmp all (items.filter (isLess cmp pivot ·)) right) :
    SortedWithin cmp all items (items.filter (!isLess cmp pivot ·) ++ right) := by
  have hnot : items.filter (isLess cmp pivot ·) = items.filter (fun a => !!isLess cmp pivot a) := by
    simp only [Bool.not_not]
  rw [hnot] at hr
  refine ⟨(hr.perm.append_left _).trans (List.filter_append_perm _ items), fun h => ?_⟩
  have hnotAbove : ∀ a, (!isLess cmp pivot a) = true → (cmp a pivot).isLE := by
    intro a ha
    exact isLess_eq_false.mp (by simpa using ha)
  refine .append h hsub _ (.refl ?_) (hr.stable h) ?_
  · refine List.pairwise_of_forall_mem_list fun a ha b hb => ?_
    obtain ⟨ha, hap⟩ := List.mem_filter.mp ha
    have hb := (List.mem_filter.mp hb).1
    exact h a (hsub ha) pivot hpivot b (hsub hb) (hnotAbove a hap) (hleast h b hb)
  · intro a ha b hb hap hbp
    exact h.lt_of_isLE_of_lt (hsub ha) hpivot (hsub hb) (hnotAbove a hap) (by simpa using hbp)

/-- The items below a pivot and the others are sorted apart. -/
theorem SortedWithin.of_partition [OrientedCmp cmp] {pivot : α} (hpivot : pivot ∈ all)
    (hsub : items ⊆ all) {left right : List α}
    (hl : SortedWithin cmp all (items.filter (isLess cmp · pivot)) left)
    (hr : SortedWithin cmp all (items.filter (!isLess cmp · pivot)) right) :
    SortedWithin cmp all items (left ++ right) := by
  refine ⟨(hl.perm.append hr.perm).trans (List.filter_append_perm _ items), fun h => ?_⟩
  refine .append h hsub _ (hl.stable h) (hr.stable h) ?_
  intro a ha b hb hap hbp
  exact h.lt_of_lt_of_isLE (hsub ha) hpivot (hsub hb) hap (isLess_eq_false.mp hbp)

theorem sorts_quicksort [OrientedCmp cmp] (limit : Nat) (ancestor : Option α)
    (hsub : items ⊆ all)
    (hancestor : ∀ p ∈ ancestor, p ∈ all ∧ ∀ a ∈ items, isLess cmp a p = false) :
    Sorts cmp all items (quicksort cmp limit ancestor items) := by
  induction limit generalizing ancestor items with
  | zero =>
    cases items with
    | nil => exact SortedWithin.nil
    | cons first rest =>
      rw [quicksort]
      split
      · exact sorts_smallSort hsub
      · exact sorts_sortByRuns _ (fun _ h => sorts_smallSort h) true hsub
  | succ limit ih =>
    cases items with
    | nil => exact SortedWithin.nil
    | cons first rest =>
      rw [quicksort]
      have hfilter : ∀ p : α → Bool, (first :: rest).filter p ⊆ all := fun p =>
        List.Subset.trans List.filter_sublist.subset hsub
      have hmem : sample cmp first (first :: rest).length (first :: rest) ∈ first :: rest :=
        List.cons_subset.mpr ⟨List.mem_cons_self, List.Subset.refl _⟩ (sample_mem _ _ _)
      split
      · exact sorts_smallSort hsub
      · dsimp only
        generalize sample cmp first (first :: rest).length (first :: rest) = pivot at hmem
        split
        · refine (ih (some pivot) (hfilter _) ?_).bind fun right hr => ?_
          · rintro p ⟨⟩
            refine ⟨hsub hmem, fun a ha => ?_⟩
            simpa using (List.mem_filter.mp ha).2
          refine (ih ancestor (hfilter _) ?_).bind fun left hl =>
            hl.of_partition (hsub hmem) hsub hr
          intro p hp
          refine ⟨(hancestor p hp).1, fun a ha => ?_⟩
          exact (hancestor p hp).2 a (List.mem_filter.mp ha).1
        · next hleast =>
          refine (ih none (hfilter _) (by simp)).bind fun right hr => ?_
          refine hr.of_least (hsub hmem) hsub fun h a ha => ?_
          rw [Bool.and_eq_true, not_and_or] at hleast
          rcases hleast with hequal | hnone
          · -- the ancestor is not below the pivot and no item is below the ancestor
            cases ancestor with
            | none => exact absurd rfl hequal
            | some p =>
              obtain ⟨hp, hbelow⟩ := hancestor p rfl
              have hpivot : isLess cmp p pivot = false := by simpa using hequal
              exact h pivot (hsub hmem) p hp a (hsub ha) (isLess_eq_false.mp hpivot)
                (isLess_eq_false.mp (hbelow a ha))
          · have hempty : (first :: rest).filter (isLess cmp · pivot) = [] := by simpa using hnone
            have hbelow := List.filter_eq_nil_iff.mp hempty a ha
            exact isLess_eq_false.mp (Bool.not_eq_true _ ▸ hbelow)

theorem sorts_sortUnordered [OrientedCmp cmp] (hsub : items ⊆ all) :
    Sorts cmp all items (sortUnordered cmp items) :=
  sorts_quicksort _ none hsub (by simp)

/-! ## Sorting -/

/-- Sorting sorts stably where the comparison is transitive, and there it does not fail. -/
theorem sorts_sort (cmp : α → α → Ordering) [OrientedCmp cmp] (items : List α) :
    Sorts cmp items items (sort cmp items) := by
  unfold sort
  split_ifs
  · exact SortedWithin.nil.insertAll (List.Subset.refl _)
  · exact sorts_sortByRuns _ (fun _ h => sorts_smallSort h) true (List.Subset.refl _)
  · exact sorts_sortByRuns _ (fun _ h => sorts_sortUnordered h) false (List.Subset.refl _)

/-- Where the comparison is transitive there is a result. -/
theorem exists_sort [OrientedCmp cmp] (h : TransitiveOn cmp items) :
    ∃ sorted, sort cmp items = some sorted := by
  have hsorts := sorts_sort cmp items
  cases hresult : sort cmp items with
  | none =>
    rw [hresult] at hsorts
    exact absurd h hsorts
  | some sorted => exact ⟨sorted, rfl⟩

/-- Where the comparison is transitive the result of sorting is the stable sort. -/
theorem sort_eq_some_iff [OrientedCmp cmp] {sorted : List α} (h : TransitiveOn cmp items) :
    sort cmp items = some sorted ↔ IsStableSort cmp items sorted := by
  obtain ⟨result, hresult⟩ := exists_sort h
  have hsorts := sorts_sort cmp items
  rw [hresult] at hsorts
  rw [hresult, Option.some.injEq]
  exact ⟨fun heq => heq ▸ hsorts.stable h, fun hs => (hsorts.stable h).unique h hs⟩

theorem perm_of_sort_eq_some [OrientedCmp cmp] {sorted : List α}
    (h : sort cmp items = some sorted) : sorted.Perm items := by
  have hsorts := sorts_sort cmp items
  rw [h] at hsorts
  exact hsorts.perm

/-- Sorting fails for more than twenty items only, and only if the comparison is not transitive on
    them. -/
theorem not_transitiveOn_of_sort_eq_none [OrientedCmp cmp] (h : sort cmp items = none) :
    20 < items.length ∧ ¬ TransitiveOn cmp items := by
  have hsorts := sorts_sort cmp items
  rw [h] at hsorts
  refine ⟨?_, hsorts⟩
  by_contra hfew
  rw [sort, if_pos (by omega)] at h
  cases h

end DocQuery
