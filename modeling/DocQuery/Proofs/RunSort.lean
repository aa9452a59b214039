import DocQuery.Driftsort.Runs
import DocQuery.Proofs.SmallSort

set_option autoImplicit false

/-! # Sorting by runs

A natural run is in order, or strictly downwards and then in order once it is turned around, which
no ties can notice. Every run stands for a part of the list, its segment: it holds the segment as it
is, or stably sorted (`Run.Holds`). The pending runs stand for all that was gone through
(`Pending`), a join stands for both segments together, and so the last run that is left stands for
the whole list (`sorts_sortByRuns`). -/

namespace DocQuery

open Driftsort Std

variable {α : Type} {cmp : α → α → Ordering} {all items sorted segment : List α}

/-! ## Natural runs -/

theorem isPrefix_continuing (descending : Bool) (last : α) (rest : List α) :
    continuing cmp descending last rest <+: rest := by
  induction rest generalizing last with
  | nil => exact List.prefix_refl _
  | cons item rest ih =>
    rw [continuing]
    split
    · exact List.cons_prefix_cons.mpr ⟨rfl, ih item⟩
    · exact List.nil_prefix

/-- A run goes one way throughout. -/
theorem pairwise_continuing [OrientedCmp cmp] (h : TransitiveOn cmp all) (descending : Bool)
    {last : α} {rest : List α} (hsub : last :: rest ⊆ all) :
    (last :: continuing cmp descending last rest).Pairwise
      (fun a b => isLess cmp b a = descending) := by
  have htrans : ∀ a ∈ all, ∀ b ∈ all, ∀ c ∈ all, isLess cmp b a = descending →
      isLess cmp c b = descending → isLess cmp c a = descending := by
    intro a ha b hb c hc hba hcb
    cases descending with
    | false =>
      exact isLess_eq_false.mpr
        (h a ha b hb c hc (isLess_eq_false.mp hba) (isLess_eq_false.mp hcb))
    | true => exact h.lt_of_lt_of_isLE hc hb ha hcb (isLE_of_isLess hba)
  induction rest generalizing last with
  | nil => exact List.pairwise_singleton _ _
  | cons item rest ih =>
    rw [continuing]
    split
    · next hitem =>
      have hrest := ih (List.cons_subset.mp hsub).2
      refine List.pairwise_cons.mpr ⟨?_, hrest⟩
      intro b hb
      rcases List.mem_cons.mp hb with rfl | hlater
      · exact hitem
      · have hmem := (isPrefix_continuing _ _ _).subset hlater
        exact htrans last (hsub (by simp)) item (hsub (by simp)) b (hsub (by simp [hmem])) hitem
          (List.rel_of_pairwise_cons hrest hlater)
    · exact List.pairwise_singleton _ _

/-- Of items that go strictly downwards no two tie, so they may be turned around. -/
theorem IsStableSort.of_descending [OrientedCmp cmp] (h : TransitiveOn cmp all)
    (hsub : items ⊆ all) (hdown : items.Pairwise (fun a b => isLess cmp b a = true)) :
    IsStableSort cmp items items.reverse := by
  refine ⟨List.reverse_perm _, ?_, ?_⟩
  · rw [List.pairwise_reverse]
    exact hdown.imp fun hlt => isLE_of_isLess hlt
  · intro a ha
    rw [List.filter_reverse]
    match htied : items.filter (cmp a · == .eq), hdown.filter (cmp a · == .eq) with
    | [], _ => rfl
    | [b], _ => rfl
    | b :: c :: later, hpair =>
      have hmem : ∀ x ∈ [b, c], x ∈ items ∧ cmp a x = .eq := by
        intro x hx
        have hfilter : x ∈ items.filter (cmp a · == .eq) := by
          rw [htied]
          exact List.mem_append_left later hx
        rw [List.mem_filter, beq_iff_eq] at hfilter
        exact hfilter
      obtain ⟨hb, hab⟩ := hmem b (by simp)
      obtain ⟨hc, hac⟩ := hmem c (by simp)
      have hlt := List.rel_of_pairwise_cons hpair List.mem_cons_self
      have heq := h.eq_of_tied (hsub ha) (hsub hc) (hsub hb) hac hab
      rw [isLess_eq_true.mp hlt] at heq
      cases heq

theorem sortedWithin_naturalRun [OrientedCmp cmp] {first : α} {rest : List α}
    (hsub : first :: rest ⊆ all) :
    SortedWithin cmp all ((first :: rest).take (naturalRun cmp first rest).length)
      (naturalRun cmp first rest) := by
  have hrun : ∀ descending, (first :: rest).take
      (first :: continuing cmp descending first rest).length =
        first :: continuing cmp descending first rest := fun descending =>
    (List.prefix_iff_eq_take.mp
      (List.cons_prefix_cons.mpr ⟨rfl, isPrefix_continuing descending first rest⟩)).symm
  have hrunSub : ∀ descending, first :: continuing cmp descending first rest ⊆ all := by
    intro descending
    refine List.Subset.trans ?_ hsub
    exact List.cons_subset_cons first (isPrefix_continuing descending first rest).subset
  unfold naturalRun
  cases rest.head?.any (isLess cmp · first) with
  | false =>
    simp only [Bool.false_eq_true, if_false, hrun]
    refine ⟨List.Perm.refl _, fun h => .refl ((pairwise_continuing h false hsub).imp ?_)⟩
    exact fun hle => isLess_eq_false.mp hle
  | true =>
    simp only [if_true, List.length_reverse, hrun]
    exact ⟨List.reverse_perm _, fun h =>
      .of_descending h (hrunSub true) (pairwise_continuing h true hsub)⟩

/-! ## Runs and their segments -/

/-- The run holds the segment, in order or as it is. -/
def Driftsort.Run.Holds (cmp : α → α → Ordering) (all segment : List α) (run : Run α) : Prop :=
  if run.sorted then SortedWithin cmp all segment run.items else run.items = segment

/-- The first run is not empty and holds the beginning of the list. -/
theorem holds_firstRun [OrientedCmp cmp] (eager : Bool) (least : Nat) {first : α} {rest : List α}
    (hsub : first :: rest ⊆ all) :
    WhereTransitive cmp all (fun run => 0 < run.items.length ∧
      run.Holds cmp all ((first :: rest).take run.items.length))
      (firstRun cmp eager least first rest) := by
  have hnatural : 0 < (naturalRun cmp first rest).length := by
    unfold naturalRun
    cases rest.head?.any (isLess cmp · first) <;> simp
  unfold firstRun
  dsimp only
  split_ifs with hlong heager
  · exact ⟨hnatural, sortedWithin_naturalRun hsub⟩
  · have hpart : (first :: rest).take smallLimit ⊆ all :=
      List.Subset.trans (List.take_subset _ _) hsub
    have hsort : Sorts cmp all _ (smallSort cmp ((first :: rest).take smallLimit)) :=
      sorts_smallSort hpart
    refine hsort.map fun sorted hsorted => ?_
    have hlength := hsorted.perm.length_eq
    rw [List.length_take] at hlength
    refine ⟨by simp only [hlength, smallLimit, List.length_cons]; omega, ?_⟩
    rw [Run.Holds, if_pos rfl, hlength, ← List.take_eq_take_min]
    exact hsorted
  · refine ⟨?_, ?_⟩
    · simp only [List.length_take, List.length_cons]
      omega
    · simp [Run.Holds]

/-! ## Joining runs -/

section Joining

variable (space : Nat) {sorter : List α → Option (List α)}

theorem sorts_inOrder (hsorter : ∀ items, items ⊆ all → Sorts cmp all items (sorter items))
    {run : Run α} (hrun : run.Holds cmp all segment) (hsub : segment ⊆ all) :
    Sorts cmp all segment (run.inOrder sorter) := by
  unfold Run.Holds at hrun
  unfold Run.inOrder
  split_ifs at hrun ⊢
  · exact hrun
  · rw [hrun]
    exact hsorter segment hsub

theorem holds_join [OrientedCmp cmp]
    (hsorter : ∀ items, items ⊆ all → Sorts cmp all items (sorter items)) {left right : Run α}
    {before segment : List α} (hl : left.Holds cmp all before) (hr : right.Holds cmp all segment)
    (hsub : before ++ segment ⊆ all) :
    WhereTransitive cmp all (Run.Holds cmp all (before ++ segment))
      (left.join cmp space sorter right) := by
  obtain ⟨hbefore, hsegment⟩ := List.append_subset.mp hsub
  unfold Run.join
  split
  · refine (sorts_inOrder hsorter hl hbefore).bind fun l hl => ?_
    refine (sorts_inOrder hsorter hr hsegment).bind fun r hr => ?_
    exact hl.mergeRuns hr hsub
  · next hlater =>
    simp only [Bool.or_eq_true, decide_eq_true_eq, not_or] at hlater
    have hl : left.items = before := by simpa [Run.Holds, hlater.1.1] using hl
    have hr : right.items = segment := by simpa [Run.Holds, hlater.1.2] using hr
    rw [hl, hr]
    exact rfl

/-- The pending runs hold the parts of a list, the last of them on top. -/
inductive Pending (cmp : α → α → Ordering) (all : List α) : List (Run α × Nat) → List α → Prop
  | nil : Pending cmp all [] []
  | cons {run : Run α} {border : Nat} {below : List (Run α × Nat)} {before segment : List α} :
      Pending cmp all below before → run.Holds cmp all segment →
      Pending cmp all ((run, border) :: below) (before ++ segment)

/-- Joining runs moves the limit between the pending runs and the last one. At depth zero no run is
    left pending. -/
theorem holds_collapse [OrientedCmp cmp]
    (hsorter : ∀ items, items ⊆ all → Sorts cmp all items (sorter items)) (depth : Nat)
    {pending : List (Run α × Nat)} {last : Run α} {before segment : List α}
    (hpending : Pending cmp all pending before) (hlast : last.Holds cmp all segment)
    (hsub : before ++ segment ⊆ all) :
    WhereTransitive cmp all (fun result => ∃ before' segment',
      before' ++ segment' = before ++ segment ∧ Pending cmp all result.2 before' ∧
        result.1.Holds cmp all segment' ∧ (depth = 0 → result.2 = []))
      (collapse cmp space sorter depth last pending) := by
  induction hpending generalizing last segment with
  | nil => exact ⟨[], segment, rfl, .nil, hlast, fun _ => rfl⟩
  | @cons run border below before' segment' hbelow hrun ih =>
    rw [collapse]
    split
    · rw [List.append_assoc] at hsub
      have hjoin := holds_join space hsorter hrun hlast (List.append_subset.mp hsub).2
      refine hjoin.bind fun joined hj => ?_
      rw [List.append_assoc]
      exact ih hj hsub
    · next hdeep =>
      exact ⟨_, segment, rfl, .cons hbelow hrun, hlast, fun h => absurd (h ▸ Nat.zero_le _) hdeep⟩

/-- A beginning that is not empty, and what follows it. -/
theorem take_append_drop_tail {n : Nat} (item : α) (later : List α) (hpos : 0 < n) :
    (item :: later).take n ++ later.drop (n - 1) = item :: later := by
  obtain ⟨n, rfl⟩ := Nat.exists_eq_succ_of_ne_zero (Nat.ne_of_gt hpos)
  simp

/-- What is left at the end holds what is pending, the last run and the rest of the list. -/
theorem holds_joinRuns [OrientedCmp cmp]
    (hsorter : ∀ items, items ⊆ all → Sorts cmp all items (sorter items)) (eager : Bool)
    (total position : Nat) {pending : List (Run α × Nat)} {last : Run α}
    {before segment rest : List α} (hpending : Pending cmp all pending before)
    (hlast : last.Holds cmp all segment) (hsub : before ++ segment ++ rest ⊆ all) :
    WhereTransitive cmp all (Run.Holds cmp all (before ++ segment ++ rest))
      (joinRuns cmp space sorter eager total position pending last rest) := by
  induction hlength : rest.length using Nat.strongRecOn generalizing position pending last before
    segment rest with
  | ind length ih =>
    obtain ⟨hfront, hrest⟩ := List.append_subset.mp hsub
    cases rest with
    | nil =>
      rw [joinRuns]
      refine (holds_collapse space hsorter 0 hpending hlast hfront).bind ?_
      rintro ⟨whole, left⟩ ⟨before', segment', happend, hnone, hwhole, hempty⟩
      obtain rfl := hempty rfl
      cases hnone
      rw [List.append_nil, ← happend]
      exact hwhole
    | cons item later =>
      rw [joinRuns]
      refine (holds_firstRun eager (leastRun total) hrest).bind ?_
      rintro next ⟨hpos, hnext⟩
      refine (holds_collapse space hsorter _ hpending hlast hfront).bind ?_
      rintro ⟨joined, pending'⟩ ⟨before', segment', happend, hpending', hjoined, -⟩
      have hparts : before' ++ segment' ++ (item :: later).take next.items.length ++
          later.drop (next.items.length - 1) = before ++ segment ++ item :: later := by
        rw [List.append_assoc, take_append_drop_tail item later hpos, happend]
      have hshorter : (later.drop (next.items.length - 1)).length < length := by
        rw [List.length_cons] at hlength
        rw [List.length_drop]
        omega
      rw [← hparts] at hsub ⊢
      exact ih _ hshorter _ (.cons hpending' hjoined) hnext hsub rfl

/-- Sorting by runs sorts stably, whatever sorts the runs that are left for later. -/
theorem sorts_sortByRuns [OrientedCmp cmp]
    (hsorter : ∀ items, items ⊆ all → Sorts cmp all items (sorter items)) (eager : Bool)
    (hsub : items ⊆ all) : Sorts cmp all items (sortByRuns cmp space sorter eager items) := by
  unfold sortByRuns
  cases items with
  | nil => exact SortedWithin.nil
  | cons item rest =>
    refine (holds_firstRun eager _ hsub).bind fun run ⟨hpos, hrun⟩ => ?_
    have hparts := take_append_drop_tail item rest hpos
    rw [← List.nil_append ((item :: rest).take _)] at hparts
    have hwhole := holds_joinRuns space hsorter eager (rest.length + 1) run.items.length .nil hrun
      (hparts ▸ hsub)
    rw [hparts] at hwhole
    exact hwhole.bind fun whole hwhole => sorts_inOrder hsorter hwhole hsub

end Joining

end DocQuery
