import DocQuery.Driftsort.Merge
import DocQuery.Proofs.StableSort

set_option autoImplicit false

/-! # Merges are stable

Stable sorts of two lists become a stable sort of both in two ways: by merging, from either end
(`IsStableSort.mergeFront`, `IsStableSort.mergeBack`), and by appending, if all items of the first
list come before those of the second (`IsStableSort.append`). Merging from the back is merging from
the front for the turned comparison. Inserting item after item is merging from the back. -/

namespace DocQuery

open Driftsort Std

variable {α : Type} {cmp : α → α → Ordering} {all items sorted left right : List α}

/-! ## Single comparisons -/

theorem isLess_eq_true {a b : α} : isLess cmp a b = true ↔ cmp a b = .lt := by
  rw [isLess, beq_iff_eq]

theorem isLess_eq_false [OrientedCmp cmp] {a b : α} :
    isLess cmp b a = false ↔ (cmp a b).isLE = true := by
  have h : cmp b a = (cmp a b).swap := OrientedCmp.eq_swap
  rw [isLess, h]
  cases cmp a b <;> decide

theorem isLE_of_isLess {a b : α} (h : isLess cmp a b = true) : (cmp a b).isLE = true := by
  rw [isLess_eq_true.mp h]
  rfl

namespace TransitiveOn

variable {a b c : α}

theorem lt_of_lt_of_isLE [OrientedCmp cmp] (h : TransitiveOn cmp all) (ha : a ∈ all) (hb : b ∈ all)
    (hc : c ∈ all) (hab : isLess cmp a b = true) (hbc : (cmp b c).isLE = true) :
    isLess cmp a c = true := by
  rw [← Bool.not_eq_false, isLess_eq_false]
  intro hca
  have hba := isLess_eq_false.mpr (h b hb c hc a ha hbc hca)
  rw [hab] at hba
  cases hba

theorem lt_of_isLE_of_lt [OrientedCmp cmp] (h : TransitiveOn cmp all) (ha : a ∈ all) (hb : b ∈ all)
    (hc : c ∈ all) (hab : (cmp a b).isLE = true) (hbc : isLess cmp b c = true) :
    isLess cmp a c = true := by
  rw [← Bool.not_eq_false, isLess_eq_false]
  intro hca
  have hcb := isLess_eq_false.mpr (h c hc a ha b hb hca hab)
  rw [hbc] at hcb
  cases hcb

/-- Items that tie with a third tie with each other. -/
theorem eq_of_tied [OrientedCmp cmp] (h : TransitiveOn cmp all) (ha : a ∈ all) (hb : b ∈ all)
    (hc : c ∈ all) (hab : cmp a b = .eq) (hac : cmp a c = .eq) : cmp b c = .eq := by
  have hbc := h.isLE_of_tied ha hb hc hab hac
  have hcb := h.isLE_of_tied ha hc hb hac hab
  have hswap : cmp c b = (cmp b c).swap := OrientedCmp.eq_swap
  rw [hswap] at hcb
  exact Ordering.eq_eq_of_isLE_of_isLE_swap hbc hcb

end TransitiveOn

/-! ## Parts of a stable sort -/

namespace IsStableSort

/-- A list in order is its own stable sort. -/
theorem refl (h : items.Pairwise (fun a b => (cmp a b).isLE)) : IsStableSort cmp items items :=
  ⟨List.Perm.refl _, h, fun _ _ => rfl⟩

/-- A stable sort keeps the ties with any item, its own or not. -/
theorem filter_tied [OrientedCmp cmp] (hs : IsStableSort cmp items sorted)
    (h : TransitiveOn cmp all) (hsub : items ⊆ all) {a : α} (ha : a ∈ all) :
    sorted.filter (cmp a · == .eq) = items.filter (cmp a · == .eq) := by
  by_cases hex : ∃ b ∈ items, cmp a b = .eq
  · obtain ⟨b, hb, hab⟩ := hex
    have hba : cmp b a = .eq := OrientedCmp.eq_symm hab
    have hsame : ∀ c ∈ items, (cmp a c == .eq) = (cmp b c == .eq) := by
      intro c hc
      rw [Bool.eq_iff_iff, beq_iff_eq, beq_iff_eq]
      exact ⟨h.eq_of_tied ha (hsub hb) (hsub hc) hab, h.eq_of_tied (hsub hb) ha (hsub hc) hba⟩
    rw [List.filter_congr hsame, ← hs.stable b hb]
    exact List.filter_congr fun c hc => hsame c (hs.perm.subset hc)
  · have hnone : ∀ list : List α, list ⊆ items → list.filter (cmp a · == .eq) = [] := by
      intro list hlist
      rw [List.filter_eq_nil_iff]
      intro b hb htie
      exact hex ⟨b, hlist hb, beq_iff_eq.mp htie⟩
    rw [hnone sorted hs.perm.subset, hnone items (List.Subset.refl _)]

/-- What sorts the stable sorts of two lists sorts the lists. -/
theorem of_append [OrientedCmp cmp] {xs ys : List α} (h : TransitiveOn cmp all)
    (hxs : IsStableSort cmp xs left) (hys : IsStableSort cmp ys right) (hsub : xs ++ ys ⊆ all)
    (hs : IsStableSort cmp (left ++ right) sorted) : IsStableSort cmp (xs ++ ys) sorted := by
  obtain ⟨hxsub, hysub⟩ := List.append_subset.mp hsub
  have hperm := hxs.perm.append hys.perm
  refine ⟨hs.perm.trans hperm, hs.ordered, ?_⟩
  intro a ha
  rw [hs.stable a (hperm.mem_iff.mpr ha), List.filter_append, List.filter_append,
    hxs.filter_tied h hxsub (hsub ha), hys.filter_tied h hysub (hsub ha)]

/-- An item strictly before those in front of it, and not after the others, comes first. -/
theorem cons [OrientedCmp cmp] {xs ys : List α} {y : α} (h : TransitiveOn cmp all)
    (hsub : xs ++ y :: ys ⊆ all) (hs : IsStableSort cmp (xs ++ ys) sorted)
    (hlt : ∀ a ∈ xs, isLess cmp y a = true) (hle : ∀ a ∈ ys, (cmp y a).isLE = true) :
    IsStableSort cmp (xs ++ y :: ys) (y :: sorted) := by
  have hy : y ∈ all := hsub (by simp)
  have hless := List.Subset.trans ((List.sublist_cons_self y ys).append_left xs).subset hsub
  refine ⟨(hs.perm.cons y).trans List.perm_middle.symm, ?_, ?_⟩
  · refine List.pairwise_cons.mpr ⟨?_, hs.ordered⟩
    intro a ha
    rcases List.mem_append.mp (hs.perm.subset ha) with ha | ha
    · exact isLE_of_isLess (hlt a ha)
    · exact hle a ha
  · intro a ha
    have htied := hs.filter_tied h hless (hsub ha)
    rw [List.filter_append] at htied
    by_cases htie : (cmp a y == .eq) = true
    · have hnone : xs.filter (cmp a · == .eq) = [] := by
        rw [List.filter_eq_nil_iff]
        intro b hb htie'
        have hyb := isLess_eq_true.mp (hlt b hb)
        have heq := h.eq_of_tied (hsub ha) hy (hsub (List.mem_append_left _ hb))
          (beq_iff_eq.mp htie) (beq_iff_eq.mp htie')
        rw [heq] at hyb
        cases hyb
      rw [List.filter_append, List.filter_cons, List.filter_cons, if_pos htie, if_pos htie, htied,
        hnone]
      rfl
    · rw [List.filter_append, List.filter_cons, List.filter_cons, if_neg htie, if_neg htie, htied]

/-- An item that is not after any other comes first. -/
theorem cons_least [OrientedCmp cmp] {x : α} (h : TransitiveOn cmp all) (hsub : x :: items ⊆ all)
    (hs : IsStableSort cmp items sorted) (hle : ∀ a ∈ items, (cmp x a).isLE = true) :
    IsStableSort cmp (x :: items) (x :: sorted) := by
  rw [← List.nil_append items] at hs
  exact hs.cons h hsub (fun a ha => by cases ha) hle

/-- Turned around, a stable sort is one for the turned comparison. -/
theorem reverse (hs : IsStableSort cmp items sorted) [OrientedCmp cmp] :
    IsStableSort (fun a b => cmp b a) items.reverse sorted.reverse := by
  have hswap : ∀ a b, (cmp b a == .eq) = (cmp a b == .eq) := by
    intro a b
    have h : cmp b a = (cmp a b).swap := OrientedCmp.eq_swap
    rw [h]
    cases cmp a b <;> rfl
  refine ⟨(List.reverse_perm _).trans (hs.perm.trans (List.reverse_perm _).symm), ?_, ?_⟩
  · rw [List.pairwise_reverse]
    exact hs.ordered
  · intro a ha
    simp only [hswap, List.filter_reverse]
    rw [hs.stable a (List.mem_reverse.mp ha)]

/-- Parts of a list whose items come strictly one after the other are sorted apart. -/
theorem append [OrientedCmp cmp] (h : TransitiveOn cmp all) (hsub : items ⊆ all) (p : α → Bool)
    (hl : IsStableSort cmp (items.filter p) left)
    (hr : IsStableSort cmp (items.filter (!p ·)) right)
    (hlt : ∀ a ∈ items, ∀ b ∈ items, p a = true → p b = false → isLess cmp a b = true) :
    IsStableSort cmp items (left ++ right) := by
  have hleft : ∀ a ∈ left, a ∈ items ∧ p a = true := fun a ha =>
    List.mem_filter.mp (hl.perm.subset ha)
  have hright : ∀ b ∈ right, b ∈ items ∧ p b = false := by
    intro b hb
    obtain ⟨hmem, hp⟩ := List.mem_filter.mp (hr.perm.subset hb)
    exact ⟨hmem, by simpa using hp⟩
  refine ⟨?_, ?_, ?_⟩
  · exact (hl.perm.append hr.perm).trans (List.filter_append_perm p items)
  · rw [List.pairwise_append]
    refine ⟨hl.ordered, hr.ordered, ?_⟩
    intro a ha b hb
    exact isLE_of_isLess (hlt a (hleft a ha).1 b (hright b hb).1 (hleft a ha).2 (hright b hb).2)
  · intro a ha
    have hsubset : ∀ q : α → Bool, items.filter q ⊆ all := fun q _ hmem =>
      hsub (List.mem_filter.mp hmem).1
    rw [List.filter_append, hl.filter_tied h (hsubset p) (hsub ha),
      hr.filter_tied h (hsubset _) (hsub ha)]
    -- the items that tie with `a` are all on the side of `a`
    have hties : ∀ b ∈ items, cmp a b = .eq → p b = p a := by
      intro b hb htie
      cases hpa : p a <;> cases hpb : p b
      · rfl
      · have hba := isLess_eq_true.mp (hlt b hb a ha hpb hpa)
        rw [OrientedCmp.eq_symm htie] at hba
        cases hba
      · have hab := isLess_eq_true.mp (hlt a ha b hb hpa hpb)
        rw [htie] at hab
        cases hab
      · rfl
    have hside : ∀ q : α → Bool, (∀ b ∈ items, cmp a b = .eq → q b = q a) →
        (items.filter q).filter (cmp a · == .eq) =
          if q a then items.filter (cmp a · == .eq) else [] := by
      intro q hq
      rw [List.filter_filter]
      split
      · next hqa =>
        refine List.filter_congr fun b hb => ?_
        cases htie : cmp a b == .eq with
        | false => rfl
        | true => rw [hq b hb (beq_iff_eq.mp htie), hqa]; rfl
      · next hqa =>
        rw [List.filter_eq_nil_iff]
        intro b hb hboth
        obtain ⟨htie, hqb⟩ := (Bool.and_eq_true _ _).mp hboth
        rw [hq b hb (beq_iff_eq.mp htie)] at hqb
        exact hqa hqb
    rw [hside p hties, hside (!p ·) (fun b hb htie => congrArg _ (hties b hb htie))]
    cases p a <;> simp

end IsStableSort

/-! ## Merging -/

theorem mergeFront_perm (cmp : α → α → Ordering) (left right : List α) :
    (mergeFront cmp left right).Perm (left ++ right) :=
  List.merge_perm_append _

@[simp] theorem mergeFront_nil_right (left : List α) : mergeFront cmp left [] = left :=
  List.merge_right left

@[simp] theorem mergeFront_nil_left (right : List α) : mergeFront cmp [] right = right :=
  List.nil_merge right

theorem mergeFront_cons_cons (x y : α) (xs ys : List α) :
    mergeFront cmp (x :: xs) (y :: ys) =
      if isLess cmp y x then y :: mergeFront cmp (x :: xs) ys
      else x :: mergeFront cmp xs (y :: ys) := by
  rw [mergeFront, List.cons_merge_cons]
  cases isLess cmp y x <;> rfl

/-- Merging lists in order is sorting them, both as they follow each other. -/
theorem isStableSort_mergeFront [OrientedCmp cmp] (h : TransitiveOn cmp all)
    (hsub : left ++ right ⊆ all) (hl : left.Pairwise (fun a b => (cmp a b).isLE))
    (hr : right.Pairwise (fun a b => (cmp a b).isLE)) :
    IsStableSort cmp (left ++ right) (mergeFront cmp left right) := by
  induction left generalizing right with
  | nil => simpa using IsStableSort.refl hr
  | cons x xs ihx =>
    induction right with
    | nil => simpa using IsStableSort.refl hl
    | cons y ys ihy =>
      obtain ⟨hxsub, hysub⟩ := List.append_subset.mp hsub
      have hx : x ∈ all := hxsub List.mem_cons_self
      have hy : y ∈ all := hysub List.mem_cons_self
      rw [mergeFront_cons_cons]
      split
      · next hlt =>
        have hless := (List.sublist_cons_self y ys).append_left (x :: xs) |>.subset
        have hrest := ihy (List.Subset.trans hless hsub) hr.of_cons
        refine hrest.cons h hsub ?_ (fun a ha => List.rel_of_pairwise_cons hr ha)
        intro a ha
        rcases List.mem_cons.mp ha with rfl | ha'
        · exact hlt
        · exact h.lt_of_lt_of_isLE hy hx (hxsub ha) hlt (List.rel_of_pairwise_cons hl ha')
      · next hle =>
        have hle : (cmp x y).isLE = true := isLess_eq_false.mp (Bool.not_eq_true _ ▸ hle)
        have hrest := ihx (List.Subset.trans (by simp) hsub) hl.of_cons hr
        refine IsStableSort.cons_least h hsub hrest ?_
        intro a ha
        rcases List.mem_append.mp ha with ha | ha
        · exact List.rel_of_pairwise_cons hl ha
        · rcases List.mem_cons.mp ha with rfl | ha'
          · exact hle
          · exact h x hx y hy a (hysub ha) hle (List.rel_of_pairwise_cons hr ha')

theorem IsStableSort.mergeFront [OrientedCmp cmp] {xs ys : List α} (h : TransitiveOn cmp all)
    (hxs : IsStableSort cmp xs left) (hys : IsStableSort cmp ys right) (hsub : xs ++ ys ⊆ all) :
    IsStableSort cmp (xs ++ ys) (Driftsort.mergeFront cmp left right) := by
  refine .of_append h hxs hys hsub (isStableSort_mergeFront h ?_ hxs.ordered hys.ordered)
  exact List.Subset.trans (hxs.perm.append hys.perm).subset hsub

theorem TransitiveOn.turned (h : TransitiveOn cmp all) : TransitiveOn (fun a b => cmp b a) all :=
  fun a ha b hb c hc hab hbc => h c hc b hb a ha hbc hab

theorem mergeBack_eq_reverse (cmp : α → α → Ordering) (left right : List α) :
    mergeBack cmp left right =
      (mergeFront (fun a b => cmp b a) right.reverse left.reverse).reverse :=
  rfl

theorem mergeBack_perm (cmp : α → α → Ordering) (left right : List α) :
    (mergeBack cmp left right).Perm (left ++ right) := by
  rw [mergeBack_eq_reverse]
  refine (List.reverse_perm _).trans ((mergeFront_perm _ _ _).trans ?_)
  rw [← List.reverse_append]
  exact List.reverse_perm _

theorem IsStableSort.mergeBack [OrientedCmp cmp] {xs ys : List α} (h : TransitiveOn cmp all)
    (hxs : IsStableSort cmp xs left) (hys : IsStableSort cmp ys right) (hsub : xs ++ ys ⊆ all) :
    IsStableSort cmp (xs ++ ys) (Driftsort.mergeBack cmp left right) := by
  have : OrientedCmp (fun a b => cmp b a) := OrientedCmp.opposite
  have hturned := hys.reverse.mergeFront h.turned hxs.reverse (by simpa [and_comm] using hsub)
  rw [mergeBack_eq_reverse]
  simpa using hturned.reverse

/-! ## Sorts where the comparison is transitive -/

/-- A permutation of the items that is their stable sort if the comparison is transitive on
    `all`. -/
structure SortedWithin (cmp : α → α → Ordering) (all items sorted : List α) : Prop where
  perm : sorted.Perm items
  stable : TransitiveOn cmp all → IsStableSort cmp items sorted

namespace SortedWithin

theorem nil : SortedWithin cmp all [] [] :=
  ⟨List.Perm.refl _, fun _ => .refl List.Pairwise.nil⟩

variable [OrientedCmp cmp] {xs ys : List α}

theorem mergeBack (hxs : SortedWithin cmp all xs left) (hys : SortedWithin cmp all ys right)
    (hsub : xs ++ ys ⊆ all) :
    SortedWithin cmp all (xs ++ ys) (Driftsort.mergeBack cmp left right) :=
  ⟨(mergeBack_perm cmp _ _).trans (hxs.perm.append hys.perm),
    fun h => (hxs.stable h).mergeBack h (hys.stable h) hsub⟩

theorem mergeRuns (hxs : SortedWithin cmp all xs left) (hys : SortedWithin cmp all ys right)
    (hsub : xs ++ ys ⊆ all) :
    SortedWithin cmp all (xs ++ ys) (Driftsort.mergeRuns cmp left right) := by
  unfold Driftsort.mergeRuns
  split
  · exact ⟨(mergeFront_perm cmp _ _).trans (hxs.perm.append hys.perm),
      fun h => (hxs.stable h).mergeFront h (hys.stable h) hsub⟩
  · exact hxs.mergeBack hys hsub

theorem insertAll (hxs : SortedWithin cmp all xs sorted) (hsub : xs ++ items ⊆ all) :
    SortedWithin cmp all (xs ++ items) (Driftsort.insertAll cmp sorted items) := by
  induction items generalizing xs sorted with
  | nil => simpa [Driftsort.insertAll] using hxs
  | cons item rest ih =>
    have hone : SortedWithin cmp all [item] [item] :=
      ⟨List.Perm.refl _, fun _ => .refl (List.pairwise_singleton _ _)⟩
    rw [List.append_cons] at hsub ⊢
    exact ih (hxs.mergeBack hone (List.append_subset.mp hsub).1) hsub

end SortedWithin

end DocQuery
