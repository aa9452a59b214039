import DocQuery.Driftsort.SmallSort
import DocQuery.Proofs.StableMerges

set_option autoImplicit false

/-! # Sorting few items

Where the comparison is transitive, four items sorted by comparing pairs are the merge of the two
pairs (`mergePairs_eq_mergeFront`), and merging from both ends gives what merging from the front
gives (`sorts_mergeFromEnds`): the ends do not pass each other, since a border that divides two
lists in order is not behind one with more items in front (`Divides.le_of_le`). So `smallSort`
sorts stably, and it has no result only where the comparison is not transitive
(`sorts_smallSort`). -/

namespace DocQuery

open Driftsort Std

variable {α : Type} {cmp : α → α → Ordering} {all items left right : List α}

/-! ## Sorting that may have no result -/

/-- Every result has the property, and if there is none the comparison is not transitive. -/
def WhereTransitive (cmp : α → α → Ordering) (all : List α) {β : Type} (p : β → Prop) :
    Option β → Prop
  | some result => p result
  | none => ¬ TransitiveOn cmp all

theorem WhereTransitive.bind {β γ : Type} {p : β → Prop} {q : γ → Prop} {x : Option β}
    {f : β → Option γ} (hx : WhereTransitive cmp all p x)
    (hf : ∀ b, p b → WhereTransitive cmp all q (f b)) : WhereTransitive cmp all q (x >>= f) := by
  cases x with
  | none => exact hx
  | some b => exact hf b hx

theorem WhereTransitive.map {β γ : Type} {p : β → Prop} {q : γ → Prop} {x : Option β} {f : β → γ}
    (hx : WhereTransitive cmp all p x) (hf : ∀ b, p b → q (f b)) :
    WhereTransitive cmp all q (x.map f) := by
  cases x with
  | none => exact hx
  | some b => exact hf b hx

/-- The result, if there is one, is a permutation of the items, and their stable sort if the
    comparison is transitive on `all`; in that case there is one. -/
def Sorts (cmp : α → α → Ordering) (all items : List α) : Option (List α) → Prop :=
  WhereTransitive cmp all (SortedWithin cmp all items)

/-! ## Four items -/

section Four

variable {a b c d : α}

theorem sortTwo_perm (cmp : α → α → Ordering) (a b : α) :
    [(sortTwo cmp a b).1, (sortTwo cmp a b).2].Perm [a, b] := by
  rw [sortTwo]
  split
  · exact List.Perm.swap a b []
  · exact List.Perm.refl _

theorem mergePairs_perm (cmp : α → α → Ordering) (left right : α × α) :
    (mergePairs cmp left right).Perm [left.1, left.2, right.1, right.2] := by
  have hpair := sortTwo_perm cmp
  unfold mergePairs
  split
  · exact ((hpair left.2 right.1).append_right [right.2]).cons left.1
  · exact (((hpair right.1 right.2).append_right [left.2]).trans
      (List.perm_append_singleton _ _)).cons left.1
  · have hmiddle : ([left.1, left.2] ++ right.1 :: [right.2]).Perm
        (right.1 :: ([left.1, left.2] ++ [right.2])) := List.perm_middle
    exact (((hpair left.1 left.2).append_right [right.2]).cons right.1).trans hmiddle.symm
  · exact (((hpair left.1 right.2).append_right [left.2]).cons right.1).trans
      ((List.Perm.swap _ _ _).trans ((List.perm_append_singleton left.2 [right.1, right.2]).cons _))

/-- If both pairs are in order, the item that is found from the front is the least of all and the
    one that is found from the back the greatest. -/
theorem mergePairs_eq_mergeFront [OrientedCmp cmp] (h : TransitiveOn cmp [a, b, c, d])
    (hab : isLess cmp b a = false) (hcd : isLess cmp d c = false) :
    mergePairs cmp (a, b) (c, d) = mergeFront cmp [a, b] [c, d] := by
  have ha : a ∈ [a, b, c, d] := by simp
  have hb : b ∈ [a, b, c, d] := by simp
  have hc : c ∈ [a, b, c, d] := by simp
  have hd : d ∈ [a, b, c, d] := by simp
  unfold mergePairs sortTwo
  simp only [mergeFront_cons_cons, mergeFront_nil_left, mergeFront_nil_right]
  split
  · next hca hdb => simp only [hca, hdb]; split <;> simp
  · next hca hdb =>
    have hcb := h.lt_of_isLE_of_lt hc hd hb (isLess_eq_false.mp hcd) hdb
    simp [hca, hdb, hcb, hcd]
  · next hca hdb =>
    have had := h a ha b hb d hd (isLess_eq_false.mp hab) (isLess_eq_false.mp hdb)
    simp [hca, hdb, isLess_eq_false.mpr had, hab]
  · next hca hdb => simp only [hca, hdb]; split <;> simp

/-- Sorting two items puts them in order. -/
theorem sortTwo_inOrder [OrientedCmp cmp] (a b : α) :
    isLess cmp (sortTwo cmp a b).2 (sortTwo cmp a b).1 = false := by
  rw [sortTwo]
  split
  · next h => exact isLess_eq_false.mpr (isLE_of_isLess h)
  · next h => exact Bool.not_eq_true _ ▸ h

theorem sortedWithin_sortTwo (cmp : α → α → Ordering) [OrientedCmp cmp] (hsub : [a, b] ⊆ all) :
    SortedWithin cmp all [a, b] [(sortTwo cmp a b).1, (sortTwo cmp a b).2] := by
  have hmerge : [(sortTwo cmp a b).1, (sortTwo cmp a b).2] = mergeFront cmp [a] [b] := by
    rw [sortTwo, mergeFront_cons_cons]
    split <;> simp
  rw [hmerge]
  exact ⟨mergeFront_perm cmp [a] [b], fun h => isStableSort_mergeFront h hsub
    (List.pairwise_singleton _ a) (List.pairwise_singleton _ b)⟩

theorem sortedWithin_sortFour [OrientedCmp cmp] (hsub : [a, b, c, d] ⊆ all) :
    SortedWithin cmp all [a, b, c, d] (sortFour cmp a b c d) := by
  have hpairs : [a, b] ++ [c, d] ⊆ all := hsub
  obtain ⟨habsub, hcdsub⟩ := List.append_subset.mp hpairs
  have hab := sortedWithin_sortTwo cmp habsub
  have hcd := sortedWithin_sortTwo cmp hcdsub
  have hperm := hab.perm.append hcd.perm
  refine ⟨(mergePairs_perm cmp _ _).trans hperm, fun h => ?_⟩
  rw [sortFour, mergePairs_eq_mergeFront (h.subset (List.Subset.trans hperm.subset hsub))
    (sortTwo_inOrder a b) (sortTwo_inOrder c d)]
  exact (hab.stable h).mergeFront h (hcd.stable h) hsub

end Four

/-! ## Borders -/

/-- What is in front of the borders `i` and `j` comes before what is behind them. -/
structure Divides (cmp : α → α → Ordering) (left right : List α) (i j : Nat) : Prop where
  left_right : ∀ x ∈ left.take i, ∀ y ∈ right.drop j, (cmp x y).isLE
  right_left : ∀ y ∈ right.take j, ∀ x ∈ left.drop i, isLess cmp y x

/-- Borders that have more items in front are not further to the front in any of the lists. -/
theorem Divides.le_of_le [OrientedCmp cmp] {i j i' j' : Nat} (h : Divides cmp left right i j)
    (h' : Divides cmp left right i' j') (hi : i ≤ left.length) (hj : j ≤ right.length)
    (hi' : i' ≤ left.length) (hj' : j' ≤ right.length) (hle : i + j ≤ i' + j') :
    i ≤ i' ∧ j ≤ j' := by
  have hcross : ∀ x y, (cmp x y).isLE → isLess cmp y x → False := by
    intro x y hxy hyx
    rw [isLess_eq_false.mpr hxy] at hyx
    cases hyx
  have hmem : ∀ (list : List α) {k m n : Nat} (hk : k < list.length), k < n → m ≤ k →
      list[k] ∈ list.take n ∧ list[k] ∈ list.drop m := by
    intro list k m n hk hn hm
    refine ⟨List.mem_take_iff_getElem.mpr ⟨k, by omega, rfl⟩,
      List.mem_drop_iff_getElem.mpr ⟨k - m, by omega, ?_⟩⟩
    congr 1
    omega
  by_contra hnot
  rcases Nat.lt_or_ge i' i with hlt | hge
  · obtain ⟨hx, hx'⟩ := hmem left (by omega) hlt (Nat.le_refl i')
    have hj : j < j' := by omega
    obtain ⟨hy', hy⟩ := hmem right (by omega) hj (Nat.le_refl j)
    exact hcross _ _ (h.left_right _ hx _ hy) (h'.right_left _ hy' _ hx')
  · have hj : j' < j := by omega
    have hi : i < i' := by omega
    obtain ⟨hx', hx⟩ := hmem left (by omega) hi (Nat.le_refl i)
    obtain ⟨hy, hy'⟩ := hmem right (by omega) hj (Nat.le_refl j')
    exact hcross _ _ (h'.left_right _ hx' _ hy') (h.right_left _ hy _ hx)

theorem Divides.cons_left {i j : Nat} {x : α} (h : Divides cmp left right i j)
    (hle : ∀ y ∈ right.drop j, (cmp x y).isLE) : Divides cmp (x :: left) right (i + 1) j := by
  refine ⟨?_, h.right_left⟩
  rw [List.take_succ_cons, List.forall_mem_cons]
  exact ⟨hle, h.left_right⟩

theorem Divides.cons_right {i j : Nat} {y : α} (h : Divides cmp left right i j)
    (hlt : ∀ x ∈ left.drop i, isLess cmp y x) : Divides cmp left (y :: right) i (j + 1) := by
  refine ⟨h.left_right, ?_⟩
  rw [List.take_succ_cons, List.forall_mem_cons]
  exact ⟨hlt, h.right_left⟩

/-- Borders that are counted from the back. -/
theorem Divides.turned {i j : Nat}
    (h : Divides (fun a b => cmp b a) right.reverse left.reverse j i) :
    Divides cmp left right (left.length - i) (right.length - j) := by
  obtain ⟨hright, hleft⟩ := h
  simp only [List.take_reverse, List.drop_reverse, List.mem_reverse] at hright hleft
  exact ⟨fun x hx y hy => hright y hy x hx, fun y hy x hx => hleft x hx y hy⟩

/-! ## Taking items from one end -/

/-- Taking `i` items of one list and `j` of the other begins to merge the lists. -/
structure Takes (cmp : α → α → Ordering) (left right : List α) (i j : Nat) (m : Merging α) :
    Prop where
  left_eq : m.left = left.drop i
  right_eq : m.right = right.drop j
  perm : m.taken.Perm (left.take i ++ right.take j)
  merge_eq : m.taken ++ mergeFront cmp m.left m.right = mergeFront cmp left right
  divides : TransitiveOn cmp (left ++ right) → left.Pairwise (fun a b => (cmp a b).isLE) →
    right.Pairwise (fun a b => (cmp a b).isLE) → Divides cmp left right i j

theorem takes_takeLeast (cmp : α → α → Ordering) [OrientedCmp cmp] (left right : List α)
    (count : Nat) (hl : count ≤ left.length)
    (hr : count ≤ right.length) :
    ∃ i j, i + j = count ∧ Takes cmp left right i j (takeLeast cmp count left right) := by
  induction count generalizing left right with
  | zero =>
    refine ⟨0, 0, rfl, ?_⟩
    have hnone : takeLeast cmp 0 left right = ⟨[], left, right⟩ := by rw [takeLeast]; simp
    rw [hnone]
    exact ⟨rfl, rfl, List.Perm.refl _, rfl, fun _ _ _ => ⟨by simp, by simp⟩⟩
  | succ count ih =>
    cases left with
    | nil => simp at hl
    | cons x xs =>
      cases right with
      | nil => simp at hr
      | cons y ys =>
        rw [takeLeast]
        split
        · next hlt =>
          obtain ⟨i, j, hsum, htakes⟩ := ih (x :: xs) ys (by omega)
            (Nat.le_of_succ_le_succ hr)
          refine ⟨i, j + 1, by omega, htakes.left_eq, htakes.right_eq, ?_, ?_, ?_⟩
          · exact (htakes.perm.cons y).trans List.perm_middle.symm
          · rw [List.cons_append, htakes.merge_eq, mergeFront_cons_cons, if_pos hlt]
          · intro h hxs hys
            have hless := ((List.sublist_cons_self y ys).append_left (x :: xs)).subset
            refine (htakes.divides (h.subset hless) hxs hys.of_cons).cons_right ?_
            intro x' hx'
            have hmem := List.mem_of_mem_drop hx'
            rcases List.mem_cons.mp hmem with rfl | hlater
            · exact hlt
            · exact h.lt_of_lt_of_isLE (by simp) (by simp) (by simp [hlater]) hlt
                (List.rel_of_pairwise_cons hxs hlater)
        · next hle =>
          obtain ⟨i, j, hsum, htakes⟩ := ih xs (y :: ys)
            (Nat.le_of_succ_le_succ hl) (by omega)
          refine ⟨i + 1, j, by omega, htakes.left_eq, htakes.right_eq, htakes.perm.cons x, ?_, ?_⟩
          · rw [List.cons_append, htakes.merge_eq, mergeFront_cons_cons, if_neg hle]
          · intro h hxs hys
            have hle : (cmp x y).isLE := isLess_eq_false.mp (Bool.not_eq_true _ ▸ hle)
            refine (htakes.divides (h.subset (by simp)) hxs.of_cons hys).cons_left ?_
            intro y' hy'
            have hmem := List.mem_of_mem_drop hy'
            rcases List.mem_cons.mp hmem with rfl | hlater
            · exact hle
            · exact h x (by simp) y (by simp) y' (by simp [hlater]) hle
                (List.rel_of_pairwise_cons hys hlater)

/-! ## Merging from both ends -/

/-- A list is known from its ends and its items if there is one item between the ends at most. -/
theorem append_eq_of_ends {front middle back whole : List α} (hfront : front <+: whole)
    (hback : back <:+ whole) (hperm : (front ++ middle ++ back).Perm whole)
    (hlength : middle.length ≤ 1) : front ++ middle ++ back = whole := by
  obtain ⟨rest, hrest⟩ := hfront
  obtain ⟨start, hstart⟩ := hback
  have hlengths := hperm.length_eq
  have hsame : front ++ rest = start ++ back := hrest.trans hstart.symm
  have hfit : front.length ≤ start.length := by
    have hwhole := congrArg List.length hstart
    simp only [List.length_append] at hlengths hwhole
    omega
  obtain ⟨between, rfl⟩ :=
    List.prefix_of_prefix_length_le ⟨rest, hsame⟩ (List.prefix_append _ _) hfit
  subst hstart
  have hmiddle : middle.Perm between :=
    (List.perm_append_left_iff front).mp ((List.perm_append_right_iff back).mp hperm)
  match middle, hlength with
  | [], _ => rw [hmiddle.nil_eq]
  | [a], _ => rw [List.singleton_perm.mp hmiddle]

/-- The parts of two lists in front of borders, between them and behind further ones. -/
theorem perm_of_borders {i j i' j' : Nat} {front back : List α} (hi : i ≤ i') (hj : j ≤ j')
    (hfront : front.Perm (left.take i ++ right.take j))
    (hback : back.Perm (left.drop i' ++ right.drop j')) :
    (front ++ ((left.drop i).take (i' - i) ++ (right.drop j).take (j' - j)) ++ back).Perm
      (left ++ right) := by
  have hparts : ∀ (list : List α) {m n : Nat}, m ≤ n →
      list.take m ++ (list.drop m).take (n - m) ++ list.drop n = list := by
    intro list m n hle
    obtain ⟨k, rfl⟩ := Nat.exists_eq_add_of_le hle
    rw [Nat.add_sub_cancel_left, ← List.take_add, List.take_append_drop]
  conv_rhs => rw [← hparts left hi, ← hparts right hj]
  classical
  rw [List.perm_iff_count] at hfront hback ⊢
  intro a
  simp only [List.count_append] at hfront hback ⊢
  have hfront := hfront a
  have hback := hback a
  omega

/-- Lists of nearly the same length are merged from both ends. If the comparison is transitive the
    ends do not pass each other. -/
theorem sorts_mergeFromEnds [OrientedCmp cmp] {xs ys : List α}
    (hxs : SortedWithin cmp all xs left) (hys : SortedWithin cmp all ys right)
    (hsub : xs ++ ys ⊆ all) (hlength : left.length ≤ right.length)
    (hlength' : right.length ≤ left.length + 1) :
    Sorts cmp all (xs ++ ys) (mergeFromEnds cmp left right) := by
  have : OrientedCmp (fun a b => cmp b a) := OrientedCmp.opposite
  have hperm := hxs.perm.append hys.perm
  have hsub' : left ++ right ⊆ all := List.Subset.trans hperm.subset hsub
  obtain ⟨i, j, hsum, hfront⟩ := takes_takeLeast cmp left right left.length (Nat.le_refl _) hlength
  obtain ⟨j', i', hsum', hback⟩ := takes_takeLeast (fun a b => cmp b a)
    right.reverse left.reverse left.length (by simpa using hlength) (by simp)
  have hbackPerm : (takeLeast (fun a b => cmp b a) left.length right.reverse
      left.reverse).taken.reverse.Perm
        (left.drop (left.length - i') ++ right.drop (right.length - j')) := by
    refine (List.reverse_perm _).trans (hback.perm.trans ?_)
    rw [List.take_reverse, List.take_reverse]
    exact ((List.reverse_perm _).append (List.reverse_perm _)).trans List.perm_append_comm
  unfold mergeFromEnds
  simp only [hfront.left_eq, hfront.right_eq, hback.left_eq, hback.right_eq, List.length_drop,
    List.length_reverse]
  split
  · next hends =>
    have hi : left.length - i + (left.length - i') - left.length = left.length - i' - i := by omega
    have hj : right.length - j + (right.length - j') - right.length = right.length - j' - j := by
      omega
    have hile : i ≤ left.length - i' := by omega
    have hjle : j ≤ right.length - j' := by omega
    have hparts := perm_of_borders hile hjle hfront.perm hbackPerm
    rw [hi, hj]
    refine ⟨hparts.trans hperm, fun h => ?_⟩
    have hmerge := isStableSort_mergeFront (h.subset hsub') (List.Subset.refl _)
      (hxs.stable h).ordered (hys.stable h).ordered
    have hback' := (IsStableSort.refl (hxs.stable h).ordered).mergeBack (h.subset hsub')
      (.refl (hys.stable h).ordered) (List.Subset.refl _)
    have hsame := hmerge.unique (h.subset hsub') hback'
    rw [append_eq_of_ends ⟨_, hfront.merge_eq⟩ ?_ (hparts.trans hmerge.perm.symm) ?_]
    · exact .of_append h (hxs.stable h) (hys.stable h) hsub hmerge
    · rw [hsame, mergeBack_eq_reverse, ← hback.merge_eq, List.reverse_append]
      exact List.suffix_append _ _
    · simp only [List.length_append, List.length_take, List.length_drop]
      omega
  · next hends =>
    intro h
    have hdivides := hfront.divides (h.subset hsub') (hxs.stable h).ordered (hys.stable h).ordered
    have hdivides' := hback.divides (h.turned.subset ?_) (hys.stable h).reverse.ordered
      (hxs.stable h).reverse.ordered
    · have hends' := hdivides.le_of_le hdivides'.turned (by omega) (by omega) (by omega) (by omega)
        (by omega)
      omega
    · rw [← List.reverse_append]
      exact List.Subset.trans (List.reverse_subset.mpr (List.Subset.refl _)) hsub'

/-! ## Both halves -/

theorem sortedWithin_sortHalf (cmp : α → α → Ordering) [OrientedCmp cmp] (byFour : Bool)
    (hsub : items ⊆ all) : SortedWithin cmp all items (sortHalf cmp byFour items) := by
  unfold sortHalf
  split
  · next a b c d rest =>
    split
    · have hfour : [a, b, c, d] ++ rest ⊆ all := hsub
      exact (sortedWithin_sortFour (List.append_subset.mp hfour).1).insertAll hfour
    · exact SortedWithin.nil.insertAll hsub
  · exact SortedWithin.nil.insertAll hsub

theorem sorts_smallSort [OrientedCmp cmp] (hsub : items ⊆ all) :
    Sorts cmp all items (smallSort cmp items) := by
  have hhalf := fun (list : List α) (h : list ⊆ all) =>
    sortedWithin_sortHalf cmp (decide (8 ≤ items.length)) h
  have hl := hhalf (items.take (items.length / 2)) (List.Subset.trans (List.take_subset _ _) hsub)
  have hr := hhalf (items.drop (items.length / 2)) (List.Subset.trans (List.drop_subset _ _) hsub)
  have hlengthl := hl.perm.length_eq
  have hlengthr := hr.perm.length_eq
  rw [List.length_take] at hlengthl
  rw [List.length_drop] at hlengthr
  have hmerge := sorts_mergeFromEnds hl hr (by rwa [List.take_append_drop]) (by omega) (by omega)
  rwa [List.take_append_drop] at hmerge

end DocQuery
