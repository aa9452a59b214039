import Mathlib.Tactic.Common

set_option autoImplicit false

/-! # Stable sorting

A list is sorted stably if its items stand in order and items that the comparison does not tell
apart keep their order. For a comparison that is transitive on the items there is exactly one way to
do that (`IsStableSort.unique`). The comparison is
only asked to be transitive on the items at hand: the values of documents may have an order that is
not transitive everywhere. -/

namespace DocQuery

open Std

variable {α : Type}

/-- The comparison is transitive among the items. -/
def TransitiveOn (cmp : α → α → Ordering) (items : List α) : Prop :=
  ∀ a ∈ items, ∀ b ∈ items, ∀ c ∈ items, (cmp a b).isLE → (cmp b c).isLE → (cmp a c).isLE

instance (cmp : α → α → Ordering) (items : List α) : Decidable (TransitiveOn cmp items) :=
  inferInstanceAs (Decidable (∀ a ∈ items, ∀ b ∈ items, ∀ c ∈ items, _ → _ → _))

theorem TransitiveOn.subset {cmp : α → α → Ordering} {items fewer : List α}
    (h : TransitiveOn cmp items) (hsub : fewer ⊆ items) : TransitiveOn cmp fewer :=
  fun a ha b hb c hc => h a (hsub ha) b (hsub hb) c (hsub hc)

/-- `sorted` has the items in order, and ties in the order of `items`. -/
structure IsStableSort (cmp : α → α → Ordering) (items sorted : List α) : Prop where
  perm : sorted.Perm items
  ordered : sorted.Pairwise (fun a b => (cmp a b).isLE)
  stable : ∀ a ∈ items, sorted.filter (cmp a · == .eq) = items.filter (cmp a · == .eq)

/-- Items may be left out before or after they are sorted. -/
theorem IsStableSort.filter {cmp : α → α → Ordering} {items sorted : List α}
    (h : IsStableSort cmp items sorted) (p : α → Bool) :
    IsStableSort cmp (items.filter p) (sorted.filter p) := by
  refine ⟨h.perm.filter p, h.ordered.filter p, ?_⟩
  intro a ha
  have hcomm : ∀ l : List α, (l.filter p).filter (cmp a · == .eq) =
      (l.filter (cmp a · == .eq)).filter p := by
    intro l
    rw [List.filter_filter, List.filter_filter]
    simp only [Bool.and_comm]
  rw [hcomm, hcomm, h.stable a (List.mem_filter.mp ha).1]

/-! ## Stable sorts -/

variable {cmp : α → α → Ordering} [OrientedCmp cmp] {items sorted : List α}

/-- Items that tie with a third tie with each other. -/
theorem TransitiveOn.isLE_of_tied (h : TransitiveOn cmp items) {a b c : α} (ha : a ∈ items)
    (hb : b ∈ items) (hc : c ∈ items) (hab : cmp a b = .eq) (hac : cmp a c = .eq) :
    (cmp b c).isLE := by
  have hba : (cmp b a).isLE := Ordering.isLE_of_eq_eq (OrientedCmp.eq_symm hab)
  exact h b hb a ha c hc hba (Ordering.isLE_of_eq_eq hac)

/-- Lists of the same items in order are equal if their ties are in the same order. -/
theorem eq_of_ordered_of_filter_eq {xs ys : List α} (h : TransitiveOn cmp xs)
    (hperm : xs.Perm ys) (hxs : xs.Pairwise (fun a b => (cmp a b).isLE))
    (hys : ys.Pairwise (fun a b => (cmp a b).isLE))
    (hties : ∀ a ∈ xs, xs.filter (cmp a · == .eq) = ys.filter (cmp a · == .eq)) : xs = ys := by
  induction xs generalizing ys with
  | nil => exact hperm.nil_eq
  | cons x xs ih =>
    cases ys with
    | nil => exact absurd hperm.symm.nil_eq (by simp)
    | cons y ys =>
      -- both heads are least, so they tie, and the order of their ties makes them equal
      have hself : ∀ a, cmp a a = .eq := fun a => ReflCmp.compare_self
      have hxy : (cmp x y).isLE := by
        rcases List.mem_cons.mp (hperm.mem_iff.mpr List.mem_cons_self) with rfl | hy
        · simp [hself]
        · exact List.rel_of_pairwise_cons hxs hy
      have hyx : (cmp y x).isLE := by
        rcases List.mem_cons.mp (hperm.mem_iff.mp List.mem_cons_self) with rfl | hx
        · simp [hself]
        · exact List.rel_of_pairwise_cons hys hx
      have htie : cmp x y = .eq := by
        have hswap : cmp y x = (cmp x y).swap := OrientedCmp.eq_swap
        exact Ordering.eq_eq_of_isLE_of_isLE_swap hxy (hswap ▸ hyx)
      have hhead := hties x List.mem_cons_self
      rw [List.filter_cons_of_pos (by simp [hself]),
        List.filter_cons_of_pos (by simp [htie])] at hhead
      obtain ⟨rfl, -⟩ := List.cons.inj hhead
      have hrest : ∀ a ∈ xs, xs.filter (cmp a · == .eq) = ys.filter (cmp a · == .eq) := by
        intro a ha
        have hall := hties a (List.mem_cons_of_mem _ ha)
        rw [List.filter_cons, List.filter_cons] at hall
        split_ifs at hall
        · exact (List.cons.inj hall).2
        · exact hall
      rw [ih (h.subset (List.subset_cons_self x xs)) hperm.cons_inv hxs.of_cons hys.of_cons hrest]

/-- There is only one stable sort. -/
theorem IsStableSort.unique (h : TransitiveOn cmp items) {sorted' : List α}
    (hs : IsStableSort cmp items sorted) (hs' : IsStableSort cmp items sorted') :
    sorted = sorted' := by
  refine eq_of_ordered_of_filter_eq (h.subset hs.perm.subset) (hs.perm.trans hs'.perm.symm)
    hs.ordered hs'.ordered ?_
  intro a ha
  rw [hs.stable a (hs.perm.subset ha), hs'.stable a (hs.perm.subset ha)]

/-- Sorting once more keeps the order by which the items were sorted before, where the later
    comparison does not tell them apart. -/
theorem IsStableSort.then {cmp' : α → α → Ordering} {resorted : List α}
    (h : IsStableSort cmp' items sorted) (h' : IsStableSort cmp sorted resorted) :
    IsStableSort (fun a b => (cmp a b).then (cmp' a b)) items resorted := by
  have hfilter : ∀ (a : α) (l : List α), l.filter (fun b => (cmp a b).then (cmp' a b) == .eq) =
      (l.filter (cmp a · == .eq)).filter (cmp' a · == .eq) := by
    intro a l
    rw [List.filter_filter]
    refine List.filter_congr (fun b _ => ?_)
    cases cmp a b <;> cases cmp' a b <;> rfl
  refine ⟨h'.perm.trans h.perm, ?_, ?_⟩
  · rw [List.pairwise_iff_forall_sublist]
    intro a b hsub
    have hle := List.pairwise_iff_forall_sublist.mp h'.ordered hsub
    refine Ordering.isLE_then_iff_and.mpr ⟨hle, ?_⟩
    rcases Ordering.isLE_iff_eq_lt_or_eq_eq.mp hle with hlt | heq
    · exact Or.inl hlt
    · -- the two tie, so they stood in this order before
      right
      have hself : cmp a a = .eq := ReflCmp.compare_self
      have hmem : a ∈ sorted := h'.perm.mem_iff.mp (hsub.subset List.mem_cons_self)
      have hties := hsub.filter (cmp a · == .eq)
      rw [List.filter_cons_of_pos (by simp [hself]), List.filter_cons_of_pos (by simp [heq]),
        List.filter_nil, h'.stable a hmem] at hties
      exact List.pairwise_iff_forall_sublist.mp h.ordered (hties.trans List.filter_sublist)
  · intro a ha
    have hmem : a ∈ sorted := h.perm.mem_iff.mpr ha
    rw [hfilter, hfilter, h'.stable a hmem, List.filter_filter, List.filter_filter]
    simp only [Bool.and_comm (cmp' a _ == .eq)]
    rw [← List.filter_filter, h.stable a ha, List.filter_filter]

end DocQuery
