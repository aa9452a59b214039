import Mathlib.Tactic.Common
import DocQuery.Proofs.Driftsort
import DocQuery.Proofs.Results
import DocQuery.Rows.Execution

set_option autoImplicit false

/-! # Comparing values and rows the other way round

Exchanging two values turns their order around, wherever they have one, so the comparison of rows by
which they are sorted is oriented. It is transitive on rows among whose fields each key's comparison
is (`transitiveOn_compareRows`), and then a sorting step gives the stable sort of the rows
(`sortRows_eq_ok_iff`). -/

namespace DocQuery

open Std

/-! ## Values -/

theorem Number.compare_swap (a b : Number) : b.compare a = (a.compare b).swap := by
  unfold Number.compare
  cases a.signed? <;> cases b.signed? <;> exact OrientedOrd.eq_swap

namespace Value

mutual

theorem compare?_swap : ∀ a b : Value, b.compare? a = (a.compare? b).map Ordering.swap
  | .null, b => by cases b <;> simp [compare?]
  | .bool x, b => by
    cases b <;> simp only [compare?, Option.map_none, Option.map_some]
    rw [OrientedOrd.eq_swap]
  | .number x, b => by
    cases b <;> simp only [compare?, Option.map_none, Option.map_some]
    rw [Number.compare_swap]
  | .string x, b => by
    cases b <;> simp only [compare?, Option.map_none, Option.map_some]
    rw [OrientedOrd.eq_swap]
  | .array xs, b => by
    cases b <;> simp only [compare?, Option.map_none]
    exact compareItems?_swap xs _
  | .object xs, b => by cases b <;> simp [compare?]

theorem compareItems?_swap : ∀ xs ys : List Value,
    compareItems? ys xs = (compareItems? xs ys).map Ordering.swap
  | [], [] => by simp [compareItems?]
  | [], y :: ys => by simp [compareItems?]
  | x :: xs, [] => by simp [compareItems?]
  | x :: xs, y :: ys => by
    have hhead := compare?_swap x y
    have htail := compareItems?_swap xs ys
    simp only [compareItems?, hhead]
    cases hxy : x.compare? y with
    | none => rfl
    | some order => cases order <;> simp [htail]

end

theorem sortOrder_swap (a b : Value) : b.sortOrder a = (a.sortOrder b).swap := by
  have hrank : Ord.compare b.kind.rank a.kind.rank =
      (Ord.compare a.kind.rank b.kind.rank).swap := OrientedOrd.eq_swap
  unfold sortOrder
  rw [hrank, compare?_swap a b]
  cases Ord.compare a.kind.rank b.kind.rank with
  | eq => cases a.compare? b <;> rfl
  | _ => rfl

end Value

/-! ## Rows -/

theorem OrderKey.compareRows_swap (key : OrderKey) (a b : Value) :
    key.compareRows b a = (key.compareRows a b).swap := by
  have h := Value.sortOrder_swap (key.valueOf a) (key.valueOf b)
  unfold OrderKey.compareRows
  cases key.direction with
  | ascending => exact h
  | descending => exact congrArg Ordering.swap h

theorem compareRows_swap (keys : List OrderKey) (a b : Value) :
    compareRows keys b a = (compareRows keys a b).swap := by
  induction keys with
  | nil => rfl
  | cons key rest ih => rw [compareRows, compareRows, key.compareRows_swap a b, ih,
      Ordering.swap_then]

instance (key : OrderKey) : OrientedCmp key.compareRows := ⟨key.compareRows_swap _ _⟩

instance (keys : List OrderKey) : OrientedCmp (compareRows keys) := ⟨compareRows_swap keys _ _⟩

/-- The sort order of values is transitive among those that the rows have under the keys. -/
def SortsTransitively (keys : List OrderKey) (rows : List Value) : Prop :=
  ∀ key ∈ keys, TransitiveOn Value.sortOrder (rows.map key.valueOf)

instance (keys : List OrderKey) (rows : List Value) : Decidable (SortsTransitively keys rows) :=
  inferInstanceAs (Decidable (∀ key ∈ keys, TransitiveOn Value.sortOrder (rows.map key.valueOf)))

theorem SortsTransitively.subset {keys : List OrderKey} {rows fewer : List Value}
    (h : SortsTransitively keys rows) (hsub : fewer ⊆ rows) : SortsTransitively keys fewer :=
  fun key hkey => TransitiveOn.subset (h key hkey) (List.map_subset key.valueOf hsub)

/-- The comparison by one key is transitive, in either direction. -/
theorem OrderKey.transitiveOn_compareRows (key : OrderKey) {rows : List Value}
    (h : TransitiveOn Value.sortOrder (rows.map key.valueOf)) :
    TransitiveOn key.compareRows rows := by
  have hmem : ∀ row ∈ rows, key.valueOf row ∈ rows.map key.valueOf :=
    fun row => List.mem_map_of_mem
  intro a ha b hb c hc hab hbc
  unfold OrderKey.compareRows at hab hbc ⊢
  cases hdir : key.direction with
  | ascending =>
    rw [hdir] at hab hbc
    exact h _ (hmem a ha) _ (hmem b hb) _ (hmem c hc) hab hbc
  | descending =>
    simp only [hdir, ← Value.sortOrder_swap] at hab hbc ⊢
    exact h _ (hmem c hc) _ (hmem b hb) _ (hmem a ha) hbc hab

/-- The comparison by all keys is transitive if the one by each key is. -/
theorem transitiveOn_compareRows {keys : List OrderKey} {rows : List Value}
    (h : SortsTransitively keys rows) : TransitiveOn (compareRows keys) rows := by
  induction keys with
  | nil => intro a _ b _ c _ _ _; rfl
  | cons key rest ih =>
    have hkey := key.transitiveOn_compareRows (h key List.mem_cons_self)
    have hrest := ih (fun k hk => h k (List.mem_cons_of_mem _ hk))
    intro a ha b hb c hc hab hbc
    rw [compareRows, Ordering.isLE_then_iff_and] at hab hbc ⊢
    have hac := hkey a ha b hb c hc hab.1 hbc.1
    refine ⟨hac, ?_⟩
    -- if the key does not tell the outer rows apart, it does not tell the middle one from either
    by_cases heq : key.compareRows a c = .eq
    · right
      have hca : (key.compareRows c a).isLE := Ordering.isLE_of_eq_eq (OrientedCmp.eq_symm heq)
      have hcb := hkey c hc a ha b hb hca hab.1
      have hba := hkey b hb c hc a ha hbc.1 hca
      have hab_eq : key.compareRows a b ≠ .lt := by
        intro hlt
        rw [key.compareRows_swap a b, hlt] at hba
        simp at hba
      have hbc_eq : key.compareRows b c ≠ .lt := by
        intro hlt
        rw [key.compareRows_swap b c, hlt] at hcb
        simp at hcb
      exact hrest a ha b hb c hc (hab.2.resolve_left hab_eq) (hbc.2.resolve_left hbc_eq)
    · left
      cases hcase : key.compareRows a c with
      | lt => rfl
      | eq => exact absurd hcase heq
      | gt => simp [hcase] at hac

/-! ## Sorting steps -/

variable {keys : List OrderKey} {rows sorted : List Value}

theorem sort_eq_of_sortRows (h : sortRows keys rows = .ok sorted) :
    Driftsort.sort (compareRows keys) rows = some sorted := by
  rw [sortRows] at h
  split at h
  · next hsorted => rw [hsorted, Except.ok.inj h]
  · cases h

/-- Where the order is transitive a sorting step gives the stable sort of the rows. -/
theorem sortRows_eq_ok_iff (h : SortsTransitively keys rows) :
    sortRows keys rows = .ok sorted ↔ IsStableSort (compareRows keys) rows sorted := by
  rw [← sort_eq_some_iff (transitiveOn_compareRows h), sortRows]
  cases Driftsort.sort (compareRows keys) rows <;> simp

/-- Where the order is transitive a sorting step does not fail. -/
theorem exists_sortRows (h : SortsTransitively keys rows) :
    ∃ sorted, sortRows keys rows = .ok sorted ∧ IsStableSort (compareRows keys) rows sorted := by
  obtain ⟨sorted, hsorted⟩ := exists_sort (transitiveOn_compareRows h)
  refine ⟨sorted, ?_, (sort_eq_some_iff (transitiveOn_compareRows h)).mp hsorted⟩
  rw [sortRows, hsorted]

/-- A sorting step neither loses nor adds rows. -/
theorem perm_of_sortRows (h : sortRows keys rows = .ok sorted) : sorted.Perm rows :=
  perm_of_sort_eq_some (sort_eq_of_sortRows h)

/-- A sorting step fails only for more than twenty rows on which the order is not transitive. -/
theorem of_sortRows_error {e : RunError} (h : sortRows keys rows = .error e) :
    e = .disorder ∧ 20 < rows.length ∧ ¬ SortsTransitively keys rows := by
  rw [sortRows] at h
  split at h
  · cases h
  · next hnone =>
    obtain ⟨hmany, htrans⟩ := not_transitiveOn_of_sort_eq_none hnone
    exact ⟨(Except.error.inj h).symm, hmany, fun hsorts => htrans (transitiveOn_compareRows hsorts)⟩

/-- Rows may be left out before or after they are sorted. -/
theorem sortRows_filter (h : SortsTransitively keys rows) (p : Value → Bool) :
    sortRows keys (rows.filter p) = (sortRows keys rows).map (List.filter p) := by
  obtain ⟨sorted, hsorted, hstable⟩ := exists_sortRows h
  rw [hsorted, map_ok, sortRows_eq_ok_iff (h.subset List.filter_sublist.subset)]
  exact hstable.filter p

/-- Without keys the rows stay as they are. -/
@[simp] theorem sortRows_nil (rows : List Value) : sortRows [] rows = .ok rows := by
  have htrans : SortsTransitively [] rows := fun key hkey => by cases hkey
  exact (sortRows_eq_ok_iff htrans).mpr (.refl (List.pairwise_of_forall fun _ _ => rfl))

end DocQuery
