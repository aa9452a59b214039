import DocQuery.Proofs.NumberRounding
import DocQuery.Proofs.ValueOrder

set_option autoImplicit false

/-! # Where the sort order is transitive

Two arrays have an order only if their first unequal items have one, and the sort order takes arrays
without an order for equal. So an array may tie with two others of which one comes after the other
(`arrays_sort_in_circle`). Where there is an order it is transitive (`Value.compare?_then`),
provided that numbers are compared by value; hence the sort order is transitive among values whose
arrays have an order (`sortOrder_is_preorder`). Objects never have one and all tie, which does no
harm. -/

namespace DocQuery

open Std

/-! ## Numbers that are compared -/

mutual

/-- The numbers in a value, outside of objects, into which no comparison looks. -/
def Value.numbers : Value → List Number
  | .number n => [n]
  | .array items => itemNumbers items
  | _ => []

/-- The numbers in the items of an array. -/
def itemNumbers : List Value → List Number
  | [] => []
  | item :: rest => item.numbers ++ itemNumbers rest

end

/-- The numbers are compared by their exact values. -/
def ComparedByValue (numbers : List Number) : Prop :=
  ∀ m ∈ numbers, ∀ n ∈ numbers, m.compare n = Ord.compare m.value n.value

theorem ComparedByValue.mono {numbers fewer : List Number} (h : ComparedByValue numbers)
    (hsub : fewer ⊆ numbers) : ComparedByValue fewer :=
  fun m hm n hn => h m (hsub hm) n (hsub hn)

/-- Signed words are compared by value, and so are numbers that need no rounding. -/
theorem comparedByValue_of_exact {numbers : List Number}
    (h : (∀ n ∈ numbers, n.isSigned = true) ∨ ∀ n ∈ numbers, IsShort n.value) :
    ComparedByValue numbers := by
  intro m hm n hn
  rw [Number.compare_eq_compare_value_iff]
  rcases h with hsigned | hshort
  · exact Or.inl ⟨hsigned m hm, hsigned n hn⟩
  · right
    rw [Number.rounded_of_isShort (hshort m hm), Number.rounded_of_isShort (hshort n hn)]
    exact em _

/-! ## Transitivity of the partial order -/

/-- Two steps that do not go down make one step, which goes up if either of them does. -/
theorem cmp_then {α : Type} {cmp : α → α → Ordering} [TransCmp cmp] {a b c : α}
    (hab : (cmp a b).isLE) (hbc : (cmp b c).isLE) : cmp a c = (cmp a b).then (cmp b c) := by
  cases h : cmp a b with
  | lt => exact TransCmp.lt_of_lt_of_isLE h hbc
  | eq => exact TransCmp.congr_left h
  | gt => simp [h] at hab

namespace Value

/-- The first items of two lists decide, unless they are equal. -/
theorem compareItems?_cons {x y : Value} {xs ys : List Value} {p : Ordering}
    (h : compareItems? (x :: xs) (y :: ys) = some p) :
    ∃ first, x.compare? y = some first ∧
      (first = .eq ∧ compareItems? xs ys = some p ∨ first ≠ .eq ∧ p = first) := by
  rw [compareItems?] at h
  split at h
  · next heq => exact ⟨.eq, heq, Or.inl ⟨rfl, h⟩⟩
  · next hne => exact ⟨p, h, Or.inr ⟨fun he => hne (he ▸ h), rfl⟩⟩

mutual

theorem compare?_then : ∀ (a b c : Value) {p q : Ordering},
    ComparedByValue (a.numbers ++ b.numbers ++ c.numbers) → a.compare? b = some p →
      b.compare? c = some q → p.isLE → q.isLE → a.compare? c = some (p.then q)
  | .null, b, c, p, q, _, hab, hbc, _, _ => by
    cases b with
    | null =>
      cases c with
      | null =>
        rw [compare?] at hab hbc ⊢
        obtain rfl := Option.some.inj hab
        exact hbc
      | _ => simp [compare?] at hbc
    | _ => simp [compare?] at hab
  | .bool x, b, c, p, q, _, hab, hbc, hp, hq => by
    cases b with
    | bool y =>
      cases c with
      | bool z =>
        rw [compare?] at hab hbc ⊢
        obtain rfl := Option.some.inj hab
        obtain rfl := Option.some.inj hbc
        rw [cmp_then hp hq]
      | _ => simp [compare?] at hbc
    | _ => simp [compare?] at hab
  | .number x, b, c, p, q, h, hab, hbc, hp, hq => by
    cases b with
    | number y =>
      cases c with
      | number z =>
        rw [compare?] at hab hbc ⊢
        obtain rfl := Option.some.inj hab
        obtain rfl := Option.some.inj hbc
        have hxy := h x (by simp [numbers]) y (by simp [numbers])
        have hyz := h y (by simp [numbers]) z (by simp [numbers])
        have hxz := h x (by simp [numbers]) z (by simp [numbers])
        rw [hxy] at hp
        rw [hyz] at hq
        rw [hxz, hxy, hyz, cmp_then hp hq]
      | _ => simp [compare?] at hbc
    | _ => simp [compare?] at hab
  | .string x, b, c, p, q, _, hab, hbc, hp, hq => by
    cases b with
    | string y =>
      cases c with
      | string z =>
        rw [compare?] at hab hbc ⊢
        obtain rfl := Option.some.inj hab
        obtain rfl := Option.some.inj hbc
        rw [cmp_then hp hq]
      | _ => simp [compare?] at hbc
    | _ => simp [compare?] at hab
  | .array xs, b, c, p, q, h, hab, hbc, hp, hq => by
    cases b with
    | array ys =>
      cases c with
      | array zs =>
        rw [compare?] at hab hbc ⊢
        exact compareItems?_then xs ys zs h hab hbc hp hq
      | _ => simp [compare?] at hbc
    | _ => simp [compare?] at hab
  | .object _, b, _, _, _, _, hab, _, _, _ => by simp [compare?] at hab

theorem compareItems?_then : ∀ (xs ys zs : List Value) {p q : Ordering},
    ComparedByValue (itemNumbers xs ++ itemNumbers ys ++ itemNumbers zs) →
      compareItems? xs ys = some p → compareItems? ys zs = some q → p.isLE → q.isLE →
        compareItems? xs zs = some (p.then q)
  | [], [], zs, p, q, _, hxy, hyz, _, _ => by
    rw [compareItems?] at hxy
    obtain rfl := Option.some.inj hxy
    exact hyz
  | [], _ :: _, [], p, q, _, _, hyz, _, hq => by
    rw [compareItems?] at hyz
    obtain rfl := Option.some.inj hyz
    cases hq
  | [], _ :: _, _ :: _, p, q, _, hxy, _, _, _ => by
    rw [compareItems?] at hxy ⊢
    obtain rfl := Option.some.inj hxy
    rfl
  | _ :: _, [], _, p, q, _, hxy, _, hp, _ => by
    rw [compareItems?] at hxy
    obtain rfl := Option.some.inj hxy
    cases hp
  | _ :: _, _ :: _, [], p, q, _, _, hyz, _, hq => by
    rw [compareItems?] at hyz
    obtain rfl := Option.some.inj hyz
    cases hq
  | x :: xs, y :: ys, z :: zs, p, q, h, hxy, hyz, hp, hq => by
    have hfirst : ComparedByValue (x.numbers ++ y.numbers ++ z.numbers) := by
      refine h.mono ?_
      intro n hn
      simp only [itemNumbers, List.mem_append] at hn ⊢
      tauto
    have hrest : ComparedByValue (itemNumbers xs ++ itemNumbers ys ++ itemNumbers zs) := by
      refine h.mono ?_
      intro n hn
      simp only [itemNumbers, List.mem_append] at hn ⊢
      tauto
    obtain ⟨first, hfirst_xy, hxy⟩ := compareItems?_cons hxy
    obtain ⟨second, hfirst_yz, hyz⟩ := compareItems?_cons hyz
    have hfirst_le : first.isLE := by
      rcases hxy with ⟨rfl, -⟩ | ⟨-, rfl⟩
      · rfl
      · exact hp
    have hsecond_le : second.isLE := by
      rcases hyz with ⟨rfl, -⟩ | ⟨-, rfl⟩
      · rfl
      · exact hq
    have hxz := compare?_then x y z hfirst hfirst_xy hfirst_yz hfirst_le hsecond_le
    rw [compareItems?, hxz]
    rcases hxy with ⟨rfl, hxy⟩ | ⟨hne, rfl⟩
    · rcases hyz with ⟨rfl, hyz⟩ | ⟨hne, rfl⟩
      · exact compareItems?_then xs ys zs hrest hxy hyz hp hq
      · -- the first items of the last two lists decide
        obtain rfl := (Ordering.isLE_iff_eq_lt_or_eq_eq.mp hq).resolve_right hne
        cases p with
        | gt => cases hp
        | _ => rfl
    · -- the first items of the first two lists decide
      obtain rfl := (Ordering.isLE_iff_eq_lt_or_eq_eq.mp hp).resolve_right hne
      rfl

end

/-! ## Transitivity of the sort order -/

/-- The values have an order if they are arrays. -/
def AreOrdered (a b : Value) : Prop :=
  a.kind = .array → b.kind = .array → (a.compare? b).isSome = true

theorem compare?_of_object {a b : Value} (h : a.kind = .object) : a.compare? b = none := by
  cases a with
  | object fields => simp [compare?]
  | _ => cases h

/-- Values of one kind have an order, but for objects and some arrays. -/
theorem exists_compare?_of_kind_eq {a b : Value} (hkind : a.kind = b.kind) (h : a.AreOrdered b)
    (hobject : a.kind ≠ .object) : ∃ order, a.compare? b = some order := by
  cases a with
  | array items => exact Option.isSome_iff_exists.mp (h rfl hkind.symm)
  | object fields => exact absurd rfl hobject
  | _ => cases b <;> simp_all [kind, compare?]

theorem kind_eq_of_rank_eq {k l : Kind} (h : k.rank = l.rank) : k = l := by
  cases k <;> cases l <;> simp_all [Kind.rank]

theorem sortOrder_eq_then (a b : Value) :
    a.sortOrder b = (Ord.compare a.kind.rank b.kind.rank).then ((a.compare? b).getD .eq) := by
  unfold sortOrder
  cases Ord.compare a.kind.rank b.kind.rank <;> rfl

theorem sortOrder_self (a : Value) : a.sortOrder a = .eq := by
  have h := sortOrder_swap a a
  cases hself : a.sortOrder a with
  | eq => rfl
  | _ => simp [hself] at h

section Transitivity

variable {a b c : Value} (hnumbers : ComparedByValue (a.numbers ++ b.numbers ++ c.numbers))
  (hab : a.AreOrdered b) (hbc : b.AreOrdered c)
include hnumbers hab hbc

/-- Among values of one kind the order is transitive; objects all tie. -/
theorem isLE_compare?_trans (hkab : a.kind = b.kind) (hkbc : b.kind = c.kind)
    (hleab : ((a.compare? b).getD .eq).isLE) (hlebc : ((b.compare? c).getD .eq).isLE) :
    ((a.compare? c).getD .eq).isLE := by
  by_cases hobject : a.kind = .object
  · rw [compare?_of_object hobject]
    rfl
  · obtain ⟨p, hp⟩ := exists_compare?_of_kind_eq hkab hab hobject
    obtain ⟨q, hq⟩ := exists_compare?_of_kind_eq hkbc hbc (hkab ▸ hobject)
    rw [hp, Option.getD_some] at hleab
    rw [hq, Option.getD_some] at hlebc
    rw [compare?_then a b c hnumbers hp hq hleab hlebc, Option.getD_some]
    exact Ordering.isLE_then_iff_and.mpr ⟨hleab, Or.inr hlebc⟩

theorem sortOrder_trans (hleab : (a.sortOrder b).isLE) (hlebc : (b.sortOrder c).isLE) :
    (a.sortOrder c).isLE := by
  rw [sortOrder_eq_then, Ordering.isLE_then_iff_and] at hleab hlebc ⊢
  obtain ⟨hrank_ab, hab_lt | hab_le⟩ := hleab
  · rw [cmp_then hrank_ab hlebc.1, hab_lt]
    exact ⟨rfl, Or.inl rfl⟩
  obtain ⟨hrank_bc, hbc_lt | hbc_le⟩ := hlebc
  · rw [cmp_then hrank_ab hrank_bc, hbc_lt]
    cases h : Ord.compare a.kind.rank b.kind.rank with
    | gt => simp [h] at hrank_ab
    | _ => exact ⟨rfl, Or.inl rfl⟩
  refine ⟨TransCmp.isLE_trans hrank_ab hrank_bc, ?_⟩
  rw [or_iff_not_imp_left]
  intro hnot
  -- no rank is lower than another, so the three values are of one kind
  have hac := TransCmp.isLE_trans hrank_ab hrank_bc
  rw [Nat.isLE_compare] at hrank_ab hrank_bc hac
  rw [Nat.compare_eq_lt] at hnot
  exact isLE_compare?_trans hnumbers hab hbc (kind_eq_of_rank_eq (by omega))
    (kind_eq_of_rank_eq (by omega)) hab_le hbc_le

end Transitivity

end Value

/-! ## Main statement -/

/-- The sort order is reflexive, and turns around with its arguments. It is transitive through a
    value that has an order with the other two, if they are arrays, provided that the numbers in
    them are compared by value; that is so for signed words, and for numbers that are no longer
    than a double may be. -/
theorem sortOrder_is_preorder (a b c : Value) (numbers : List Number) :
    a.sortOrder a = .eq ∧
    b.sortOrder a = (a.sortOrder b).swap ∧
    (ComparedByValue (a.numbers ++ b.numbers ++ c.numbers) →
      a.AreOrdered b → b.AreOrdered c →
      (a.sortOrder b).isLE → (b.sortOrder c).isLE → (a.sortOrder c).isLE) ∧
    ((∀ n ∈ numbers, n.isSigned = true) ∨ (∀ n ∈ numbers, IsShort n.value) →
      ComparedByValue numbers) :=
  ⟨a.sortOrder_self, a.sortOrder_swap b, Value.sortOrder_trans, comparedByValue_of_exact⟩

/-- Three arrays whose first unequal items are of one kind, pair by pair. -/
theorem sortOrder_is_preorder_mixed_items :
    let number (i : Int) (h : -2 ^ 63 ≤ i ∧ i < 2 ^ 64) : Value := .number (.integer i h)
    let a : Value := .array [.string "x", number 1 (by decide), .null]
    let b : Value := .array [.string "x", number 2 (by decide)]
    let c : Value := .array [.string "y", .bool true]
    ComparedByValue (a.numbers ++ b.numbers ++ c.numbers) ∧ a.AreOrdered b ∧ b.AreOrdered c ∧
      (a.sortOrder b).isLE ∧ (b.sortOrder c).isLE ∧ (a.sortOrder c).isLE := by
  intro number a b c
  obtain ⟨-, -, htrans, hsigned⟩ :=
    sortOrder_is_preorder a b c (a.numbers ++ b.numbers ++ c.numbers)
  have hnumbers := hsigned (Or.inl (by decide))
  have hab : a.AreOrdered b := fun _ _ => by decide +kernel
  have hbc : b.AreOrdered c := fun _ _ => by decide +kernel
  have hleab : (a.sortOrder b).isLE := by decide +kernel
  have hlebc : (b.sortOrder c).isLE := by decide +kernel
  exact ⟨hnumbers, hab, hbc, hleab, hlebc, htrans hnumbers hab hbc hleab hlebc⟩

/-- An array of a text has no order with arrays of numbers and ties with both of two that are not
    in order. A double that two whole numbers are rounded to ties with both of these as well. -/
theorem arrays_sort_in_circle :
    let number (i : Int) (h : -2 ^ 63 ≤ i ∧ i < 2 ^ 64) : Value := .number (.integer i h)
    let two : Value := .array [number 2 (by decide)]
    let text : Value := .array [.string "a"]
    let one : Value := .array [number 1 (by decide)]
    let odd : Value := number (2 ^ 53 + 1) (by decide)
    let rounded : Value := .number (.double ⟨false, 2 ^ 52, 1, by decide, by decide, by decide⟩)
    let even : Value := number (2 ^ 53) (by decide)
    ((two.sortOrder text).isLE ∧ (text.sortOrder one).isLE ∧ two.sortOrder one = .gt) ∧
      ((odd.sortOrder rounded).isLE ∧ (rounded.sortOrder even).isLE ∧
        odd.sortOrder even = .gt) := by
  decide +kernel

end DocQuery
