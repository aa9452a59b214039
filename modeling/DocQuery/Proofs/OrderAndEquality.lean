import DocQuery.Proofs.NumberRounding
import DocQuery.Proofs.ValueOrder

set_option autoImplicit false

/-! # Order and equality of values

Equality is defined for all values and the order only for some, and each goes through arrays in a
way of its own. They agree where both speak: values that compare equal are equal, and equal values
compare equal or not at all (`compare?_of_equals`). Which of the two it is does not depend on the
values but on their form: objects are incomparable, so that an array with an object in it, at any
depth, does not even compare equal with itself. -/

namespace DocQuery

namespace Value

mutual

/-- No object is in the value, at any depth. -/
def hasNoObject : Value → Bool
  | .array items => itemsHaveNoObject items
  | .object _ => false
  | _ => true

/-- No object is in the items of an array. -/
def itemsHaveNoObject : List Value → Bool
  | [] => true
  | item :: rest => item.hasNoObject && itemsHaveNoObject rest

end

/-! ## Values that compare equal -/

mutual

/-- Values that compare equal are equal. -/
theorem equals_of_compare? : ∀ a b : Value, a.compare? b = some .eq → a.equals b = true
  | .null, b, h => by cases b <;> simp_all [compare?, equals]
  | .bool x, b, h => by cases b <;> simp_all [compare?, equals]
  | .number x, b, h => by
    cases b with
    | number y =>
      rw [compare?, Option.some_inj] at h
      rw [equals, x.equals_eq_compare y, h]
      rfl
    | _ => simp [compare?] at h
  | .string x, b, h => by cases b <;> simp_all [compare?, equals]
  | .array xs, b, h => by
    cases b with
    | array ys =>
      rw [compare?] at h
      rw [equals]
      exact equalItems_of_compareItems? xs ys h
    | _ => simp [compare?] at h
  | .object xs, b, h => by simp [compare?] at h

theorem equalItems_of_compareItems? : ∀ xs ys : List Value,
    compareItems? xs ys = some .eq → equalItems xs ys = true
  | [], [], _ => by rw [equalItems]
  | [], _ :: _, h => by simp [compareItems?] at h
  | _ :: _, [], h => by simp [compareItems?] at h
  | x :: xs, y :: ys, h => by
    rw [compareItems?] at h
    -- the rest is compared only if the first items compare equal
    cases hxy : x.compare? y with
    | none => simp [hxy] at h
    | some order =>
      cases order with
      | eq =>
        rw [hxy] at h
        rw [equalItems, equals_of_compare? x y hxy, equalItems_of_compareItems? xs ys h]
        rfl
      | _ => simp [hxy] at h

end

/-! ## Equal values that are compared -/

mutual

/-- Equal values compare equal if there is no object in them; else they do not compare. -/
theorem compare?_of_equals : ∀ a b : Value, a.equals b = true →
    a.compare? b = if a.hasNoObject then some .eq else none
  | .null, b, h => by cases b <;> simp_all [compare?, equals, hasNoObject]
  | .bool x, b, h => by cases b <;> simp_all [compare?, equals, hasNoObject]
  | .number x, b, h => by
    cases b with
    | number y =>
      rw [equals, x.equals_eq_compare y, beq_iff_eq] at h
      simp [compare?, hasNoObject, h]
    | _ => simp [equals] at h
  | .string x, b, h => by cases b <;> simp_all [compare?, equals, hasNoObject]
  | .array xs, b, h => by
    cases b with
    | array ys =>
      rw [equals] at h
      rw [compare?, hasNoObject]
      exact compareItems?_of_equalItems xs ys h
    | _ => simp [equals] at h
  | .object xs, b, h => by simp [compare?, hasNoObject]

theorem compareItems?_of_equalItems : ∀ xs ys : List Value, equalItems xs ys = true →
    compareItems? xs ys = if itemsHaveNoObject xs then some .eq else none
  | [], [], _ => by rw [compareItems?, itemsHaveNoObject, if_pos rfl]
  | [], _ :: _, h => by simp [equalItems] at h
  | _ :: _, [], h => by simp [equalItems] at h
  | x :: xs, y :: ys, h => by
    rw [equalItems, Bool.and_eq_true] at h
    have hfirst := compare?_of_equals x y h.1
    have hrest := compareItems?_of_equalItems xs ys h.2
    rw [compareItems?, itemsHaveNoObject, hfirst]
    cases x.hasNoObject with
    | true => simpa using hrest
    | false => rfl

end

variable {a b : Value}

theorem compare?_eq_iff :
    a.compare? b = some .eq ↔ a.equals b = true ∧ a.hasNoObject = true := by
  constructor
  · intro h
    have hequal := equals_of_compare? a b h
    rw [compare?_of_equals a b hequal] at h
    refine ⟨hequal, ?_⟩
    by_contra hobject
    rw [if_neg hobject] at h
    cases h
  · rintro ⟨hequal, hobject⟩
    rw [compare?_of_equals a b hequal, if_pos hobject]

/-- Equal values that compare compare equal. -/
theorem compare?_eq_of_isSome (hequal : a.equals b = true) (h : (a.compare? b).isSome = true) :
    a.compare? b = some .eq := by
  rw [compare?_of_equals a b hequal] at h ⊢
  split at h
  · next hobject => rw [if_pos hobject]
  · cases h

/-- Values of different kinds do not compare. -/
theorem compare?_of_kind_ne (h : a.kind ≠ b.kind) : a.compare? b = none := by
  cases a <;> cases b <;> simp_all [kind, compare?]

end Value

/-! ## The comparisons of a query -/

namespace Comparison

variable {a b : Value}

theorem le_holds_iff : Comparison.le.holds a b = true ↔
    Comparison.lt.holds a b = true ∨ (a.compare? b).isSome = true ∧ a.equals b = true := by
  simp only [holds, Bool.or_eq_true, beq_iff_eq]
  refine or_congr_right ⟨fun h => ?_, fun h => Value.compare?_eq_of_isSome h.2 h.1⟩
  exact ⟨by rw [h]; rfl, Value.equals_of_compare? a b h⟩

theorem lt_holds_eq (a b : Value) : Comparison.lt.holds a b = Comparison.gt.holds b a := by
  rw [holds, holds, Value.compare?_swap a b]
  cases a.compare? b with
  | none => rfl
  | some order => cases order <;> rfl

/-- No two of "less", "equal" and "greater" hold. -/
theorem countP_holds_le_one (a b : Value) :
    [Comparison.lt, .eq, .gt].countP (·.holds a b) ≤ 1 := by
  cases hequal : a.equals b with
  | true =>
    -- neither order holds of equal values
    have hcompare := Value.compare?_of_equals a b hequal
    cases hobject : a.hasNoObject <;> simp [holds, hequal, hcompare, hobject]
  | false =>
    cases hcompare : a.compare? b with
    | none => simp [holds, hequal, hcompare]
    | some order => cases order <;> simp [holds, hequal, hcompare]

/-- No order holds of values of different kinds. -/
theorem holds_of_kind_ne (h : a.kind ≠ b.kind) {comparison : Comparison}
    (hmem : comparison ∈ [Comparison.lt, .le, .gt, .ge]) : comparison.holds a b = false := by
  have hcompare := Value.compare?_of_kind_ne h
  cases comparison <;> simp_all [holds]

end Comparison

/-! ## Main statement -/

/-- Exchanging two values turns their order around, if they have one. They compare equal if and only
    if they are equal and no object is in them. So at most one of "less", "equal" and "greater"
    holds; "at most" holds if and only if "less" does or the values compare and are equal; "less" is
    "greater" from the other side; and values of different kinds pass no test of order. -/
theorem order_agrees_with_equality (a b : Value) :
    b.compare? a = (a.compare? b).map Ordering.swap ∧
    (a.compare? b = some .eq ↔ a.equals b = true ∧ a.hasNoObject = true) ∧
    [Comparison.lt, .eq, .gt].countP (·.holds a b) ≤ 1 ∧
    (Comparison.le.holds a b = true ↔
      Comparison.lt.holds a b = true ∨ (a.compare? b).isSome = true ∧ a.equals b = true) ∧
    Comparison.lt.holds a b = Comparison.gt.holds b a ∧
    (a.kind ≠ b.kind →
      ∀ comparison ∈ [Comparison.lt, .le, .gt, .ge], comparison.holds a b = false) :=
  ⟨Value.compare?_swap a b, Value.compare?_eq_iff, Comparison.countP_holds_le_one a b,
    Comparison.le_holds_iff, Comparison.lt_holds_eq a b,
    fun hkind _ hmem => Comparison.holds_of_kind_ne hkind hmem⟩

/-- A number in two forms compares equal in arrays, but no longer if an object is beside it; and no
    order relates a number to its text. -/
theorem order_agrees_with_equality_object_beside :
    let whole : Value := .number (.integer 1 (by decide))
    let double : Value := .number (.double ⟨false, 2 ^ 52, -52, by decide, by decide, by decide⟩)
    let flat : Value := .array [.array [whole], .null]
    let flat' : Value := .array [.array [double], .null]
    let deep : Value := .array [.array [whole], .object []]
    let deep' : Value := .array [.array [double], .object []]
    whole.kind ≠ (Value.string "1").kind ∧ flat.compare? flat' = some .eq ∧
      (deep.equals deep' = true ∧ deep.compare? deep' ≠ some .eq) ∧
      Comparison.le.holds whole (.string "1") = false := by
  intro whole double flat flat' deep deep'
  have hkind : whole.kind ≠ (Value.string "1").kind := by decide
  have hflat : flat.equals flat' = true ∧ flat.hasNoObject = true := by decide +kernel
  have hdeep : deep.equals deep' = true ∧ deep.hasNoObject = false := by decide +kernel
  obtain ⟨-, hflat_iff, -⟩ := order_agrees_with_equality flat flat'
  obtain ⟨-, hdeep_iff, -⟩ := order_agrees_with_equality deep deep'
  obtain ⟨-, -, -, -, -, hnone⟩ := order_agrees_with_equality whole (.string "1")
  refine ⟨hkind, hflat_iff.mpr hflat, ⟨hdeep.1, fun h => ?_⟩, hnone hkind .le (by simp)⟩
  have hobject := (hdeep_iff.mp h).2
  rw [hdeep.2] at hobject
  cases hobject

end DocQuery
