import Mathlib.Data.List.Forall2
import Mathlib.Data.List.Perm.Subperm
import DocQuery.Proofs.RepeatedWrites
import DocQuery.Value.Order

set_option autoImplicit false

/-! # Equality of values

Equality is reflexive and symmetric on values whose objects have distinct names
(`Value.hasDistinctNames`), as every value has that was read or built by writing fields. It is not
transitive: a whole number and a double are compared after rounding, so from `2 ^ 53` on one double
may equal several whole numbers. A value that equals no two different ones is sharp
(`Value.IsSharp`), and a value is sharp if each of its numbers is a signed word or lies below
`2 ^ 53` (`Value.isSharp_of_comparesExactly`). -/

namespace DocQuery

/-! ## Distinct names -/

mutual

/-- No object in the value, at any depth, has two fields of one name. -/
def Value.hasDistinctNames : Value → Bool
  | .array items => itemsHaveDistinctNames items
  | .object fields => decide (Assoc.keys fields).Nodup && fieldsHaveDistinctNames fields
  | _ => true

/-- The items of an array have distinct names. -/
def itemsHaveDistinctNames : List Value → Bool
  | [] => true
  | item :: rest => item.hasDistinctNames && itemsHaveDistinctNames rest

/-- The values of fields have distinct names. -/
def fieldsHaveDistinctNames : List (String × Value) → Bool
  | [] => true
  | (_, v) :: rest => v.hasDistinctNames && fieldsHaveDistinctNames rest

end

theorem itemsHaveDistinctNames_iff (items : List Value) :
    itemsHaveDistinctNames items = true ↔ ∀ item ∈ items, item.hasDistinctNames = true := by
  induction items with
  | nil => simp [itemsHaveDistinctNames]
  | cons item rest ih => simp [itemsHaveDistinctNames, ih]

theorem fieldsHaveDistinctNames_iff (fields : List (String × Value)) :
    fieldsHaveDistinctNames fields = true ↔ ∀ e ∈ fields, e.2.hasDistinctNames = true := by
  induction fields with
  | nil => simp [fieldsHaveDistinctNames]
  | cons e rest ih => simp [fieldsHaveDistinctNames, ih]

theorem Value.hasDistinctNames_array {items : List Value} :
    (Value.array items).hasDistinctNames = true ↔
      ∀ item ∈ items, item.hasDistinctNames = true := by
  rw [hasDistinctNames, itemsHaveDistinctNames_iff]

theorem Value.hasDistinctNames_object {fields : List (String × Value)} :
    (Value.object fields).hasDistinctNames = true ↔
      (Assoc.keys fields).Nodup ∧ ∀ e ∈ fields, e.2.hasDistinctNames = true := by
  rw [hasDistinctNames, Bool.and_eq_true, decide_eq_true_eq, fieldsHaveDistinctNames_iff]

/-- The value of a field has distinct names if the object has. -/
theorem Value.hasDistinctNames_of_field {row v : Value} {name : String}
    (h : row.hasDistinctNames = true) (hfield : row.field? name = some v) :
    v.hasDistinctNames = true := by
  cases row with
  | object fields =>
    exact (hasDistinctNames_object.mp h).2 _ (Assoc.mem_of_lookup hfield)
  | _ => cases hfield

/-! ## Equality of numbers -/

namespace Number

theorem equals_self (n : Number) : n.equals n = true := by
  unfold equals
  cases n.signed? <;> simp

theorem equals_comm (a b : Number) : a.equals b = b.equals a := by
  unfold equals
  cases a.signed? <;> cases b.signed? <;> exact BEq.comm

end Number

/-! ## What equality of items and fields says -/

namespace Value

theorem equalItems_iff (xs ys : List Value) :
    equalItems xs ys = true ↔ List.Forall₂ (fun x y => x.equals y = true) xs ys := by
  induction xs generalizing ys with
  | nil => cases ys <;> simp [equalItems]
  | cons x xs ih => cases ys <;> simp [equalItems, ih]

theorem equalFields_iff (xs ys : List (String × Value)) :
    equalFields xs ys = true ↔
      ∀ e ∈ xs, ∃ w, ys.lookup e.1 = some w ∧ e.2.equals w = true := by
  induction xs with
  | nil => simp [equalFields]
  | cons e rest ih =>
    rw [equalFields, Bool.and_eq_true, ih, List.forall_mem_cons]
    refine and_congr_left (fun _ => ?_)
    cases ys.lookup e.1 <;> simp

theorem equals_object_iff {xs ys : List (String × Value)} :
    (object xs).equals (object ys) = true ↔ xs.length = ys.length ∧
      ∀ e ∈ xs, ∃ w, ys.lookup e.1 = some w ∧ e.2.equals w = true := by
  rw [equals, Bool.and_eq_true, beq_iff_eq, equalFields_iff]

/-- Two equal objects of distinct names have the same names. -/
theorem keys_subset_of_equals {xs ys : List (String × Value)} (hxs : (Assoc.keys xs).Nodup)
    (h : (object xs).equals (object ys) = true) : Assoc.keys ys ⊆ Assoc.keys xs := by
  obtain ⟨hlength, hfields⟩ := equals_object_iff.mp h
  have hsub : Assoc.keys xs ⊆ Assoc.keys ys := by
    intro name hname
    obtain ⟨e, he, rfl⟩ := List.mem_map.mp hname
    obtain ⟨w, hw, -⟩ := hfields e he
    exact List.mem_map.mpr ⟨_, Assoc.mem_of_lookup hw, rfl⟩
  have hperm := (List.subperm_of_subset hxs hsub).perm_of_length_le
    (by simp [Assoc.keys, hlength])
  exact hperm.symm.subset

/-! ## Reflexivity -/

mutual

/-- A value equals itself. -/
theorem equals_self : ∀ v : Value, v.hasDistinctNames = true → v.equals v = true
  | .null, _ => by rw [equals]
  | .bool b, _ => by rw [equals, beq_self_eq_true]
  | .number n, _ => by rw [equals, n.equals_self]
  | .string s, _ => by rw [equals, beq_self_eq_true]
  | .array items, h => by
    rw [equals, equalItems_iff, List.forall₂_same]
    exact items_equal_self items (hasDistinctNames_array.mp h)
  | .object fields, h => by
    obtain ⟨hnodup, hvalues⟩ := hasDistinctNames_object.mp h
    rw [equals_object_iff]
    refine ⟨rfl, fun e he => ⟨e.2, Assoc.lookup_of_mem hnodup he, ?_⟩⟩
    exact fields_equal_self fields hvalues e he

theorem items_equal_self : ∀ items : List Value, (∀ item ∈ items, item.hasDistinctNames = true) →
    ∀ item ∈ items, item.equals item = true
  | [], _ => by simp
  | x :: rest, h => by
    rw [List.forall_mem_cons] at h ⊢
    exact ⟨equals_self x h.1, items_equal_self rest h.2⟩

theorem fields_equal_self : ∀ fields : List (String × Value),
    (∀ e ∈ fields, e.2.hasDistinctNames = true) → ∀ e ∈ fields, e.2.equals e.2 = true
  | [], _ => by simp
  | (name, v) :: rest, h => by
    rw [List.forall_mem_cons] at h ⊢
    exact ⟨equals_self v h.1, fields_equal_self rest h.2⟩

end

/-! ## Symmetry -/

mutual

theorem equals_symm : ∀ a b : Value, a.hasDistinctNames = true → b.hasDistinctNames = true →
    a.equals b = true → b.equals a = true
  | .null, b, _, _, h => by cases b <;> simp_all [equals]
  | .bool x, b, _, _, h => by cases b <;> simp_all [equals]
  | .number x, b, _, _, h => by
    cases b with
    | number y =>
      rw [equals] at h ⊢
      rwa [Number.equals_comm]
    | _ => simp [equals] at h
  | .string x, b, _, _, h => by cases b <;> simp_all [equals]
  | .array xs, b, ha, hb, h => by
    cases b with
    | array ys =>
      rw [equals, equalItems_iff] at h ⊢
      exact items_equal_symm xs ys (hasDistinctNames_array.mp ha) (hasDistinctNames_array.mp hb) h
    | _ => simp [equals] at h
  | .object xs, b, ha, hb, h => by
    cases b with
    | object ys =>
      obtain ⟨hxs, hxvalues⟩ := hasDistinctNames_object.mp ha
      obtain ⟨hys, hyvalues⟩ := hasDistinctNames_object.mp hb
      have hsub := keys_subset_of_equals hxs h
      obtain ⟨hlength, hfields⟩ := equals_object_iff.mp h
      refine equals_object_iff.mpr ⟨hlength.symm, fun e he => ?_⟩
      -- the name stands in the other object too, once, and what stands there finds its way back
      obtain ⟨e', he', hname⟩ := List.mem_map.mp (hsub (List.mem_map_of_mem he))
      obtain ⟨w, hw, hequal⟩ := hfields e' he'
      rw [hname, Assoc.lookup_of_mem hys he] at hw
      obtain rfl := Option.some.inj hw
      refine ⟨e'.2, hname ▸ Assoc.lookup_of_mem hxs he', ?_⟩
      exact fields_equal_symm xs hxvalues e' he' e.2 (hyvalues e he) hequal
    | _ => simp [equals] at h

theorem items_equal_symm : ∀ xs ys : List Value, (∀ x ∈ xs, x.hasDistinctNames = true) →
    (∀ y ∈ ys, y.hasDistinctNames = true) → List.Forall₂ (fun x y => x.equals y = true) xs ys →
    List.Forall₂ (fun y x => y.equals x = true) ys xs
  | [], ys, _, _, h => by
    cases h
    exact List.Forall₂.nil
  | x :: xs, ys, hxs, hys, h => by
    cases h with
    | cons hfirst hrest =>
      rw [List.forall_mem_cons] at hxs hys
      exact List.Forall₂.cons (equals_symm x _ hxs.1 hys.1 hfirst)
        (items_equal_symm xs _ hxs.2 hys.2 hrest)

theorem fields_equal_symm : ∀ fields : List (String × Value),
    (∀ e ∈ fields, e.2.hasDistinctNames = true) → ∀ e ∈ fields, ∀ w : Value,
      w.hasDistinctNames = true → e.2.equals w = true → w.equals e.2 = true
  | [], _ => by simp
  | (name, v) :: rest, h => by
    rw [List.forall_mem_cons] at h ⊢
    exact ⟨fun w hw hequal => equals_symm v w h.1 hw hequal, fields_equal_symm rest h.2⟩

end

/-- Equality does not depend on the order of the two values. -/
theorem equals_comm {a b : Value} (ha : a.hasDistinctNames = true)
    (hb : b.hasDistinctNames = true) : a.equals b = b.equals a :=
  Bool.eq_iff_iff.mpr ⟨equals_symm a b ha hb, equals_symm b a hb ha⟩

end Value

/-! ## Sharp numbers -/

theorem le_roundHalfEven (num den : Nat) : num / den ≤ roundHalfEven num den := by
  unfold roundHalfEven
  simp only
  split_ifs <;> omega

/-- Rounding does not bring a large whole number below `2 ^ 53`. -/
theorem le_nearestDoubleNat {n : Nat} (h : 2 ^ 53 ≤ n) : 2 ^ 53 ≤ nearestDoubleNat n := by
  have hne : n ≠ 0 := by omega
  have hlog : 53 ≤ n.log2 := (Nat.le_log2 hne).mpr h
  have hunit : 2 ^ 52 * 2 ^ (n.log2 - 52) ≤ n := by
    rw [← Nat.pow_add, show 52 + (n.log2 - 52) = n.log2 by omega]
    exact Nat.log2_self_le hne
  have hquotient : 2 ^ 52 ≤ n / 2 ^ (n.log2 - 52) :=
    (Nat.le_div_iff_mul_le (Nat.two_pow_pos _)).mpr hunit
  have htwo : 2 ^ 1 ≤ 2 ^ (n.log2 - 52) := Nat.pow_le_pow_right (by decide) (by omega)
  rw [nearestDoubleNat, if_neg (by omega)]
  calc 2 ^ 53 = 2 ^ 52 * 2 ^ 1 := by decide
    _ ≤ n / 2 ^ (n.log2 - 52) * 2 ^ (n.log2 - 52) := Nat.mul_le_mul hquotient htwo
    _ ≤ _ := Nat.mul_le_mul_right _ (le_roundHalfEven _ _)

namespace Number

/-- The number is held as a signed word, or its magnitude lies below `2 ^ 53`. -/
def comparesExactly (n : Number) : Bool :=
  n.signed?.isSome || decide (n.scaled.natAbs < 2 ^ 53 * 2 ^ 1074)

theorem scaled_integer (i : Int) (h : -2 ^ 63 ≤ i ∧ i < 2 ^ 64) :
    (integer i h).scaled = if i < 0 then -(nearestDoubleNat i.natAbs * 2 ^ 1074 : Int)
      else nearestDoubleNat i.natAbs * 2 ^ 1074 := rfl

theorem natAbs_scaled_integer (i : Int) (h : -2 ^ 63 ≤ i ∧ i < 2 ^ 64) :
    (integer i h).scaled.natAbs = nearestDoubleNat i.natAbs * 2 ^ 1074 := by
  have htwo : (2 : Int).natAbs = 2 := rfl
  have hmagnitude : ((nearestDoubleNat i.natAbs : Int) * 2 ^ 1074).natAbs =
      nearestDoubleNat i.natAbs * 2 ^ 1074 := by
    rw [Int.natAbs_mul, Int.natAbs_pow, Int.natAbs_natCast, htwo]
  rw [scaled_integer]
  by_cases hneg : i < 0
  · rw [if_pos hneg, Int.natAbs_neg, hmagnitude]
  · rw [if_neg hneg, hmagnitude]

/-- A whole number below `2 ^ 53` is not rounded. -/
theorem scaled_integer_of_lt {i : Int} {h : -2 ^ 63 ≤ i ∧ i < 2 ^ 64}
    (hsmall : (integer i h).scaled.natAbs < 2 ^ 53 * 2 ^ 1074) :
    (integer i h).scaled = i * 2 ^ 1074 := by
  rw [natAbs_scaled_integer] at hsmall
  have hrounded : nearestDoubleNat i.natAbs < 2 ^ 53 := by
    generalize (2 : Nat) ^ 1074 = unit at hsmall
    exact Nat.lt_of_mul_lt_mul_right hsmall
  have hmagnitude : i.natAbs < 2 ^ 53 := by
    by_contra hlarge
    exact absurd (le_nearestDoubleNat (Nat.le_of_not_lt hlarge)) (by omega)
  have hexact : nearestDoubleNat i.natAbs = i.natAbs := by rw [nearestDoubleNat, if_pos hmagnitude]
  rw [scaled_integer, hexact]
  by_cases hneg : i < 0
  · rw [if_pos hneg, ← Int.neg_mul, show -(i.natAbs : Int) = i by omega]
  · rw [if_neg hneg, show (i.natAbs : Int) = i by omega]

theorem signed?_eq_some {n : Number} {i : Int} (h : n.signed? = some i) :
    ∃ hrange, n = integer i hrange := by
  cases n with
  | integer j hrange =>
    rw [signed?] at h
    split at h
    · obtain rfl := Option.some.inj h
      exact ⟨hrange, rfl⟩
    · cases h
  | double d => cases h

/-- Numbers that are equal are equal after rounding. -/
theorem scaled_eq_of_equals {a b : Number} (h : a.equals b = true) : a.scaled = b.scaled := by
  unfold equals at h
  split at h
  · next i j ha hb =>
    obtain ⟨hi, rfl⟩ := signed?_eq_some ha
    obtain ⟨hj, rfl⟩ := signed?_eq_some hb
    obtain rfl := eq_of_beq h
    rfl
  · exact eq_of_beq h

theorem equals_of_comparesExactly {a b n : Number} (hn : n.comparesExactly = true)
    (ha : a.equals n = true) (hb : b.equals n = true) : a.equals b = true := by
  have hscaled : a.scaled = b.scaled := (scaled_eq_of_equals ha).trans (scaled_eq_of_equals hb).symm
  unfold equals
  split
  · next i j hi hj =>
    -- two signed words that are equal after rounding: `n` has to tell them apart
    rw [comparesExactly, Bool.or_eq_true, decide_eq_true_eq] at hn
    rcases hn with hsigned | hsmall
    · obtain ⟨k, hk⟩ := Option.isSome_iff_exists.mp hsigned
      rw [equals, hi, hk] at ha
      rw [equals, hj, hk] at hb
      exact beq_iff_eq.mpr ((eq_of_beq ha).trans (eq_of_beq hb).symm)
    · rw [← scaled_eq_of_equals ha] at hsmall
      have hsmall' := hscaled ▸ hsmall
      obtain ⟨hrange, rfl⟩ := signed?_eq_some hi
      obtain ⟨hrange', rfl⟩ := signed?_eq_some hj
      rw [scaled_integer_of_lt hsmall, scaled_integer_of_lt hsmall'] at hscaled
      have hunit : (2 : Int) ^ 1074 ≠ 0 := Int.pow_ne_zero (by decide)
      exact beq_iff_eq.mpr (Int.eq_of_mul_eq_mul_right hunit hscaled)
  · exact beq_iff_eq.mpr hscaled

end Number

/-! ## Sharp values -/

/-- Values that equal `w` equal each other. -/
def Value.IsSharp (w : Value) : Prop :=
  ∀ a b : Value, a.hasDistinctNames = true → b.hasDistinctNames = true →
    a.equals w = true → b.equals w = true → a.equals b = true

mutual

/-- Every number in the value compares exactly. -/
def Value.comparesExactly : Value → Bool
  | .number n => n.comparesExactly
  | .array items => itemsCompareExactly items
  | .object fields => fieldsCompareExactly fields
  | _ => true

/-- Every number in the items compares exactly. -/
def itemsCompareExactly : List Value → Bool
  | [] => true
  | item :: rest => item.comparesExactly && itemsCompareExactly rest

/-- Every number in the values of fields compares exactly. -/
def fieldsCompareExactly : List (String × Value) → Bool
  | [] => true
  | (_, v) :: rest => v.comparesExactly && fieldsCompareExactly rest

end

namespace Value

mutual

theorem isSharp_of_comparesExactly : ∀ w : Value, w.comparesExactly = true → w.IsSharp
  | .null, _ => by
    intro a b _ _ ha hb
    cases a <;> cases b <;> simp_all [equals]
  | .bool x, _ => by
    intro a b _ _ ha hb
    cases a <;> cases b <;> simp_all [equals]
  | .number n, h => by
    intro a b _ _ ha hb
    rw [comparesExactly] at h
    cases a with
    | number x =>
      cases b with
      | number y =>
        rw [equals] at ha hb ⊢
        exact Number.equals_of_comparesExactly h ha hb
      | _ => simp [equals] at hb
    | _ => simp [equals] at ha
  | .string x, _ => by
    intro a b _ _ ha hb
    cases a <;> cases b <;> simp_all [equals]
  | .array zs, h => by
    intro a b hda hdb ha hb
    rw [comparesExactly] at h
    cases a with
    | array xs =>
      cases b with
      | array ys =>
        rw [equals, equalItems_iff] at ha hb ⊢
        exact items_equal_of_sharp zs h xs ys (hasDistinctNames_array.mp hda)
          (hasDistinctNames_array.mp hdb) ha hb
      | _ => simp [equals] at hb
    | _ => simp [equals] at ha
  | .object zs, h => by
    intro a b hda hdb ha hb
    rw [comparesExactly] at h
    cases a with
    | object xs =>
      cases b with
      | object ys =>
        obtain ⟨-, hxvalues⟩ := hasDistinctNames_object.mp hda
        obtain ⟨hys, hyvalues⟩ := hasDistinctNames_object.mp hdb
        have hsub := keys_subset_of_equals hys hb
        obtain ⟨hxlength, hxfields⟩ := equals_object_iff.mp ha
        obtain ⟨hylength, hyfields⟩ := equals_object_iff.mp hb
        refine equals_object_iff.mpr ⟨hxlength.trans hylength.symm, fun e he => ?_⟩
        obtain ⟨z, hz, hxz⟩ := hxfields e he
        have hmem := Assoc.mem_of_lookup hz
        obtain ⟨e', he', hname⟩ := List.mem_map.mp (hsub (List.mem_map_of_mem hmem))
        obtain ⟨z', hz', hyz⟩ := hyfields e' he'
        rw [hname, hz] at hz'
        obtain rfl := Option.some.inj hz'
        refine ⟨e'.2, ?_, ?_⟩
        · rw [← show e'.1 = e.1 from hname]
          exact Assoc.lookup_of_mem hys he'
        · exact fields_sharp zs h _ hmem e.2 e'.2 (hxvalues e he) (hyvalues e' he') hxz hyz
      | _ => simp [equals] at hb
    | _ => simp [equals] at ha

theorem items_equal_of_sharp : ∀ zs : List Value, itemsCompareExactly zs = true →
    ∀ xs ys : List Value, (∀ x ∈ xs, x.hasDistinctNames = true) →
      (∀ y ∈ ys, y.hasDistinctNames = true) →
      List.Forall₂ (fun x z => x.equals z = true) xs zs →
      List.Forall₂ (fun y z => y.equals z = true) ys zs →
      List.Forall₂ (fun x y => x.equals y = true) xs ys
  | [], _, xs, ys, _, _, hx, hy => by
    cases hx
    cases hy
    exact List.Forall₂.nil
  | z :: zs, h, xs, ys, hxs, hys, hx, hy => by
    rw [itemsCompareExactly, Bool.and_eq_true] at h
    cases hx with
    | cons hxfirst hxrest =>
      cases hy with
      | cons hyfirst hyrest =>
        rw [List.forall_mem_cons] at hxs hys
        exact List.Forall₂.cons
          (isSharp_of_comparesExactly z h.1 _ _ hxs.1 hys.1 hxfirst hyfirst)
          (items_equal_of_sharp zs h.2 _ _ hxs.2 hys.2 hxrest hyrest)

theorem fields_sharp : ∀ zs : List (String × Value), fieldsCompareExactly zs = true →
    ∀ e ∈ zs, e.2.IsSharp
  | [], _ => by simp
  | (name, z) :: rest, h => by
    rw [fieldsCompareExactly, Bool.and_eq_true] at h
    rw [List.forall_mem_cons]
    exact ⟨isSharp_of_comparesExactly z h.1, fields_sharp rest h.2⟩

end

end Value

end DocQuery
