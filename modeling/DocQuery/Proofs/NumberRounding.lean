import Mathlib.Algebra.Order.Field.Rat
import Mathlib.Order.Monotone.Basic
import Mathlib.Tactic.Linarith
import Mathlib.Tactic.Ring
import DocQuery.Proofs.ShortestDecimal
import DocQuery.Proofs.ValueEquality

set_option autoImplicit false

/-! # Comparison of numbers and their exact values

A number has an exact value (`Number.value`). Two numbers that fit signed words are compared by it;
any other two are first rounded, each to a nearest value of 53 significant bits
(`Number.abs_rounded_sub_value_le`). Rounding keeps the order (`Number.rounded_le_rounded`), so the
comparison never turns two values around and never tells equal values apart. All that it can do
wrong is to take two different values for equal, and it does so exactly if they are rounded to the
same one (`numbers_compare_by_rounded_value`). -/

namespace DocQuery

/-! ## Exact values -/

/-- The value of a double. -/
def Double.value (d : Double) : ℚ :=
  let magnitude : ℚ := d.significand * 2 ^ d.exponent
  if d.negative then -magnitude else magnitude

namespace Number

/-- The value of a number. -/
def value : Number → ℚ
  | .integer i _ => i
  | .double d => d.value

/-- The value of a number after rounding to a double. -/
def rounded (n : Number) : ℚ :=
  n.scaled / 2 ^ 1074

/-- The number is held as a whole number that fits 64 signed bits. -/
def isSigned (n : Number) : Bool :=
  n.signed?.isSome

end Number

/-- The magnitude has at most 53 significant bits, as that of every double has. -/
def IsShort (x : ℚ) : Prop :=
  ∃ (s : Nat) (e : Int), s ≤ 2 ^ 53 ∧ |x| = s * 2 ^ e

/-! ## Rounding to a whole multiple -/

/-- The nearest whole number is at most half away. -/
theorem roundHalfEven_bounds (num : Nat) {den : Nat} (hden : 0 < den) :
    2 * (roundHalfEven num den * den) ≤ 2 * num + den ∧
      2 * num ≤ 2 * (roundHalfEven num den * den) + den := by
  have hsplit := Nat.div_add_mod' num den
  have hrest := Nat.mod_lt num hden
  have hnext : (num / den + 1) * den = num / den * den + den := Nat.succ_mul _ _
  unfold roundHalfEven
  simp only
  split_ifs <;> constructor <;> omega

theorem roundHalfEven_le (num den : Nat) : roundHalfEven num den ≤ num / den + 1 := by
  unfold roundHalfEven
  simp only
  split_ifs <;> omega

/-- No other multiple of a whole number is nearer than the rounded one. -/
theorem abs_roundHalfEven_mul_sub_le (num q : Nat) {den : Nat} (hden : 0 < den) :
    |((roundHalfEven num den * den : Nat) : ℚ) - num| ≤ |((q * den : Nat) : ℚ) - num| := by
  obtain ⟨hupper, hlower⟩ := roundHalfEven_bounds num hden
  generalize roundHalfEven num den = r at hupper hlower
  have hupper' : 2 * ((r * den : Nat) : ℚ) ≤ 2 * num + den := by exact_mod_cast hupper
  have hlower' : 2 * (num : ℚ) ≤ 2 * ((r * den : Nat) : ℚ) + den := by exact_mod_cast hlower
  -- another multiple is at least one unit away from this one
  rcases Nat.lt_trichotomy q r with hlt | rfl | hgt
  · have hstep : q * den + den ≤ r * den := by
      rw [← Nat.succ_mul]
      exact Nat.mul_le_mul_right den hlt
    have hstep' : ((q * den : Nat) : ℚ) + den ≤ (r * den : Nat) := by exact_mod_cast hstep
    rw [abs_sub_comm _ (num : ℚ), abs_sub_comm _ (num : ℚ), abs_le]
    have hle := le_abs_self ((num : ℚ) - (q * den : Nat))
    constructor <;> linarith
  · exact le_refl _
  · have hstep : r * den + den ≤ q * den := by
      rw [← Nat.succ_mul]
      exact Nat.mul_le_mul_right den hgt
    have hstep' : ((r * den : Nat) : ℚ) + den ≤ (q * den : Nat) := by exact_mod_cast hstep
    rw [abs_le]
    have hle := le_abs_self (((q * den : Nat) : ℚ) - num)
    constructor <;> linarith

/-! ## Rounding to 53 bits -/

/-- From `2 ^ 53` on a whole number is rounded to a multiple of a power of two, of which it holds
    between `2 ^ 52` and `2 ^ 53`. -/
theorem nearestDoubleNat_of_le {n : Nat} (h : 2 ^ 53 ≤ n) :
    ∃ k : Nat, nearestDoubleNat n = roundHalfEven n (2 ^ (k + 1)) * 2 ^ (k + 1) ∧
      2 ^ 52 * 2 ^ (k + 1) ≤ n ∧ n < 2 ^ 53 * 2 ^ (k + 1) := by
  have hne : n ≠ 0 := by omega
  have hlog : 53 ≤ n.log2 := (Nat.le_log2 hne).mpr h
  refine ⟨n.log2 - 53, ?_, ?_, ?_⟩
  · rw [nearestDoubleNat, if_neg (by omega), show n.log2 - 53 + 1 = n.log2 - 52 by omega]
    rfl
  · rw [← Nat.pow_add, show 52 + (n.log2 - 53 + 1) = n.log2 by omega]
    exact Nat.log2_self_le hne
  · rw [← Nat.pow_add, show 53 + (n.log2 - 53 + 1) = n.log2 + 1 by omega]
    exact Nat.lt_log2_self

theorem isShort_nearestDoubleNat (n : Nat) : IsShort (nearestDoubleNat n) := by
  rcases Nat.lt_or_ge n (2 ^ 53) with hsmall | hlarge
  · refine ⟨n, 0, hsmall.le, ?_⟩
    rw [nearestDoubleNat, if_pos hsmall, Nat.abs_cast, zpow_zero, mul_one]
  · obtain ⟨k, hround, -, hlt⟩ := nearestDoubleNat_of_le hlarge
    have hquotient : n / 2 ^ (k + 1) < 2 ^ 53 :=
      (Nat.div_lt_iff_lt_mul (Nat.two_pow_pos _)).mpr hlt
    have hle := roundHalfEven_le n (2 ^ (k + 1))
    refine ⟨roundHalfEven n (2 ^ (k + 1)), (k + 1 : Nat), by omega, ?_⟩
    rw [Nat.abs_cast, hround, zpow_natCast]
    push_cast
    rfl

/-- A value with a coarse exponent is a whole multiple of the unit. -/
theorem cast_mul_zpow_of_le (s : Nat) {k : Nat} {e : Int} (h : (k : Int) ≤ e) :
    (s : ℚ) * 2 ^ e = (s * 2 ^ (e - k).toNat * 2 ^ k : Nat) := by
  have hexponent : e = ((e - k).toNat : Int) + k := by omega
  conv_lhs => rw [hexponent, zpow_add₀ (by norm_num), zpow_natCast, zpow_natCast]
  push_cast
  ring

/-- A value of 53 bits with a fine exponent is at most the least value that is rounded to the
    unit. -/
theorem cast_mul_zpow_le {s k : Nat} {e : Int} (hs : s ≤ 2 ^ 53) (h : e < (k + 1 : Nat)) :
    (s : ℚ) * 2 ^ e ≤ (2 ^ 52 * 2 ^ (k + 1) : Nat) := by
  have hs' : (s : ℚ) ≤ 2 ^ 53 := by exact_mod_cast hs
  have he : (2 : ℚ) ^ e ≤ 2 ^ (k : Int) := zpow_le_zpow_right₀ (by norm_num) (by omega)
  calc (s : ℚ) * 2 ^ e ≤ 2 ^ 53 * 2 ^ (k : Int) :=
        mul_le_mul hs' he (zpow_pos (by norm_num) _).le (by norm_num)
    _ = (2 ^ 52 * 2 ^ (k + 1) : Nat) := by
        rw [zpow_natCast]
        push_cast
        ring

/-- No value of 53 bits is nearer to a whole number than the rounded one. -/
theorem abs_nearestDoubleNat_sub_le (n : Nat) {x : ℚ} (hx : IsShort x) :
    |(nearestDoubleNat n : ℚ) - n| ≤ |x - n| := by
  rcases Nat.lt_or_ge n (2 ^ 53) with hsmall | hlarge
  · rw [nearestDoubleNat, if_pos hsmall, sub_self, abs_zero]
    exact abs_nonneg _
  obtain ⟨s, e, hs, hmagnitude⟩ := hx
  obtain ⟨k, hround, hle, -⟩ := nearestDoubleNat_of_le hlarge
  have hunit : 0 < 2 ^ (k + 1) := Nat.two_pow_pos _
  have hsign : |(|x|) - (n : ℚ)| ≤ |x - n| := by
    have habs := abs_abs_sub_abs_le x (n : ℚ)
    rwa [Nat.abs_cast] at habs
  refine le_trans ?_ hsign
  rw [hmagnitude, hround]
  rcases le_or_gt ((k + 1 : Nat) : Int) e with hcoarse | hfine
  · rw [cast_mul_zpow_of_le s hcoarse]
    exact abs_roundHalfEven_mul_sub_le n _ hunit
  · -- a multiple of the unit lies between the value and the number
    have hpower := cast_mul_zpow_le hs hfine
    have hbelow : ((2 ^ 52 * 2 ^ (k + 1) : Nat) : ℚ) ≤ n := Nat.cast_le.mpr hle
    refine (abs_roundHalfEven_mul_sub_le n (2 ^ 52) hunit).trans ?_
    rw [abs_sub_comm _ (n : ℚ), abs_sub_comm _ (n : ℚ), abs_of_nonneg (sub_nonneg.mpr hbelow),
      abs_of_nonneg (sub_nonneg.mpr (hpower.trans hbelow))]
    exact sub_le_sub_left hpower _

/-! ## Rounding of numbers -/

section Nearer

variable {p q v : ℚ}

/-- What is nearer to the larger of two values lies above their middle. -/
theorem le_middle_of_abs_sub_le (hlt : q < p) (h : |p - v| ≤ |q - v|) : p + q ≤ 2 * v := by
  rcases abs_cases (p - v) with ⟨hp, hp0⟩ | ⟨hp, hp0⟩ <;>
    rcases abs_cases (q - v) with ⟨hq, hq0⟩ | ⟨hq, hq0⟩ <;> linarith

/-- What is nearer to the smaller of two values lies below their middle. -/
theorem middle_le_of_abs_sub_le (hlt : q < p) (h : |q - v| ≤ |p - v|) : 2 * v ≤ p + q := by
  rcases abs_cases (p - v) with ⟨hp, hp0⟩ | ⟨hp, hp0⟩ <;>
    rcases abs_cases (q - v) with ⟨hq, hq0⟩ | ⟨hq, hq0⟩ <;> linarith

end Nearer

theorem Double.isShort_value (d : Double) : IsShort d.value := by
  refine ⟨d.significand, d.exponent, d.significand_lt.le, ?_⟩
  have hpos : (0 : ℚ) ≤ d.significand * 2 ^ d.exponent :=
    mul_nonneg (Nat.cast_nonneg _) (zpow_pos (by norm_num) _).le
  unfold value
  simp only
  split
  · rw [abs_neg, abs_of_nonneg hpos]
  · rw [abs_of_nonneg hpos]

theorem IsShort.neg {x : ℚ} (h : IsShort x) : IsShort (-x) := by
  obtain ⟨s, e, hs, hmagnitude⟩ := h
  exact ⟨s, e, hs, by rw [abs_neg, hmagnitude]⟩

namespace Number

/-- A double is not rounded. -/
theorem rounded_double (d : Double) : (double d).rounded = d.value := by
  have hexponent := d.exponent_range.1
  have hzero : (-(d.exponent + 1074)).toNat = 0 := by omega
  have hpow : ((Nat.pow 2 (d.exponent + 1074).toNat : Nat) : ℚ) = 2 ^ d.exponent * 2 ^ 1074 := by
    rw [Double.cast_pow_toNat (by decide), hzero, Nat.cast_ofNat, zpow_add₀ (by norm_num)]
    simp
  have hne : (2 : ℚ) ^ 1074 ≠ 0 := pow_ne_zero _ (by norm_num)
  rw [rounded, scaled, Double.scaled, Double.value, div_eq_iff hne]
  split
  · rw [Int.cast_neg, Int.cast_mul, Int.cast_natCast, Int.cast_natCast, hpow, neg_mul, mul_assoc]
  · rw [Int.cast_mul, Int.cast_natCast, Int.cast_natCast, hpow, mul_assoc]

theorem rounded_integer (i : Int) (h : -2 ^ 63 ≤ i ∧ i < 2 ^ 64) :
    (integer i h).rounded =
      if i < 0 then -(nearestDoubleNat i.natAbs : ℚ) else nearestDoubleNat i.natAbs := by
  have hne : (2 : ℚ) ^ 1074 ≠ 0 := pow_ne_zero _ (by norm_num)
  rw [rounded, scaled_integer, div_eq_iff hne]
  split
  · rw [Int.cast_neg, Int.cast_mul, Int.cast_natCast, Int.cast_pow, Int.cast_ofNat, neg_mul]
  · rw [Int.cast_mul, Int.cast_natCast, Int.cast_pow, Int.cast_ofNat]

/-- Rounding leaves 53 significant bits. -/
theorem isShort_rounded (n : Number) : IsShort n.rounded := by
  cases n with
  | double d =>
    rw [rounded_double]
    exact d.isShort_value
  | integer i h =>
    rw [rounded_integer]
    split
    · exact (isShort_nearestDoubleNat _).neg
    · exact isShort_nearestDoubleNat _

/-- No value of 53 bits is nearer to a number than the rounded one. -/
theorem abs_rounded_sub_value_le (n : Number) {x : ℚ} (hx : IsShort x) :
    |n.rounded - n.value| ≤ |x - n.value| := by
  cases n with
  | double d =>
    rw [rounded_double, value, sub_self, abs_zero]
    exact abs_nonneg _
  | integer i h =>
    rw [rounded_integer, value]
    split
    · next hneg =>
      have hvalue : (i : ℚ) = -(i.natAbs : ℚ) := by
        rw [← Int.cast_natCast, ← Int.cast_neg]
        exact congrArg Int.cast (by omega)
      have hnearest := abs_nearestDoubleNat_sub_le i.natAbs hx.neg
      have hmirror : -x - (i.natAbs : ℚ) = -(x - -(i.natAbs : ℚ)) := by ring
      rw [hmirror, abs_neg] at hnearest
      rwa [hvalue, neg_sub_neg, abs_sub_comm]
    · next hpos =>
      have hvalue : (i : ℚ) = (i.natAbs : ℚ) := by
        rw [← Int.cast_natCast]
        exact congrArg Int.cast (by omega)
      rw [hvalue]
      exact abs_nearestDoubleNat_sub_le i.natAbs hx

theorem rounded_of_isShort {n : Number} (h : IsShort n.value) : n.rounded = n.value := by
  have hnearest := n.abs_rounded_sub_value_le h
  rw [sub_self, abs_zero] at hnearest
  exact sub_eq_zero.mp (abs_nonpos_iff.mp hnearest)

theorem rounded_eq_of_value_eq {a b : Number} (h : a.value = b.value) : a.rounded = b.rounded := by
  have hshort : IsShort a.value → a.rounded = b.rounded := by
    intro hshort
    rw [rounded_of_isShort hshort, rounded_of_isShort (h ▸ hshort), h]
  cases a with
  | double d => exact hshort d.isShort_value
  | integer i hi =>
    cases b with
    | double d => exact hshort (h ▸ d.isShort_value)
    | integer j hj =>
      obtain rfl := Int.cast_injective (α := ℚ) h
      rfl

/-- Rounding keeps the order. -/
theorem rounded_le_rounded {a b : Number} (h : a.value ≤ b.value) : a.rounded ≤ b.rounded := by
  rcases h.lt_or_eq with hlt | heq
  · by_contra hturned
    rw [not_le] at hturned
    have ha := le_middle_of_abs_sub_le hturned (a.abs_rounded_sub_value_le b.isShort_rounded)
    have hb := middle_le_of_abs_sub_le hturned (b.abs_rounded_sub_value_le a.isShort_rounded)
    linarith
  · exact (rounded_eq_of_value_eq heq).le

/-! ## The comparison -/

variable {a b : Number}

/-- Two signed words are compared by value. -/
theorem compare_of_isSigned (ha : a.isSigned = true) (hb : b.isSigned = true) :
    a.compare b = Ord.compare a.value b.value := by
  obtain ⟨i, hi⟩ := Option.isSome_iff_exists.mp ha
  obtain ⟨j, hj⟩ := Option.isSome_iff_exists.mp hb
  have hcompare : a.compare b = Ord.compare i j := by rw [compare, hi, hj]
  obtain ⟨hirange, rfl⟩ := signed?_eq_some hi
  obtain ⟨hjrange, rfl⟩ := signed?_eq_some hj
  rw [hcompare, ← cmp_eq_compare, ← cmp_eq_compare]
  exact (Int.cast_strictMono.cmp_map_eq i j).symm

/-- Any other two numbers are compared after rounding. -/
theorem compare_of_not_isSigned (h : ¬ (a.isSigned = true ∧ b.isSigned = true)) :
    a.compare b = Ord.compare a.rounded b.rounded := by
  have hscaled : a.compare b = Ord.compare a.scaled b.scaled := by
    unfold compare
    split
    · next i j ha hb => exact absurd ⟨by rw [isSigned, ha]; rfl, by rw [isSigned, hb]; rfl⟩ h
    · rfl
  have hmono : StrictMono (fun i : Int => (i : ℚ) / 2 ^ 1074) := fun i j hij =>
    div_lt_div_of_pos_right (Int.cast_lt.mpr hij) (pow_pos (by norm_num) _)
  rw [hscaled, ← cmp_eq_compare, ← cmp_eq_compare]
  exact (hmono.cmp_map_eq a.scaled b.scaled).symm

/-- Equality is what the comparison says. -/
theorem equals_eq_compare (a b : Number) : a.equals b = (a.compare b == .eq) := by
  have hint : ∀ i j : Int, (i == j) = (Ord.compare i j == .eq) := by
    intro i j
    rw [Bool.eq_iff_iff, beq_iff_eq, beq_iff_eq, compare_eq_iff_eq]
  unfold equals compare
  split <;> exact hint _ _

/-- Two numbers are compared by value unless different values are rounded to the same one. -/
theorem compare_eq_compare_value_iff :
    a.compare b = Ord.compare a.value b.value ↔
      (a.isSigned = true ∧ b.isSigned = true) ∨ a.value = b.value ∨ a.rounded ≠ b.rounded := by
  by_cases hsigned : a.isSigned = true ∧ b.isSigned = true
  · simp [hsigned, compare_of_isSigned hsigned.1 hsigned.2]
  rw [compare_of_not_isSigned hsigned]
  simp only [hsigned, false_or]
  rcases lt_trichotomy a.value b.value with hlt | heq | hgt
  · rw [compare_lt_iff_lt.mpr hlt, compare_lt_iff_lt]
    have hle := rounded_le_rounded hlt.le
    simp [hlt.ne, hle.lt_iff_ne]
  · simp [heq, rounded_eq_of_value_eq heq]
  · rw [compare_gt_iff_gt.mpr hgt, compare_gt_iff_gt]
    have hle := rounded_le_rounded hgt.le
    simp [hgt.ne', hle.lt_iff_ne, ne_comm]

/-- Where the comparison is not that of the values, it takes them for equal. -/
theorem compare_eq_or : a.compare b = Ord.compare a.value b.value ∨ a.compare b = .eq := by
  by_cases h : (a.isSigned = true ∧ b.isSigned = true) ∨ a.value = b.value ∨ a.rounded ≠ b.rounded
  · exact Or.inl (compare_eq_compare_value_iff.mpr h)
  · simp only [not_or, not_not] at h
    right
    rw [compare_of_not_isSigned h.1, compare_eq_iff_eq]
    exact h.2.2

end Number

/-! ## Main statement -/

/-- Numbers are equal if the comparison says so. The comparison is that of the values for two signed
    words, for equal values, and where rounding tells the values apart; nowhere else, and there it
    takes them for equal. What a number is rounded to is a nearest value of 53 bits. Equality of
    values is transitive through one whose numbers compare exactly. -/
theorem numbers_compare_by_rounded_value (a b : Number) (u v w : Value) :
    a.equals b = (a.compare b == .eq) ∧
    (a.compare b = Ord.compare a.value b.value ↔
      (a.isSigned = true ∧ b.isSigned = true) ∨ a.value = b.value ∨ a.rounded ≠ b.rounded) ∧
    (a.compare b = Ord.compare a.value b.value ∨ a.compare b = .eq) ∧
    (IsShort a.rounded ∧ ∀ x : ℚ, IsShort x → |a.rounded - a.value| ≤ |x - a.value|) ∧
    (u.hasDistinctNames = true → v.hasDistinctNames = true → w.hasDistinctNames = true →
      v.comparesExactly = true → u.equals v = true → v.equals w = true → u.equals w = true) := by
  refine ⟨a.equals_eq_compare b, Number.compare_eq_compare_value_iff, Number.compare_eq_or,
    ⟨a.isShort_rounded, fun x => a.abs_rounded_sub_value_le⟩, ?_⟩
  intro hu hv hw hexact huv hvw
  rw [Value.equals_comm hv hw] at hvw
  exact Value.isSharp_of_comparesExactly v hexact u w hu hw huv hvw

/-- Objects that hold the same numbers in other forms and other places. -/
theorem numbers_compare_by_rounded_value_other_forms :
    let whole (i : Int) (h : -2 ^ 63 ≤ i ∧ i < 2 ^ 64) : Value := .number (.integer i h)
    let half : Value := .number (.double ⟨false, 2 ^ 52, -53, by decide, by decide, by decide⟩)
    let one : Value := .number (.double ⟨false, 2 ^ 52, -52, by decide, by decide, by decide⟩)
    let u : Value := .object [("x", one), ("y", .array [half])]
    let v : Value := .object [("y", .array [half]), ("x", whole 1 (by decide))]
    let w : Value := .object [("y", .array [half]), ("x", one)]
    u.hasDistinctNames = true ∧ v.hasDistinctNames = true ∧ w.hasDistinctNames = true ∧
      v.comparesExactly = true ∧ u.equals v = true ∧ v.equals w = true ∧ u.equals w = true := by
  intro whole half one u v w
  have hu : u.hasDistinctNames = true := by decide
  have hv : v.hasDistinctNames = true := by decide
  have hw : w.hasDistinctNames = true := by decide
  have hexact : v.comparesExactly = true := by decide +kernel
  have huv : u.equals v = true := by decide +kernel
  have hvw : v.equals w = true := by decide +kernel
  obtain ⟨-, -, -, -, htrans⟩ :=
    numbers_compare_by_rounded_value (.integer 1 (by decide)) (.integer 1 (by decide)) u v w
  exact ⟨hu, hv, hw, hexact, huv, hvw, htrans hu hv hw hexact huv hvw⟩

/-- The double `2 ^ 53` equals the whole number `2 ^ 53 + 1`, which has another value, and also
    `2 ^ 53`, which that one does not equal. Two unsigned words may be taken for equal as well. -/
theorem rounded_values_equal :
    let even : Number := .integer (2 ^ 53) (by decide)
    let odd : Number := .integer (2 ^ 53 + 1) (by decide)
    let rounded : Number := .double ⟨false, 2 ^ 52, 1, by decide, by decide, by decide⟩
    let word : Number := .integer (2 ^ 63) (by decide)
    let next : Number := .integer (2 ^ 63 + 1) (by decide)
    (odd.equals rounded = true ∧ odd.compare rounded = .eq ∧ odd.value ≠ rounded.value) ∧
      (rounded.equals even = true ∧ odd.equals even = false) ∧
      (word.equals next = true ∧ word.compare next = .eq ∧ word.value ≠ next.value) := by
  intro even odd rounded word next
  refine ⟨⟨by decide +kernel, by decide +kernel, ?_⟩, ⟨by decide +kernel, by decide +kernel⟩,
    by decide +kernel, by decide +kernel, ?_⟩
  · norm_num [odd, rounded, Number.value, Double.value]
  · norm_num [word, next, Number.value]

end DocQuery
