import Mathlib.Algebra.Order.Field.Power
import Mathlib.Algebra.Order.Field.Rat
import Mathlib.Tactic.Linarith
import Mathlib.Tactic.Ring
import DocQuery.Number.Shortest

set_option autoImplicit false

/-! # Shortest decimals tell doubles apart

A decimal reads back as a double if it lies in the rounding interval of the double (`IsNear`): half
a gap to either side, where an end of the interval, which lies halfway to the neighbour, belongs to
the double with the even significand. The intervals of two doubles have no number in common
(`eq_of_isNear`), and the decimal that is written for a double lies in the interval of the double
(`isNear_shortest`). -/

namespace DocQuery.Double

/-- A quarter of a unit in the last place of the significand. -/
def quarter (d : Double) : ℚ :=
  (2 : ℚ) ^ (d.exponent - 2)

/-- The lower end of the rounding interval. -/
def lowEnd (d : Double) : ℚ :=
  (4 * (d.significand : ℚ) - d.lowerGap) * d.quarter

/-- The upper end of the rounding interval. -/
def highEnd (d : Double) : ℚ :=
  (4 * (d.significand : ℚ) + 2) * d.quarter

/-- The number rounds to the magnitude of `d`: it lies in the rounding interval, and not at an end
    of it if the significand is odd. -/
structure IsNear (d : Double) (x : ℚ) : Prop where
  low_le : d.lowEnd ≤ x
  le_high : x ≤ d.highEnd
  inside : d.significand % 2 = 1 → d.lowEnd < x ∧ x < d.highEnd

variable {d d' : Double} {x : ℚ}

theorem quarter_pos (d : Double) : 0 < d.quarter :=
  zpow_pos (by norm_num) _

theorem lowerGap_cases (d : Double) : d.lowerGap = 1 ∨ d.lowerGap = 2 := by
  unfold lowerGap
  split
  · exact Or.inl rfl
  · exact Or.inr rfl

theorem cast_lowerGap_le (d : Double) : (d.lowerGap : ℚ) ≤ 2 := by
  rcases d.lowerGap_cases with h | h <;> rw [h] <;> norm_num

theorem cast_lowerGap_pos (d : Double) : (0 : ℚ) < d.lowerGap := by
  rcases d.lowerGap_cases with h | h <;> rw [h] <;> norm_num

/-- The interval of a double other than zero lies above zero. -/
theorem IsNear.pos (h : d.IsNear x) (hne : d.significand ≠ 0) : 0 < x := by
  refine lt_of_lt_of_le ?_ h.low_le
  have hone : (1 : ℚ) ≤ d.significand := by exact_mod_cast Nat.one_le_iff_ne_zero.mpr hne
  have hgap := d.cast_lowerGap_le
  exact mul_pos (by linarith) d.quarter_pos

/-! ## The intervals are disjoint -/

theorem two_quarters_le (hlt : d.exponent < d'.exponent) : 2 * d.quarter ≤ d'.quarter := by
  have hstep : 2 * d.quarter = (2 : ℚ) ^ (d.exponent - 2 + 1) := by
    rw [quarter, zpow_add_one₀ (by norm_num), mul_comm]
  rw [hstep]
  exact zpow_le_zpow_right₀ (by norm_num) (by omega)

/-- An interval ends below the power of two that the significands do not reach. -/
theorem highEnd_le (d : Double) : d.highEnd ≤ (2 ^ 55 - 2) * d.quarter := by
  have hcast : ((d.significand + 1 : ℕ) : ℚ) ≤ ((2 ^ 53 : ℕ) : ℚ) :=
    Nat.cast_le.mpr d.significand_lt
  push_cast at hcast
  exact mul_le_mul_of_nonneg_right (by linarith) d.quarter_pos.le

theorem highEnd_lt (hne : d.significand ≠ 2 ^ 53 - 1) :
    d.highEnd < (2 ^ 55 - 2) * d.quarter := by
  have hless : d.significand + 2 ≤ 2 ^ 53 := by
    have hlt := d.significand_lt
    omega
  have hcast : ((d.significand + 2 : ℕ) : ℚ) ≤ ((2 ^ 53 : ℕ) : ℚ) := Nat.cast_le.mpr hless
  push_cast at hcast
  exact mul_lt_mul_of_pos_right (by linarith) d.quarter_pos

/-- The interval of a double with a larger exponent starts there or later. -/
theorem le_lowEnd (hlt : d.exponent < d'.exponent) :
    (2 ^ 55 - 2) * d.quarter ≤ d'.lowEnd := by
  have hleast := d.exponent_range.1
  have hm' : 2 ^ 52 ≤ d'.significand := by
    by_contra hsmall
    have hexponent := d'.normalized (not_le.mp hsmall)
    omega
  have hfactor : (2 ^ 54 - 1 : ℚ) ≤ 4 * d'.significand - d'.lowerGap := by
    rcases Nat.eq_or_lt_of_le hm' with heq | hgt
    · -- a power of two stands closer to its lower neighbour
      have hgap : d'.lowerGap = 1 := by rw [lowerGap, if_pos ⟨heq.symm, by omega⟩]
      rw [hgap, ← heq]
      norm_num
    · have hcast : ((2 ^ 52 + 1 : ℕ) : ℚ) ≤ d'.significand := Nat.cast_le.mpr hgt
      have hgap := d'.cast_lowerGap_le
      push_cast at hcast
      linarith
  calc (2 ^ 55 - 2) * d.quarter = (2 ^ 54 - 1) * (2 * d.quarter) := by ring
    _ ≤ (2 ^ 54 - 1) * d'.quarter :=
      mul_le_mul_of_nonneg_left (two_quarters_le hlt) (by norm_num)
    _ ≤ d'.lowEnd := mul_le_mul_of_nonneg_right hfactor d'.quarter_pos.le

/-- The intervals of doubles with different exponents are disjoint. -/
theorem IsNear.exponent_le (h : d.IsNear x) (h' : d'.IsNear x) : d'.exponent ≤ d.exponent := by
  by_contra hlt
  rw [not_le] at hlt
  have hstart := (le_lowEnd hlt).trans h'.low_le
  -- the two meet at most where a power of two is next to the largest significand, which is odd
  by_cases hmax : d.significand = 2 ^ 53 - 1
  · have hinside := (h.inside (by rw [hmax])).2
    have hend := d.highEnd_le
    linarith
  · have hend := highEnd_lt hmax
    have hle := h.le_high
    linarith

/-- The intervals of doubles with the same exponent and different significands are disjoint. -/
theorem IsNear.significand_le (h : d.IsNear x) (h' : d'.IsNear x)
    (hexponent : d.exponent = d'.exponent) : d'.significand ≤ d.significand := by
  by_contra hlt
  rw [not_le] at hlt
  have hquarter : d'.quarter = d.quarter := by rw [quarter, quarter, hexponent]
  have hpos := d.quarter_pos
  have hgap := d'.cast_lowerGap_le
  have hlow : (4 * (d'.significand : ℚ) - 2) * d.quarter ≤ d'.lowEnd := by
    rw [lowEnd, hquarter]
    exact mul_le_mul_of_nonneg_right (by linarith) hpos.le
  -- the two meet at most in an end between neighbours, one of which is odd
  rcases Nat.eq_or_lt_of_le (Nat.succ_le_of_lt hlt) with hnext | hfar
  · have hcast : (d'.significand : ℚ) = d.significand + 1 := by rw [← hnext]; push_cast; ring
    have hmeet : d.highEnd ≤ d'.lowEnd := by
      refine le_trans (le_of_eq ?_) hlow
      rw [highEnd, hcast]
      ring
    have hle := h.le_high
    have hle' := h'.low_le
    rcases Nat.mod_two_eq_zero_or_one d.significand with heven | hodd
    · have hstrict := (h'.inside (by omega)).1
      linarith
    · have hstrict := (h.inside hodd).2
      linarith
  · have hcast : (d.significand : ℚ) + 2 ≤ d'.significand := by exact_mod_cast hfar
    have hapart : d.highEnd < (4 * (d'.significand : ℚ) - 2) * d.quarter :=
      mul_lt_mul_of_pos_right (by linarith) hpos
    have hle := h.le_high
    have hle' := h'.low_le
    linarith

/-- Doubles that some number rounds to have the same magnitude. -/
theorem eq_of_isNear (h : d.IsNear x) (h' : d'.IsNear x) :
    d.exponent = d'.exponent ∧ d.significand = d'.significand := by
  have hexponent := le_antisymm (h'.exponent_le h) (h.exponent_le h')
  have hle := h.significand_le h' hexponent
  exact ⟨hexponent, le_antisymm (h'.significand_le h hexponent.symm) hle⟩

/-! ## What is written lies in the interval -/

/-- A power with a whole exponent, as a quotient of two powers. -/
theorem cast_pow_toNat {b : Nat} (hb : b ≠ 0) (k : Int) :
    ((Nat.pow b k.toNat : Nat) : ℚ) = (b : ℚ) ^ k * (Nat.pow b (-k).toNat : Nat) := by
  have hb' : (b : ℚ) ≠ 0 := Nat.cast_ne_zero.mpr hb
  have hpow : ∀ n : Nat, ((Nat.pow b n : Nat) : ℚ) = (b : ℚ) ^ (n : Int) := by
    intro n
    rw [zpow_natCast]
    exact Nat.cast_pow b n
  rw [hpow, hpow, ← zpow_add₀ hb']
  congr 1
  omega

/-- The search only accepts decimals in the interval. -/
theorem isNear_of_admits (hne : d.significand ≠ 0) {c : Nat} {k : Int}
    (h : d.admits c k = true) : d.IsNear (c * (10 : ℚ) ^ k) := by
  have hgap : d.lowerGap ≤ 4 * d.significand := by
    rcases d.lowerGap_cases with h | h <;> omega
  have hten : ((Nat.pow 10 k.toNat : Nat) : ℚ) = (10 : ℚ) ^ k * (Nat.pow 10 (-k).toNat : Nat) :=
    cast_pow_toNat (by decide) k
  have htwo : ((Nat.pow 2 (d.exponent - 2).toNat : Nat) : ℚ) =
      d.quarter * (Nat.pow 2 (2 - d.exponent).toNat : Nat) := by
    have hpow := cast_pow_toNat (b := 2) (by decide) (d.exponent - 2)
    rwa [neg_sub] at hpow
  -- the comparison is made after both sides are multiplied by two powers
  obtain ⟨A, hA⟩ : ∃ A : ℚ, A = (Nat.pow 10 (-k).toNat : Nat) := ⟨_, rfl⟩
  obtain ⟨B, hB⟩ : ∃ B : ℚ, B = (Nat.pow 2 (2 - d.exponent).toNat : Nat) := ⟨_, rfl⟩
  have hAB : 0 < A * B := by
    rw [hA, hB]
    exact mul_pos (Nat.cast_pos.mpr (Nat.pow_pos (by decide)))
      (Nat.cast_pos.mpr (Nat.pow_pos (by decide)))
  rw [← hA] at hten
  rw [← hB] at htwo
  have hpoint : ((c * Nat.pow 10 k.toNat * Nat.pow 2 (2 - d.exponent).toNat : Nat) : ℚ) =
      c * (10 : ℚ) ^ k * (A * B) := by
    rw [Nat.cast_mul, Nat.cast_mul, hten, ← hB]
    ring
  have hlow : (((4 * d.significand - d.lowerGap) *
      (Nat.pow 10 (-k).toNat * Nat.pow 2 (d.exponent - 2).toNat) : Nat) : ℚ) =
        d.lowEnd * (A * B) := by
    rw [Nat.cast_mul, Nat.cast_sub hgap, Nat.cast_mul, Nat.cast_mul, htwo, ← hA, lowEnd]
    push_cast
    ring
  have hhigh : (((4 * d.significand + 2) *
      (Nat.pow 10 (-k).toNat * Nat.pow 2 (d.exponent - 2).toNat) : Nat) : ℚ) =
        d.highEnd * (A * B) := by
    rw [Nat.cast_mul, Nat.cast_add, Nat.cast_mul, Nat.cast_mul, htwo, ← hA, highEnd]
    push_cast
    ring
  unfold admits at h
  by_cases heven : d.significand % 2 = 0
  · rw [if_pos heven, decide_eq_true_eq, ← Nat.cast_le (α := ℚ), ← Nat.cast_le (α := ℚ), hlow,
      hpoint, hhigh] at h
    exact ⟨le_of_mul_le_mul_right h.1 hAB, le_of_mul_le_mul_right h.2 hAB, by omega⟩
  · rw [if_neg heven, decide_eq_true_eq, ← Nat.cast_lt (α := ℚ), ← Nat.cast_lt (α := ℚ), hlow,
      hpoint, hhigh] at h
    have hl := lt_of_mul_lt_mul_right h.1 hAB.le
    have hr := lt_of_mul_lt_mul_right h.2 hAB.le
    exact ⟨hl.le, hr.le, fun _ => ⟨hl, hr⟩⟩

/-- Written out in full, the decimal is the magnitude itself. -/
theorem exactDecimal_eq (d : Double) :
    (d.exactDecimal.1 : ℚ) * 10 ^ d.exactDecimal.2 = d.significand * (2 : ℚ) ^ d.exponent := by
  unfold exactDecimal
  split
  · next hneg =>
    have hfive := cast_pow_toNat (b := 5) (by decide) (-d.exponent)
    rw [neg_neg, Int.toNat_of_nonpos hneg.le] at hfive
    have hten : (10 : ℚ) ^ d.exponent = 5 ^ d.exponent * 2 ^ d.exponent := by
      rw [← mul_zpow]
      norm_num
    calc ((d.significand * Nat.pow 5 (-d.exponent).toNat : Nat) : ℚ) * 10 ^ d.exponent
        = d.significand * (5 ^ (-d.exponent) * 5 ^ d.exponent) * 2 ^ d.exponent := by
          rw [Nat.cast_mul, hfive, hten]
          push_cast
          ring
      _ = d.significand * 2 ^ d.exponent := by
          rw [← zpow_add₀ (by norm_num), neg_add_cancel, zpow_zero, mul_one]
  · next hnonneg =>
    have htwo := cast_pow_toNat (b := 2) (by decide) d.exponent
    have hzero : (-d.exponent).toNat = 0 := by omega
    rw [hzero] at htwo
    rw [Nat.cast_mul, htwo, zpow_zero, mul_one]
    push_cast
    simp

/-- The magnitude lies inside of the interval. -/
theorem isNear_magnitude (d : Double) : d.IsNear (d.significand * (2 : ℚ) ^ d.exponent) := by
  have hfour : (d.significand : ℚ) * 2 ^ d.exponent = 4 * d.significand * d.quarter := by
    have hexponent : d.exponent = d.exponent - 2 + 2 := by omega
    rw [quarter]
    conv_lhs => rw [hexponent, zpow_add₀ (by norm_num)]
    norm_num
    ring
  have hpos := d.quarter_pos
  have hgap := d.cast_lowerGap_pos
  have hlow : d.lowEnd < 4 * d.significand * d.quarter :=
    mul_lt_mul_of_pos_right (by linarith) hpos
  have hhigh : 4 * d.significand * d.quarter < d.highEnd :=
    mul_lt_mul_of_pos_right (by linarith) hpos
  rw [hfour]
  exact ⟨hlow.le, hhigh.le, fun _ => ⟨hlow, hhigh⟩⟩

theorem admits_of_onGrid? {n c : Nat} {k : Int} (h : d.onGrid? n = some (c, k)) :
    d.admits c k = true := by
  have hchosen : ∀ (a b : Nat) (l : Int),
      (if d.admits a l then some (a, l) else if d.admits b l then some (b, l) else none) =
        some (c, k) → d.admits c k = true := by
    intro a b l hsome
    split at hsome
    · next hadmits =>
      obtain ⟨rfl, rfl⟩ := Prod.mk.inj (Option.some.inj hsome)
      exact hadmits
    · split at hsome
      · next hadmits =>
        obtain ⟨rfl, rfl⟩ := Prod.mk.inj (Option.some.inj hsome)
        exact hadmits
      · cases hsome
  exact hchosen _ _ _ h

/-- The decimal that is written for a double rounds to it. -/
theorem isNear_shortest (hne : d.significand ≠ 0) :
    d.IsNear ((d.shortest.1 : ℚ) * 10 ^ d.shortest.2) := by
  unfold shortest
  cases hfound : (List.range 17).findSome? (fun n => d.onGrid? (n + 1)) with
  | none =>
    rw [Option.getD_none, exactDecimal_eq]
    exact d.isNear_magnitude
  | some decimal =>
    obtain ⟨n, -, hgrid⟩ := List.exists_of_findSome?_eq_some hfound
    exact isNear_of_admits hne (admits_of_onGrid? hgrid)

end DocQuery.Double
