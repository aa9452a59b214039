import Mathlib.Algebra.Order.Field.Rat
import DocQuery.Descriptor.Count
import DocQuery.Proofs.Blanks
import DocQuery.Proofs.NumberRounding
import DocQuery.Proofs.NumberText

set_option autoImplicit false

/-! # Reading counts

A count may be written as a number of either form or as a text. Each is read as the count of its
exact value, and refused if that is no whole number of 64 bits without sign, with one exception: the
bound on doubles lets `2 ^ 64` pass, one more than the largest count, and reads it as the largest.
The exception is found by exact arithmetic on the units of doubles (`whole_iff`). -/

namespace DocQuery.Count

/-! ## Whole numbers -/

theorem ofNat?_eq_some_iff (n : Nat) (count : UInt64) :
    ofNat? n = some count ↔ n = count.toNat := by
  have hlt := count.toNat_lt
  unfold ofNat? largest
  split
  · next hle =>
    rw [Option.some.injEq, ← UInt64.toNat_inj,
      UInt64.toNat_ofNat_of_lt' (show n < 2 ^ 64 by omega)]
  · next hgt =>
    constructor
    · intro h
      cases h
    · intro h
      omega

theorem ofNumber?_integer_eq_some_iff (i : Int) (h : -2 ^ 63 ≤ i ∧ i < 2 ^ 64) (count : UInt64) :
    ofNumber? (.integer i h) = some count ↔ i = count.toNat := by
  rw [ofNumber?]
  split
  · next hpos =>
    rw [ofNat?_eq_some_iff]
    omega
  · next hneg =>
    constructor
    · intro h
      cases h
    · intro h
      omega

/-! ## Doubles -/

/-- A value in some unit is read as the whole number that it is, and one beyond the largest count as
    the largest. -/
theorem whole_iff {unit scaled : Int} (hunit : 0 < unit) (count : UInt64) :
    ((0 ≤ scaled ∧ scaled % unit = 0 ∧ scaled ≤ 2 ^ 64 * unit) ∧
        UInt64.ofNat (min (scaled / unit).toNat largest) = count) ↔
      scaled = count.toNat * unit ∨ scaled = 2 ^ 64 * unit ∧ count.toNat = largest := by
  have hlargest : largest = 2 ^ 64 - 1 := rfl
  have hlt := count.toNat_lt
  have hread (q : Int) : UInt64.ofNat (min (q * unit / unit).toNat largest) = count ↔
      min q.toNat largest = count.toNat := by
    have hbound : min q.toNat largest < 2 ^ 64 := by omega
    rw [Int.mul_ediv_cancel q hunit.ne', ← UInt64.toNat_inj, UInt64.toNat_ofNat_of_lt' hbound]
  constructor
  · rintro ⟨⟨hpos, hwhole, hle⟩, hcount⟩
    obtain ⟨q, rfl⟩ : ∃ q, scaled = q * unit :=
      ⟨scaled / unit, (Int.ediv_mul_cancel (Int.dvd_of_emod_eq_zero hwhole)).symm⟩
    have hq : 0 ≤ q := nonneg_of_mul_nonneg_left hpos hunit
    have hq' : q ≤ 2 ^ 64 := le_of_mul_le_mul_right hle hunit
    rw [hread] at hcount
    rcases hq'.lt_or_eq with hlt | rfl
    · have hsame : q = count.toNat := by omega
      exact Or.inl (by rw [hsame])
    · exact Or.inr ⟨rfl, by omega⟩
  · rintro (rfl | ⟨rfl, hcount⟩)
    · have hle : (count.toNat : Int) ≤ 2 ^ 64 := by omega
      refine ⟨⟨Int.mul_nonneg (by omega) hunit.le, Int.mul_emod_left _ _,
        Int.mul_le_mul_of_nonneg_right hle hunit.le⟩, ?_⟩
      rw [hread]
      omega
    · refine ⟨⟨Int.mul_nonneg (by decide) hunit.le, Int.mul_emod_left _ _, le_refl _⟩, ?_⟩
      rw [hread, hcount]
      decide

/-- The units of a double tell its value. -/
theorem scaled_eq_mul_iff (d : Double) (i : Int) : d.scaled = i * 2 ^ 1074 ↔ d.value = i := by
  have hne : (2 : ℚ) ^ 1074 ≠ 0 := pow_ne_zero _ (by norm_num)
  have hvalue : (d.scaled : ℚ) = d.value * 2 ^ 1074 := by
    rw [← Number.rounded_double, Number.rounded, Number.scaled, div_mul_cancel₀ _ hne]
  rw [← Int.cast_inj (α := ℚ), hvalue, Int.cast_mul, Int.cast_pow, Int.cast_ofNat]
  exact mul_left_inj' hne

theorem ofDouble?_eq_some_iff (d : Double) (count : UInt64) :
    ofDouble? d = some count ↔
      d.value = count.toNat ∨ d.value = 2 ^ 64 ∧ count.toNat = largest := by
  have hunit : (0 : Int) < 2 ^ 1074 := Int.pow_pos (by decide)
  have hvalue := scaled_eq_mul_iff d count.toNat
  have hbeyond := scaled_eq_mul_iff d (2 ^ 64)
  rw [Int.cast_natCast] at hvalue
  rw [Int.cast_pow, Int.cast_ofNat] at hbeyond
  rw [← hvalue, ← hbeyond, ← whole_iff hunit]
  unfold ofDouble?
  simp only
  split
  · next h => rw [Option.some.injEq, and_iff_right h]
  · next h =>
    constructor
    · intro hnone
      cases hnone
    · intro hboth
      exact absurd hboth.1 h

/-! ## Texts -/

theorem isBlank_of_isDigit {c : Char} (h : c.isDigit = true) : isBlank c = false := by
  rw [Char.isDigit, Bool.and_eq_true, decide_eq_true_iff, decide_eq_true_iff] at h
  have hrange : 48 ≤ c.toNat ∧ c.toNat ≤ 57 := h
  simp [isBlank]
  omega

theorem toList_toString (i : Int) :
    (toString i).toList = (if i < 0 then ['-'] else []) ++ Nat.toDigits 10 i.natAbs := by
  cases i with
  | ofNat n =>
    have htext : (toString (Int.ofNat n)).toList = Nat.toDigits 10 n := Nat.toList_repr
    rw [htext, if_neg (by simp)]
    rfl
  | negSucc n =>
    have htext : toString (Int.negSucc n) = "-" ++ (n + 1).repr := rfl
    rw [htext, String.toList_append, Nat.toList_repr, if_pos (Int.negSucc_lt_zero n)]
    rfl

/-- The decimal digits of a whole number spell it. -/
theorem natOfDigits?_toDigits (n : Nat) :
    natOfDigits? (unsignedDigits (Nat.toDigits 10 n)) = some n := by
  have hdigits : ∀ c ∈ Nat.toDigits 10 n, c.isDigit = true := isDigit_of_mem_toDigits
  have hunsigned : unsignedDigits (Nat.toDigits 10 n) = Nat.toDigits 10 n := by
    unfold unsignedDigits
    split
    · next rest h => exact absurd (hdigits '+' (h ▸ List.mem_cons_self)) (by decide)
    · rfl
  rw [hunsigned, natOfDigits?, if_pos ⟨Nat.toDigits_ne_nil, List.all_eq_true.mpr hdigits⟩,
    natOfDigits_toDigits]

/-- The decimal text of a whole number, with blanks around, is read as the number is. -/
theorem ofText?_toString (i : Int) {before after : List Char}
    (hbefore : ∀ c ∈ before, isBlank c = true) (hafter : ∀ c ∈ after, isBlank c = true) :
    ofText? (String.ofList (before ++ (toString i).toList ++ after)) =
      if i < 0 then none else ofNat? i.natAbs := by
  have hsolid : ∀ c ∈ (toString i).toList, isBlank c = false := by
    intro c hc
    rw [toList_toString, List.mem_append] at hc
    rcases hc with hsign | hdigit
    · split at hsign
      · rw [List.mem_singleton.mp hsign]
        decide
      · cases hsign
    · exact isBlank_of_isDigit (isDigit_of_mem_toDigits c hdigit)
  rw [ofText?, String.toList_ofList, trimBlank_pad hbefore hsolid hafter, toList_toString]
  split
  · rfl
  · rw [List.nil_append, natOfDigits?_toDigits, Option.bind_some]

/-! ## Main statement -/

theorem ofNumber?_eq_some_iff (n : Number) (count : UInt64) :
    ofNumber? n = some count ↔
      n.value = count.toNat ∨ n.value = 2 ^ 64 ∧ count.toNat = largest := by
  cases n with
  | double d => exact ofDouble?_eq_some_iff d count
  | integer i h =>
    have hvalue : (Number.integer i h).value = i := rfl
    have hbelow : (i : ℚ) ≠ 2 ^ 64 := by
      have hne : i ≠ 2 ^ 64 := by omega
      exact_mod_cast hne
    have hcast : (i : ℚ) = count.toNat ↔ i = count.toNat := by norm_cast
    rw [ofNumber?_integer_eq_some_iff, hvalue, hcast, or_iff_left (fun hand => hbelow hand.1)]

theorem ofValue_number (key : String) (n : Number) : ofValue key (.number n) =
    (ofNumber? n).elim (.error (.invalidPagination key (.number n)))
      (fun count => .ok (some count)) := by
  cases h : ofNumber? n <;> simp [ofValue, h]

theorem ofValue_string (key text : String) : ofValue key (.string text) =
    (ofText? text).elim (.error (.invalidPagination key (.string text)))
      (fun count => .ok (some count)) := by
  cases h : ofText? text <;> simp [ofValue, h]

/-- A number is read as the count that its value is, but `2 ^ 64` as the largest; any other number
    is refused. The decimal text of a whole number, with blanks around, is read as the count that
    the number is and refused if it is none, `2 ^ 64` among them. -/
theorem counts_are_values_but_at_the_bound (key : String) :
    (∀ (n : Number) (count : UInt64), ofValue key (.number n) = .ok (some count) ↔
      n.value = count.toNat ∨ n.value = 2 ^ 64 ∧ count.toNat = 2 ^ 64 - 1) ∧
    (∀ n : Number, (∃ count, ofValue key (.number n) = .ok (some count)) ∨
      ofValue key (.number n) = .error (.invalidPagination key (.number n))) ∧
    (∀ (i : Int) (before after : List Char), (∀ c ∈ before, isBlank c = true) →
      (∀ c ∈ after, isBlank c = true) →
      let text := String.ofList (before ++ (toString i).toList ++ after)
      (∀ count : UInt64, i = count.toNat → ofValue key (.string text) = .ok (some count)) ∧
      (i < 0 ∨ 2 ^ 64 ≤ i →
        ofValue key (.string text) = .error (.invalidPagination key (.string text)))) := by
  refine ⟨?_, ?_, ?_⟩
  · intro n count
    refine Iff.trans ?_ (ofNumber?_eq_some_iff n count)
    rw [ofValue_number]
    cases ofNumber? n <;> simp
  · intro n
    rw [ofValue_number]
    cases ofNumber? n with
    | none => exact Or.inr rfl
    | some count => exact Or.inl ⟨count, rfl⟩
  · intro i before after hbefore hafter text
    have htext := ofText?_toString i hbefore hafter
    constructor
    · intro count hi
      have hcount : ofText? text = some count := by
        rw [htext, if_neg (by omega), ofNat?_eq_some_iff]
        omega
      rw [ofValue_string, hcount]
      rfl
    · intro hi
      have hnone : ofText? text = none := by
        rw [htext]
        split
        · rfl
        · have hlargest : largest = 2 ^ 64 - 1 := rfl
          rw [ofNat?, if_neg (by omega)]
      rw [ofValue_string, hnone]
      rfl

/-- The largest count between blanks of other kinds, and one more. -/
theorem counts_are_values_but_at_the_bound_largest :
    let largest : Int := 2 ^ 64 - 1
    let padded (i : Int) := String.ofList (['\t', '\u00a0'] ++ (toString i).toList ++ ['\u2028'])
    (∀ c ∈ ['\t', '\u00a0'], isBlank c = true) ∧ (∀ c ∈ ['\u2028'], isBlank c = true) ∧
      ofValue "limit" (.string (padded largest)) = .ok (some (UInt64.ofNat (2 ^ 64 - 1))) ∧
      ofValue "limit" (.string (padded (largest + 1))) =
        .error (.invalidPagination "limit" (.string (padded (largest + 1)))) ∧
      ofValue "limit" (.number (.double ⟨false, 2 ^ 52, -52, by decide, by decide, by decide⟩)) =
        .ok (some 1) := by
  intro largest padded
  have hbefore : ∀ c ∈ ['\t', '\u00a0'], isBlank c = true :=
    List.all_eq_true.mp (by decide)
  have hafter : ∀ c ∈ ['\u2028'], isBlank c = true := List.all_eq_true.mp (by decide)
  obtain ⟨hnumber, -, htext⟩ := counts_are_values_but_at_the_bound "limit"
  refine ⟨hbefore, hafter, ?_, ?_, ?_⟩
  · exact (htext largest _ _ hbefore hafter).1 _ (by decide)
  · exact (htext (largest + 1) _ _ hbefore hafter).2 (Or.inr (by decide))
  · have hone : (1 : UInt64).toNat = 1 := rfl
    refine (hnumber _ _).mpr (Or.inl ?_)
    rw [hone]
    norm_num [Number.value, Double.value]

/-- The double `2 ^ 64` is no count, but it is read as the largest one; its decimal text is
    refused. -/
theorem two_pow_64_is_read_as_largest :
    let beyond : Number := .double ⟨false, 2 ^ 52, 12, by decide, by decide, by decide⟩
    beyond.value = 2 ^ 64 ∧ (∀ count : UInt64, beyond.value ≠ count.toNat) ∧
      ofValue "skip" (.number beyond) = .ok (some (UInt64.ofNat (2 ^ 64 - 1))) ∧
      ofValue "skip" (.string "18446744073709551616") =
        .error (.invalidPagination "skip" (.string "18446744073709551616")) := by
  intro beyond
  have hvalue : beyond.value = 2 ^ 64 := by norm_num [beyond, Number.value, Double.value]
  refine ⟨hvalue, ?_, ?_, ?_⟩
  · intro count hcount
    have hlt := count.toNat_lt
    have hsame : (count.toNat : ℚ) = 2 ^ 64 := hcount.symm.trans hvalue
    have hsame' : count.toNat = 2 ^ 64 := by exact_mod_cast hsame
    omega
  · have hread : ofNumber? beyond = some (UInt64.ofNat (2 ^ 64 - 1)) :=
      (ofNumber?_eq_some_iff beyond _).mpr (Or.inr ⟨hvalue, rfl⟩)
    rw [ofValue_number, hread]
    rfl
  · rfl

end DocQuery.Count
