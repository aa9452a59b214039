import DocQuery.Number.Text
import DocQuery.Proofs.Delimited
import DocQuery.Proofs.ShortestDecimal

set_option autoImplicit false

/-! # The text of a number determines the number

A number is written in three parts: digits, perhaps a point with more digits, perhaps an exponent
(`WrittenNumber`). The parts can be told from the text, and a value from the parts. A whole number
has the first part only and a double never has, so the two are never taken for each other; and no
two doubles of a sign can be written with the same value, as each of them is written with one that
rounds to it (`Number.delimited_text`). -/

namespace DocQuery

/-! ## Digits -/

theorem natOfDigits_eq (digits : List Char) : natOfDigits digits = Nat.ofDigitChars 10 digits 0 :=
  rfl

theorem natOfDigits_toDigits (n : Nat) : natOfDigits (Nat.toDigits 10 n) = n := by
  rw [natOfDigits_eq, Nat.ofDigitChars_ten_toDigits]

theorem natOfDigits_append_zeros (digits : List Char) (n : Nat) :
    natOfDigits (digits ++ List.replicate n '0') = natOfDigits digits * Nat.pow 10 n := by
  rw [natOfDigits_eq, Nat.ofDigitChars_append, Nat.ofDigitChars_replicate_zero, Nat.mul_comm]
  rfl

theorem natOfDigits_zeros_append (digits : List Char) (n : Nat) :
    natOfDigits (List.replicate n '0' ++ digits) = natOfDigits digits := by
  rw [natOfDigits_eq, Nat.ofDigitChars_append, Nat.ofDigitChars_replicate_zero, Nat.mul_zero]
  rfl

theorem isDigit_of_mem_toDigits {n : Nat} : ∀ c ∈ Nat.toDigits 10 n, c.isDigit = true :=
  fun _ hc => Nat.isDigit_of_mem_toDigits (by decide) (by decide) hc

theorem isDigit_of_mem_zeros {n : Nat} : ∀ c ∈ List.replicate n '0', c.isDigit = true := by
  intro c hc
  rw [List.eq_of_mem_replicate hc]
  rfl

/-! ## The parts of a number -/

/-- The parts that the magnitude of a number is written in. A point is written if there are digits
    after it. -/
structure WrittenNumber where
  whole : List Char
  fraction : List Char
  exponent : Option (Bool × List Char)

namespace WrittenNumber

/-- The digits after the point, with the point. -/
def fractionChars (digits : List Char) : List Char :=
  if digits = [] then [] else '.' :: digits

theorem fractionChars_of_ne_nil {digits : List Char} (h : digits ≠ []) :
    fractionChars digits = '.' :: digits :=
  if_neg h

/-- The exponent, with its mark and its sign. -/
def exponentChars : Option (Bool × List Char) → List Char
  | none => []
  | some (negative, digits) => 'e' :: (if negative then '-' else '+') :: digits

/-- The parts as they are written. -/
def chars (w : WrittenNumber) : List Char :=
  w.whole ++ (fractionChars w.fraction ++ exponentChars w.exponent)

/-- Digits stand where digits are to stand. -/
structure HasDigits (w : WrittenNumber) : Prop where
  whole : ∀ c ∈ w.whole, c.isDigit = true
  fraction : ∀ c ∈ w.fraction, c.isDigit = true
  exponent : ∀ e ∈ w.exponent, ∀ c ∈ e.2, c.isDigit = true

/-- The power of ten of an exponent. -/
def exponentValue : Option (Bool × List Char) → ℤ
  | none => 0
  | some (negative, digits) => if negative then -(natOfDigits digits : ℤ) else natOfDigits digits

/-- The number that is written. -/
def value (w : WrittenNumber) : ℚ :=
  natOfDigits (w.whole ++ w.fraction) * 10 ^ (exponentValue w.exponent - w.fraction.length)

/-! ### Telling the parts apart -/

theorem isDigit_head_of_endsValue {r : List Char} (hr : EndsValue r) :
    ∀ c ∈ r.head?, c.isDigit = false := by
  intro c hc
  rcases hr.head_cases c hc with rfl | rfl | rfl | rfl | rfl <;> rfl

theorem exponentChars_some_append_ne {r s : List Char} (hr : EndsValue r)
    (e : Bool × List Char) : exponentChars (some e) ++ s ≠ r := by
  rintro rfl
  have hmark := hr.head_cases 'e' rfl
  simp at hmark

theorem exponentChars_cancel {e e' : Option (Bool × List Char)} {r s : List Char}
    (he : ∀ p ∈ e, ∀ c ∈ p.2, c.isDigit = true) (he' : ∀ p ∈ e', ∀ c ∈ p.2, c.isDigit = true)
    (hr : EndsValue r) (hs : EndsValue s)
    (h : exponentChars e ++ r = exponentChars e' ++ s) : e = e' ∧ r = s := by
  cases e with
  | none =>
    cases e' with
    | none => exact ⟨rfl, h⟩
    | some p' => exact absurd h.symm (exponentChars_some_append_ne hr p')
  | some p =>
    cases e' with
    | none => exact absurd h (exponentChars_some_append_ne hs p)
    | some p' =>
      obtain ⟨negative, digits⟩ := p
      obtain ⟨negative', digits'⟩ := p'
      simp only [exponentChars, List.cons_append, List.cons.injEq, true_and] at h
      obtain ⟨hsign, h⟩ := h
      have hnegative : negative = negative' := by cases negative <;> cases negative' <;> simp_all
      obtain ⟨rfl, hend⟩ := run_cancel (he _ rfl) (he' _ rfl) (isDigit_head_of_endsValue hr)
        (isDigit_head_of_endsValue hs) h
      exact ⟨by rw [hnegative], hend⟩

/-- What may come after the digits of a fraction, whether there are such digits or not. -/
structure EndsFraction (r : List Char) : Prop where
  digit : ∀ c ∈ r.head?, c.isDigit = false
  point : ∀ c t, r = '.' :: c :: t → c.isDigit = false

theorem endsFraction_exponentChars {r : List Char} (hr : EndsValue r)
    (e : Option (Bool × List Char)) : EndsFraction (exponentChars e ++ r) := by
  cases e with
  | none =>
    refine ⟨isDigit_head_of_endsValue hr, fun c t hpoint => ?_⟩
    rcases hr with hr | ⟨c', t', rfl, hc⟩
    · have hmark := hr '.' (by rw [exponentChars, List.nil_append] at hpoint; simp [hpoint])
      simp at hmark
    · obtain ⟨rfl, -⟩ := List.cons.inj (List.cons.inj hpoint).2
      exact hc
  | some p => exact ⟨by simp [exponentChars], by simp [exponentChars]⟩

theorem fractionChars_cancel {f f' r s : List Char} (hf : ∀ c ∈ f, c.isDigit = true)
    (hf' : ∀ c ∈ f', c.isDigit = true) (hr : EndsFraction r) (hs : EndsFraction s)
    (h : fractionChars f ++ r = fractionChars f' ++ s) : f = f' ∧ r = s := by
  have habsent : ∀ {d : Char} {f r s : List Char}, (∀ c ∈ d :: f, c.isDigit = true) →
      EndsFraction r → r ≠ fractionChars (d :: f) ++ s := by
    intro d f r s hf hr hpoint
    have hdigit := hr.point d (f ++ s) hpoint
    rw [hf d List.mem_cons_self] at hdigit
    cases hdigit
  cases f with
  | nil =>
    cases f' with
    | nil => exact ⟨rfl, h⟩
    | cons d' rest' => exact absurd h (habsent hf' hr)
  | cons d rest =>
    cases f' with
    | nil => exact absurd h.symm (habsent hf hs)
    | cons d' rest' => exact run_cancel hf hf' hr.digit hs.digit (List.cons.inj h).2

/-- The parts can be told from the text. -/
theorem chars_cancel {w w' : WrittenNumber} {r s : List Char} (hw : w.HasDigits)
    (hw' : w'.HasDigits) (hr : EndsValue r) (hs : EndsValue s) (h : w.chars ++ r = w'.chars ++ s) :
    w = w' ∧ r = s := by
  have hafter : ∀ (w : WrittenNumber) {r : List Char}, EndsValue r →
      ∀ c ∈ (fractionChars w.fraction ++ (exponentChars w.exponent ++ r)).head?,
        c.isDigit = false := by
    intro w r hr
    unfold fractionChars
    split
    · exact (endsFraction_exponentChars hr w.exponent).digit
    · intro c hc
      obtain rfl := Option.some.inj hc
      rfl
  simp only [chars, List.append_assoc] at h
  obtain ⟨hwhole, h⟩ := run_cancel hw.whole hw'.whole (hafter w hr) (hafter w' hs) h
  obtain ⟨hfraction, h⟩ := fractionChars_cancel hw.fraction hw'.fraction
    (endsFraction_exponentChars hr w.exponent) (endsFraction_exponentChars hs w'.exponent) h
  obtain ⟨hexponent, h⟩ := exponentChars_cancel hw.exponent hw'.exponent hr hs h
  refine ⟨?_, h⟩
  cases w
  cases w'
  simp_all

/-- The parts do not start with a sign. -/
theorem chars_append_ne_minus {w : WrittenNumber} (hw : w.HasDigits) {r s : List Char}
    (hr : EndsValue r) : w.chars ++ r ≠ '-' :: s := by
  obtain ⟨whole, fraction, exponent⟩ := w
  intro h
  have hminus : ∀ c ∈ (chars ⟨whole, fraction, exponent⟩ ++ r).head?, c = '-' := by simp [h]
  cases whole with
  | cons c rest =>
    have hdigit := hw.whole c List.mem_cons_self
    rw [hminus c rfl] at hdigit
    cases hdigit
  | nil =>
    cases fraction with
    | cons c rest => exact absurd (hminus '.' rfl) (by decide)
    | nil =>
      cases exponent with
      | some e => exact absurd (hminus 'e' rfl) (by decide)
      | none =>
        have hmark := hr.head_cases '-' (by rw [show r = '-' :: s from h]; rfl)
        simp at hmark

end WrittenNumber

/-! ## How doubles are written -/

/-- Final zeros can be moved into the exponent. -/
theorem cast_mul_pow_mul_zpow (c m : Nat) (k : Int) :
    ((c * Nat.pow 10 m : Nat) : ℚ) * 10 ^ k = c * 10 ^ (k + m) := by
  have hpow : ((Nat.pow 10 m : Nat) : ℚ) = 10 ^ (m : Int) := by
    rw [zpow_natCast]
    exact Nat.cast_pow 10 m
  rw [Nat.cast_mul, hpow, zpow_add₀ (by norm_num)]
  ring

theorem exists_zeros_of_trimZeros (digits : List Char) (exponent : Int) : ∃ n : Nat,
    digits = (trimZeros digits exponent).1 ++ List.replicate n '0' ∧
      (trimZeros digits exponent).2 = exponent + n := by
  have hsplit := List.takeWhile_append_dropWhile (p := (· = '0')) (l := digits.reverse)
  have hzeros : (digits.reverse.takeWhile (· = '0')) =
      List.replicate (digits.reverse.takeWhile (· = '0')).length '0' := by
    refine List.eq_replicate_iff.mpr ⟨rfl, fun c hc => ?_⟩
    simpa using List.all_eq_true.mp List.all_takeWhile c hc
  refine ⟨(digits.reverse.takeWhile (· = '0')).length, ?_, ?_⟩
  · rw [trimZeros, ← List.reverse_replicate, ← hzeros, ← List.reverse_append, hsplit,
      List.reverse_reverse]
  · have hlength := congrArg List.length hsplit
    simp only [List.length_append, List.length_reverse] at hlength
    simp only [trimZeros, List.length_reverse]
    omega

/-- Dropping the final zeros does not change the value. -/
theorem natOfDigits_trimZeros (digits : List Char) (exponent : Int) :
    (natOfDigits (trimZeros digits exponent).1 : ℚ) * 10 ^ (trimZeros digits exponent).2 =
      natOfDigits digits * 10 ^ exponent := by
  obtain ⟨n, hsplit, hexponent⟩ := exists_zeros_of_trimZeros digits exponent
  conv_rhs => rw [hsplit]
  rw [natOfDigits_append_zeros, cast_mul_pow_mul_zpow, hexponent]

variable {digits : List Char}

theorem isDigit_of_mem_trimZeros (hdigits : ∀ c ∈ digits, c.isDigit = true) (exponent : Int) :
    ∀ c ∈ (trimZeros digits exponent).1, c.isDigit = true := by
  obtain ⟨n, hsplit, -⟩ := exists_zeros_of_trimZeros digits exponent
  rw [hsplit] at hdigits
  exact (List.forall_mem_append.mp hdigits).1

theorem positionalText_eq (hdigits : ∀ c ∈ digits, c.isDigit = true) (exponent : Int) :
    ∃ w : WrittenNumber, positionalText digits exponent = w.chars ∧ w.HasDigits ∧
      w.fraction ≠ [] ∧ w.value = natOfDigits digits * 10 ^ exponent := by
  unfold positionalText
  dsimp only
  split
  · next hnonneg =>
    refine ⟨⟨digits ++ List.replicate exponent.toNat '0', ['0'], none⟩, ?_, ⟨?_, ?_, ?_⟩, ?_, ?_⟩
    · simp [WrittenNumber.chars, WrittenNumber.fractionChars, WrittenNumber.exponentChars]
    · exact List.forall_mem_append.mpr ⟨hdigits, isDigit_of_mem_zeros⟩
    · simp
    · simp
    · simp
    · have hzeros : digits ++ List.replicate exponent.toNat '0' ++ ['0'] =
          digits ++ List.replicate (exponent.toNat + 1) '0' := by
        rw [List.replicate_succ', List.append_assoc]
      rw [WrittenNumber.value, hzeros, natOfDigits_append_zeros, cast_mul_pow_mul_zpow]
      congr 2
      simp only [WrittenNumber.exponentValue, List.length_singleton]
      omega
  · next hneg =>
    split
    · next hwhole =>
      have hfraction : digits.drop (digits.length + exponent).toNat ≠ [] := by
        rw [ne_eq, List.drop_eq_nil_iff]
        omega
      refine ⟨⟨digits.take (digits.length + exponent).toNat,
        digits.drop (digits.length + exponent).toNat, none⟩, ?_, ⟨?_, ?_, ?_⟩, hfraction, ?_⟩
      · rw [WrittenNumber.chars, WrittenNumber.fractionChars_of_ne_nil hfraction,
          WrittenNumber.exponentChars, List.append_nil]
      · exact fun c hc => hdigits c (List.mem_of_mem_take hc)
      · exact fun c hc => hdigits c (List.mem_of_mem_drop hc)
      · simp
      · rw [WrittenNumber.value, List.take_append_drop]
        congr 2
        simp only [WrittenNumber.exponentValue, List.length_drop]
        omega
    · next hnone =>
      have hlength : (List.replicate (-exponent - digits.length).toNat '0' ++ digits).length =
          (-exponent).toNat := by
        rw [List.length_append, List.length_replicate]
        omega
      have hfraction : List.replicate (-exponent - digits.length).toNat '0' ++ digits ≠ [] := by
        rw [← List.length_pos_iff, hlength]
        omega
      refine ⟨⟨['0'], List.replicate (-exponent - digits.length).toNat '0' ++ digits, none⟩,
        ?_, ⟨?_, ?_, ?_⟩, hfraction, ?_⟩
      · rw [WrittenNumber.chars, WrittenNumber.fractionChars_of_ne_nil hfraction,
          WrittenNumber.exponentChars, List.append_nil]
        rfl
      · simp
      · exact List.forall_mem_append.mpr ⟨isDigit_of_mem_zeros, hdigits⟩
      · simp
      · have hzeros : ['0'] ++ (List.replicate (-exponent - digits.length).toNat '0' ++ digits) =
            List.replicate ((-exponent - digits.length).toNat + 1) '0' ++ digits := rfl
        rw [WrittenNumber.value, hzeros, natOfDigits_zeros_append, hlength]
        congr 2
        simp only [WrittenNumber.exponentValue]
        omega

theorem scientificText_eq (hdigits : ∀ c ∈ digits, c.isDigit = true) (exponent : Int) :
    ∃ w : WrittenNumber, scientificText digits exponent = w.chars ∧ w.HasDigits ∧
      w.exponent ≠ none ∧ w.value = natOfDigits digits * 10 ^ exponent := by
  obtain ⟨first, hfirst⟩ : ∃ first : Int, first = digits.length - 1 + exponent := ⟨_, rfl⟩
  refine ⟨⟨digits.take 1, digits.drop 1, some (decide (first < 0), Nat.toDigits 10 first.natAbs)⟩,
    ?_, ⟨?_, ?_, ?_⟩, by simp, ?_⟩
  · have hfraction : (if digits.length ≤ 1 then [] else '.' :: digits.drop 1) =
        WrittenNumber.fractionChars (digits.drop 1) := by
      simp only [WrittenNumber.fractionChars, List.drop_eq_nil_iff]
    simp only [scientificText, ← hfirst, hfraction, WrittenNumber.chars,
      WrittenNumber.exponentChars, decide_eq_true_eq, List.append_assoc]
  · exact fun c hc => hdigits c (List.mem_of_mem_take hc)
  · exact fun c hc => hdigits c (List.mem_of_mem_drop hc)
  · intro e he
    obtain rfl := Option.some.inj he
    exact isDigit_of_mem_toDigits
  · have hvalue : WrittenNumber.exponentValue
        (some (decide (first < 0), Nat.toDigits 10 first.natAbs)) = first := by
      simp only [WrittenNumber.exponentValue, natOfDigits_toDigits, decide_eq_true_eq]
      split <;> omega
    rw [WrittenNumber.value, List.take_append_drop, hvalue, List.length_drop, hfirst]
    cases digits with
    | nil => simp [natOfDigits]
    | cons c rest =>
      congr 2
      simp only [List.length_cons]
      omega

namespace Double

/-- The parts say which magnitude is written: zero is written as zero, and any other magnitude with
    a value that rounds to it. -/
structure IsWrittenAs (d : Double) (w : WrittenNumber) : Prop where
  hasDigits : w.HasDigits
  marked : w.fraction ≠ [] ∨ w.exponent ≠ none
  zero : d.significand = 0 → w.value = 0
  isNear : d.significand ≠ 0 → d.IsNear w.value

theorem magnitudeText_of_ne_zero {d : Double} (hne : d.significand ≠ 0) {p : List Char × Int}
    (hp : p = trimZeros (Nat.toDigits 10 d.shortest.1) d.shortest.2) :
    d.magnitudeText = if isPositional (p.1.length - 1 + p.2) then positionalText p.1 p.2
      else scientificText p.1 p.2 := by
  rw [magnitudeText, if_neg hne, hp]

theorem exists_isWrittenAs (d : Double) :
    ∃ w : WrittenNumber, d.magnitudeText = w.chars ∧ d.IsWrittenAs w := by
  by_cases hzero : d.significand = 0
  · rw [magnitudeText, if_pos hzero]
    refine ⟨⟨['0'], ['0'], none⟩, rfl, ⟨by simp, by simp, by simp⟩, by simp, fun _ => ?_,
      fun hne => absurd hzero hne⟩
    simp [WrittenNumber.value, natOfDigits]
  · obtain ⟨p, hp⟩ : ∃ p, p = trimZeros (Nat.toDigits 10 d.shortest.1) d.shortest.2 := ⟨_, rfl⟩
    have hdigits : ∀ c ∈ p.1, c.isDigit = true := by
      rw [hp]
      exact isDigit_of_mem_trimZeros isDigit_of_mem_toDigits _
    have hnear : d.IsNear (natOfDigits p.1 * 10 ^ p.2) := by
      rw [hp, natOfDigits_trimZeros, natOfDigits_toDigits]
      exact isNear_shortest hzero
    rw [magnitudeText_of_ne_zero hzero hp]
    split
    · obtain ⟨w, hw, hhas, hmarked, hvalue⟩ := positionalText_eq hdigits p.2
      exact ⟨w, hw, hhas, Or.inl hmarked, fun h => absurd h hzero, fun _ => hvalue ▸ hnear⟩
    · obtain ⟨w, hw, hhas, hmarked, hvalue⟩ := scientificText_eq hdigits p.2
      exact ⟨w, hw, hhas, Or.inr hmarked, fun h => absurd h hzero, fun _ => hvalue ▸ hnear⟩

/-- Magnitudes that are written with the same parts are the same. -/
theorem IsWrittenAs.unique {d d' : Double} {w : WrittenNumber} (h : d.IsWrittenAs w)
    (h' : d'.IsWrittenAs w) : d.exponent = d'.exponent ∧ d.significand = d'.significand := by
  have hleast : ∀ d : Double, d.significand = 0 → d.exponent = -1074 :=
    fun d hzero => d.normalized (by omega)
  by_cases hzero : d.significand = 0
  · by_cases hzero' : d'.significand = 0
    · exact ⟨by rw [hleast d hzero, hleast d' hzero'], by rw [hzero, hzero']⟩
    · exact absurd (h.zero hzero) ((h'.isNear hzero').pos hzero').ne'
  · by_cases hzero' : d'.significand = 0
    · exact absurd (h'.zero hzero') ((h.isNear hzero).pos hzero).ne'
    · exact eq_of_isNear (h.isNear hzero) (h'.isNear hzero')

end Double

/-! ## Main statement -/

namespace Number

/-- The sign and the parts say which number is written. -/
def IsWrittenAs : Number → Bool → WrittenNumber → Prop
  | .integer i _, negative, w =>
    negative = decide (i < 0) ∧ w = ⟨Nat.toDigits 10 i.natAbs, [], none⟩
  | .double d, negative, w => negative = d.negative ∧ d.IsWrittenAs w

theorem exists_isWrittenAs (n : Number) : ∃ negative w, n.IsWrittenAs negative w ∧
    n.text.toList = (if negative then ['-'] else []) ++ w.chars := by
  cases n with
  | integer i hi =>
    refine ⟨_, _, ⟨rfl, rfl⟩, ?_⟩
    simp [text, WrittenNumber.chars, WrittenNumber.fractionChars, WrittenNumber.exponentChars]
  | double d =>
    obtain ⟨w, hw, hwritten⟩ := d.exists_isWrittenAs
    refine ⟨_, w, ⟨rfl, hwritten⟩, ?_⟩
    rw [text, String.toList_ofList, hw]

theorem IsWrittenAs.hasDigits {n : Number} {negative : Bool} {w : WrittenNumber}
    (h : n.IsWrittenAs negative w) : w.HasDigits := by
  cases n with
  | integer i hi =>
    obtain ⟨-, rfl⟩ := h
    exact ⟨isDigit_of_mem_toDigits, by simp, by simp⟩
  | double d => exact h.2.hasDigits

theorem IsWrittenAs.unique {n n' : Number} {negative : Bool} {w : WrittenNumber}
    (h : n.IsWrittenAs negative w) (h' : n'.IsWrittenAs negative w) : n = n' := by
  cases n with
  | integer i hi =>
    obtain ⟨hsign, rfl⟩ := h
    cases n' with
    | integer i' hi' =>
      obtain ⟨hsign', hparts⟩ := h'
      have habs : i.natAbs = i'.natAbs := by
        have hwhole := congrArg (fun w => natOfDigits w.whole) hparts
        simpa only [natOfDigits_toDigits] using hwhole
      have hneg : i < 0 ↔ i' < 0 := by rw [← decide_eq_decide, ← hsign, hsign']
      have heq : i = i' := by omega
      subst heq
      rfl
    | double d' =>
      rcases h'.2.marked with hmarked | hmarked
      · exact absurd rfl hmarked
      · exact absurd rfl hmarked
  | double d =>
    cases n' with
    | integer i' hi' =>
      obtain ⟨-, rfl⟩ := h'
      rcases h.2.marked with hmarked | hmarked
      · exact absurd rfl hmarked
      · exact absurd rfl hmarked
    | double d' =>
      obtain ⟨hexponent, hsignificand⟩ := h.2.unique h'.2
      obtain ⟨negative, significand, exponent, _, _, _⟩ := d
      obtain ⟨negative', significand', exponent', _, _, _⟩ := d'
      have hnegative : negative = negative' := h.1.symm.trans h'.1
      subst hnegative hexponent hsignificand
      rfl

/-- The text of a number shows which number it is and where it ends. -/
theorem delimited_text (n : Number) : Delimited (fun n : Number => n.text.toList) EndsValue n := by
  intro n' r s hr hs h
  obtain ⟨negative, w, hw, htext⟩ := n.exists_isWrittenAs
  obtain ⟨negative', w', hw', htext'⟩ := n'.exists_isWrittenAs
  simp only [htext, htext', List.append_assoc] at h
  have hsame : negative = negative' ∧ w.chars ++ r = w'.chars ++ s := by
    cases negative with
    | true =>
      cases negative' with
      | true => exact ⟨rfl, (List.cons.inj h).2⟩
      | false => exact absurd h.symm (WrittenNumber.chars_append_ne_minus hw'.hasDigits hs)
    | false =>
      cases negative' with
      | true => exact absurd h (WrittenNumber.chars_append_ne_minus hw.hasDigits hr)
      | false => exact ⟨rfl, h⟩
  obtain ⟨rfl, hparts⟩ := hsame
  obtain ⟨rfl, hend⟩ := WrittenNumber.chars_cancel hw.hasDigits hw'.hasDigits hr hs hparts
  exact ⟨hw.unique hw', hend⟩

end Number

end DocQuery
