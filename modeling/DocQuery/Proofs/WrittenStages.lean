import DocQuery.Proofs.CountReading
import DocQuery.Proofs.JoinPairing
import DocQuery.Proofs.SortForms
import DocQuery.Proofs.WrittenParts

set_option autoImplicit false

/-! # What is written for the later stages

Sort keys, counts and joins are described here by what is written for them: an object of indicators
or a text of terms (`WritesSort`), a number or its digits (`WritesCount`), a list of joins of which
each has named parts (`WritesJoins`). Nothing in that refers to how they are read. A part that can
be read is written for one thing only, and that is the thing that it is read as
(`SortSpec.writesSort_iff`, `Count.writesCount_iff`, `writesJoins_iff`). -/

namespace DocQuery

/-! ## Sort orders -/

/-- The number one is written for ascending order, and any other value for descending order. -/
def Direction.IsIndicatedBy (indicator : Value) : Direction → Prop
  | .ascending => ∃ n, indicator = .number n ∧ n.value = 1
  | .descending => ∀ n, indicator = .number n → n.value ≠ 1

/-- The keys without repetition: a field stands where it is first named and has the direction that
    it is last given. -/
structure IsMerged (keys merged : List OrderKey) : Prop where
  fields : merged.map OrderKey.field = (keys.map OrderKey.field).eraseDups
  last : ∀ key ∈ merged, (keys.filter (·.field = key.field)).getLast? = some key

/-- The value is written for the sort keys. -/
inductive WritesSort : Value → List OrderKey → Prop where
  | absent : WritesSort .null []
  | object {fields : Assoc Value} {keys : List OrderKey}
      (h : List.Forall₂ (fun entry key => key.field = entry.1 ∧ key.direction.IsIndicatedBy entry.2)
        fields keys) : WritesSort (.object fields) keys
  | text {keys merged : List OrderKey} {parts : List (List Char)} (hparts : WritesKeys keys parts)
      (hmerged : IsMerged keys merged) : WritesSort (.string (joinedByCommas parts)) merged

/-- A number other than one is not rounded to one. -/
theorem Number.isOne_iff (n : Number) : n.isOne = true ↔ n.value = 1 := by
  have hrounded : n.isOne = true ↔ n.rounded = 1 := by
    have hne : (2 : ℚ) ^ 1074 ≠ 0 := pow_ne_zero _ (by norm_num)
    rw [isOne, beq_iff_eq, rounded, div_eq_one_iff_eq hne, ← Int.cast_inj (α := ℚ), Int.cast_pow,
      Int.cast_ofNat]
  rw [hrounded]
  cases n with
  | double d => rw [rounded_double, value]
  | integer i h =>
    -- zero, one and two are not rounded, and rounding keeps the order
    have hexact : ∀ j : Nat, ∀ hj : -2 ^ 63 ≤ (j : Int) ∧ (j : Int) < 2 ^ 64, j ≤ 2 ^ 53 →
        (integer j hj).rounded = j := by
      intro j hj hle
      refine (rounded_of_isShort ⟨j, 0, hle, ?_⟩).trans ?_ <;> simp [value]
    have hvalue : (integer i h).value = 1 ↔ i = 1 := by
      rw [value]
      norm_cast
    rw [hvalue]
    constructor
    · intro hone
      by_contra hne
      rcases Int.lt_or_gt_of_ne hne with hlt | hgt
      · have hle : (integer i h).value ≤ (integer (0 : Nat) (by decide)).value := by
          rw [value, value]
          exact_mod_cast Int.lt_add_one_iff.mp hlt
        have hrounds := rounded_le_rounded hle
        rw [hone, hexact 0 _ (by decide)] at hrounds
        norm_num at hrounds
      · have hle : (integer (2 : Nat) (by decide)).value ≤ (integer i h).value := by
          rw [value, value]
          exact_mod_cast hgt
        have hrounds := rounded_le_rounded hle
        rw [hone, hexact 2 _ (by decide)] at hrounds
        norm_num at hrounds
    · rintro rfl
      exact_mod_cast hexact 1 h (by decide)

theorem Direction.isIndicatedBy_iff {direction : Direction} {indicator : Value} :
    direction.IsIndicatedBy indicator ↔ Direction.ofIndicator indicator = direction := by
  cases indicator with
  | number n =>
    rw [ofIndicator]
    cases direction <;> simp [IsIndicatedBy, ← n.isOne_iff]
  | _ => cases direction <;> simp [IsIndicatedBy, ofIndicator]

theorem isMerged_mergedKeys (keys : List OrderKey) : IsMerged keys (mergedKeys keys) :=
  ⟨map_field_mergedKeys keys, fun _ => getLast?_of_mem_mergedKeys⟩

/-- The field of a key tells the key. -/
theorem IsMerged.unique {keys merged merged' : List OrderKey} (h : IsMerged keys merged)
    (h' : IsMerged keys merged') : merged = merged' := by
  have hfields : ∀ {merged}, IsMerged keys merged → merged.map some =
      (keys.map OrderKey.field).eraseDups.map
        (fun field => (keys.filter (·.field = field)).getLast?) := by
    intro merged h
    rw [← h.fields, List.map_map]
    exact List.map_congr_left (fun key hkey => (h.last key hkey).symm)
  exact List.map_injective_iff.mpr (Option.some_injective _) ((hfields h).trans (hfields h').symm)

/-- A text that can be read consists of terms. -/
theorem SortSpec.exists_writesKeys_of_ofValue {text : String} {sort : Option SortSpec}
    (h : SortSpec.ofValue (.string text) = .ok sort) :
    ∃ keys parts, WritesKeys keys parts ∧ joinedByCommas parts = text := by
  have htext : joinedByCommas (text.toList.splitOn ',') = text := by
    rw [joinedByCommas, List.intercalate_splitOn, String.ofList_toList]
  have hcomma : ∀ part ∈ text.toList.splitOn ',', ',' ∉ part := by
    intro part hpart
    rw [List.splitOn_eq_splitOnP] at hpart
    exact not_mem_of_mem_splitOnP hpart (by decide)
  have hterms : ∀ part ∈ text.toList.splitOn ',', ∀ tokens, Spaced tokens part →
      ¬ IsNoTerm tokens := by
    intro part hpart tokens htokens hno
    obtain ⟨fault, hfault⟩ := ofValue_joinedByCommas_of_isNoTerm hcomma hpart htokens hno
    rw [htext, h] at hfault
    cases hfault
  obtain ⟨keys, hkeys⟩ := exists_writesKeys hcomma hterms
  exact ⟨keys, _, hkeys, htext⟩

/-- What is read as a sort order is written for its keys and no others. -/
theorem SortSpec.writesSort_iff {written : Value} {sort : Option SortSpec}
    (h : SortSpec.ofValue written = .ok sort) {keys : List OrderKey} :
    WritesSort written keys ↔ keys = sort.elim [] SortSpec.compile := by
  cases written with
  | null =>
    obtain rfl := Except.ok.inj h
    refine ⟨fun h => ?_, fun heq => heq ▸ .absent⟩
    cases h
    rfl
  | object fields =>
    obtain rfl := Except.ok.inj h
    have hkeys : WritesSort (.object fields) keys ↔ List.Forall₂ (fun entry key =>
        key.field = entry.1 ∧ key.direction.IsIndicatedBy entry.2) fields keys := by
      refine ⟨fun hsort => ?_, .object⟩
      cases hsort with
      | object hentries => exact hentries
    have hkey : ∀ (entry : String × Value) (key : OrderKey),
        key.field = entry.1 ∧ key.direction.IsIndicatedBy entry.2 ↔
          ⟨entry.1, .ofIndicator entry.2⟩ = key := by
      rintro ⟨field, indicator⟩ ⟨field', direction⟩
      rw [Direction.isIndicatedBy_iff, OrderKey.mk.injEq, eq_comm]
    simp only [hkeys, hkey, Option.elim_some, compile, eq_comm (a := keys)]
    exact List.forall₂_eq_eq_eq ▸ List.forall₂_map_left_iff.symm
  | string text =>
    constructor
    · rintro (_ | _ | ⟨hparts, hmerged⟩)
      rw [ofValue_joinedByCommas hparts] at h
      obtain rfl := Except.ok.inj h
      rw [elim_compile_sortObject, hmerged.unique (isMerged_mergedKeys _)]
    · rintro rfl
      obtain ⟨terms, parts, hparts, rfl⟩ := exists_writesKeys_of_ofValue h
      rw [ofValue_joinedByCommas hparts] at h
      obtain rfl := Except.ok.inj h
      rw [elim_compile_sortObject]
      exact .text hparts (isMerged_mergedKeys terms)
  | _ => cases h

/-! ## Counts -/

/-- The value is written for the count. Without a value the count is zero. The number `2 ^ 64`, one
    more than the largest count, is written for the largest. -/
inductive WritesCount : Value → Nat → Prop where
  | absent : WritesCount .null 0
  | number {n : Number} {count : Nat} (hcount : n.value = count) (hle : count < 2 ^ 64) :
      WritesCount (.number n) count
  | beyond {n : Number} (hcount : n.value = 2 ^ 64) : WritesCount (.number n) (2 ^ 64 - 1)
  | text {text : String} {sign digits : List Char} {count : Nat} (hsign : sign = [] ∨ sign = ['+'])
      (hne : digits ≠ []) (hdigits : ∀ c ∈ digits, c.isDigit = true)
      (htext : Spaced [sign ++ digits] text.toList) (hcount : Nat.ofDigitChars 10 digits 0 = count)
      (hle : count < 2 ^ 64) : WritesCount (.string text) count

namespace Count

theorem trimBlank_of_spaced {token chars : List Char} (h : Spaced [token] chars) :
    trimBlank chars = token := by
  rcases h with _ | ⟨hgap, -, hsolid, hrest, -⟩
  rcases hrest with ⟨hrest⟩
  rw [← List.append_assoc]
  exact trimBlank_pad hgap hsolid hrest

theorem unsignedDigits_append {sign digits : List Char} (hsign : sign = [] ∨ sign = ['+'])
    (hdigits : ∀ c ∈ digits, c.isDigit = true) : unsignedDigits (sign ++ digits) = digits := by
  rcases hsign with rfl | rfl
  · rw [List.nil_append]
    unfold unsignedDigits
    split
    · exact absurd (hdigits '+' List.mem_cons_self) (by decide)
    · rfl
  · rfl

theorem ofText?_of_spaced {text : String} {sign digits : List Char}
    (hsign : sign = [] ∨ sign = ['+']) (hne : digits ≠ [])
    (hdigits : ∀ c ∈ digits, c.isDigit = true) (htext : Spaced [sign ++ digits] text.toList) :
    ofText? text = ofNat? (Nat.ofDigitChars 10 digits 0) := by
  rw [ofText?, trimBlank_of_spaced htext, unsignedDigits_append hsign hdigits, natOfDigits?,
    if_pos ⟨hne, List.all_eq_true.mpr hdigits⟩, Option.bind_some, natOfDigits_eq]

/-- A text that is read as a count consists of digits, perhaps with a plus in front. -/
theorem exists_spaced_of_ofText? {text : String} {count : UInt64} (h : ofText? text = some count) :
    ∃ sign digits, (sign = [] ∨ sign = ['+']) ∧ digits ≠ [] ∧
      (∀ c ∈ digits, c.isDigit = true) ∧ Spaced [sign ++ digits] text.toList := by
  obtain ⟨n, hn, -⟩ := Option.bind_eq_some_iff.mp h
  unfold natOfDigits? at hn
  split at hn
  · next hboth =>
    obtain ⟨hne, hall⟩ := hboth
    have hdigits := List.all_eq_true.mp hall
    obtain ⟨sign, hsign, hcore⟩ : ∃ sign, (sign = [] ∨ sign = ['+']) ∧
        trimBlank text.toList = sign ++ unsignedDigits (trimBlank text.toList) := by
      unfold unsignedDigits
      split
      · next hplus => exact ⟨['+'], Or.inr rfl, hplus⟩
      · exact ⟨[], Or.inl rfl, rfl⟩
    refine ⟨sign, _, hsign, hne, hdigits, spaced_iff.mpr ?_⟩
    have hsolid : ∀ c ∈ trimBlank text.toList, isBlank c = false := by
      intro c hc
      rw [hcore, List.mem_append] at hc
      rcases hc with hc | hc
      · rcases hsign with rfl | rfl
        · cases hc
        · rw [List.mem_singleton.mp hc]
          decide
      · exact isBlank_of_isDigit (hdigits c hc)
    have hcore_ne : trimBlank text.toList ≠ [] := by
      intro hnil
      rw [hnil] at hne
      exact hne rfl
    rw [← words_trimBlank, words_of_solid hcore_ne hsolid, ← hcore]
  · cases hn

/-- What is read as a count is written for it and no other. -/
theorem writesCount_iff {key : String} {written : Value} {count? : Option UInt64}
    (h : Count.ofValue key written = .ok count?) {count : Nat} :
    WritesCount written count ↔ count = count?.elim 0 UInt64.toNat := by
  cases written with
  | null =>
    obtain rfl := Except.ok.inj h
    refine ⟨fun h => ?_, fun heq => heq ▸ .absent⟩
    cases h
    rfl
  | number n =>
    rw [ofValue_number] at h
    cases hn : ofNumber? n with
    | none =>
      rw [hn] at h
      cases h
    | some c =>
      rw [hn] at h
      obtain rfl := Except.ok.inj h
      have hlt := c.toNat_lt
      have hvalue := (ofNumber?_eq_some_iff n c).mp hn
      have hlargest : largest = 2 ^ 64 - 1 := rfl
      rw [Option.elim_some]
      constructor
      · rintro (_ | ⟨hcount, hle⟩ | ⟨hcount⟩)
        · rcases hvalue with hvalue | ⟨hvalue, -⟩
          · exact_mod_cast hcount.symm.trans hvalue
          · have hbound : count = 2 ^ 64 := by exact_mod_cast hcount.symm.trans hvalue
            omega
        · rcases hvalue with hvalue | ⟨-, hvalue⟩
          · have hbound : c.toNat = 2 ^ 64 := by exact_mod_cast hvalue.symm.trans hcount
            omega
          · rw [hvalue, hlargest]
      · rintro rfl
        rcases hvalue with hvalue | ⟨hvalue, hc⟩
        · exact .number hvalue hlt
        · rw [hc]
          exact .beyond hvalue
  | string text =>
    rw [ofValue_string] at h
    cases htext : ofText? text with
    | none =>
      rw [htext] at h
      cases h
    | some c =>
      rw [htext] at h
      obtain rfl := Except.ok.inj h
      rw [Option.elim_some]
      constructor
      · rintro (_ | _ | _ | ⟨hsign, hne, hdigits, hspaced, rfl, -⟩)
        rw [ofText?_of_spaced hsign hne hdigits hspaced, ofNat?_eq_some_iff] at htext
        exact htext
      · rintro rfl
        obtain ⟨sign, digits, hsign, hne, hdigits, hspaced⟩ := exists_spaced_of_ofText? htext
        rw [ofText?_of_spaced hsign hne hdigits hspaced, ofNat?_eq_some_iff] at htext
        exact .text hsign hne hdigits hspaced htext c.toNat_lt
  | _ => cases h

end Count

/-! ## Joins -/

/-- The parts of a written join by name. In an array they stand in this order. -/
def Value.joinParts : Value → Assoc Value
  | .object fields => Assoc.ofList fields
  | .array items => List.zip ["alias", "child", "childKey", "parentKey", "model", "collection",
      "junctionTable"] items
  | _ => []

/-- The flag is set. -/
def Value.hasFlag (written : Value) (flag : String) : Prop :=
  written.joinParts.lookup flag = some (.bool true)

/-- The value is written for a join with the lookup. A key that is not there, or null, is none. -/
structure WritesLookup (written : Value) (lookup : Lookup) : Prop where
  attachAs : written.joinParts.lookup "alias" = some (.string lookup.attachAs)
  child : written.joinParts.lookup "child" = some (.string lookup.child)
  childKey : (written.joinParts.lookup "childKey").getD .null = lookup.childKey.elim .null .string
  parentKey : (written.joinParts.lookup "parentKey").getD .null =
    lookup.parentKey.elim .null .string

/-- The value is written for the join. The flag of a hop goes before the two others, of which just
    one is set. -/
inductive WritesJoin (written : Value) : Join → Prop where
  | junctionHop {lookup : Lookup} (h : WritesLookup written lookup)
      (hhop : written.hasFlag "junctionTable") : WritesJoin written (.junctionHop lookup)
  | belongsTo {lookup : Lookup} (h : WritesLookup written lookup)
      (hhop : ¬ written.hasFlag "junctionTable") (hmodel : written.hasFlag "model")
      (hcollection : ¬ written.hasFlag "collection") : WritesJoin written (.belongsTo lookup)
  | hasMany {lookup : Lookup} (h : WritesLookup written lookup)
      (hhop : ¬ written.hasFlag "junctionTable") (hmodel : ¬ written.hasFlag "model")
      (hcollection : written.hasFlag "collection") : WritesJoin written (.hasMany lookup)

/-- The value is written for the plans: each item for a join, and the joins are those that the plans
    stand for. -/
inductive WritesJoins : Value → List JoinPlan → Prop where
  | absent : WritesJoins .null []
  | array {items : List Value} {plans : List JoinPlan}
      (hjoins : List.Forall₂ WritesJoin items (plans.flatMap JoinPlan.joins))
      (hpaired : ∀ plan ∈ plans, plan.IsPaired) : WritesJoins (.array items) plans

namespace WrittenJoin

/-- Each part of the join is read from the value under its name. -/
structure ReadFrom (parts : Assoc Value) (join : WrittenJoin) : Prop where
  attachAs : parts.lookup "alias" = join.attachAs.map .string
  child : parts.lookup "child" = join.child.map .string
  childKey : (parts.lookup "childKey").getD .null = join.childKey.elim .null .string
  parentKey : (parts.lookup "parentKey").getD .null = join.parentKey.elim .null .string
  model : (parts.lookup "model").getD (.bool false) = .bool join.model
  collection : (parts.lookup "collection").getD (.bool false) = .bool join.collection
  junctionTable : (parts.lookup "junctionTable").getD (.bool false) = .bool join.junctionTable

variable {parts : Assoc Value} {join join' : WrittenJoin}

theorem eq_of_textOf {value : Value} {s : String} (h : textOf value = .ok s) :
    value = .string s := by
  cases value with
  | string text => rw [Except.ok.inj h]
  | _ => cases h

theorem eq_of_optionalTextOf {value : Value} {s? : Option String}
    (h : optionalTextOf value = .ok s?) : value = s?.elim .null .string := by
  cases value with
  | null | string text =>
    obtain rfl := Except.ok.inj h
    rfl
  | _ => cases h

theorem eq_of_flagOf {value : Value} {b : Bool} (h : flagOf value = .ok b) : value = .bool b := by
  cases value with
  | bool flag => rw [Except.ok.inj h]
  | _ => cases h

/-- Reading one more part keeps the ones that are read. -/
theorem ReadFrom.setKey {key : String} {value : Value} (h : ReadFrom parts join)
    (hread : join.setKey key value = .ok join') : ReadFrom (parts.insert key value) join' := by
  obtain ⟨halias, hchild, hchildKey, hparentKey, hmodel, hcollection, hjunction⟩ := h
  have hother : ∀ name, name ≠ key → (parts.insert key value).lookup name = parts.lookup name :=
    fun name hne => Assoc.lookup_insert_of_ne _ _ hne
  -- one case per name: its own part is read anew, the others are the ones of before
  unfold WrittenJoin.setKey at hread
  split_ifs at hread with h₁ h₂ h₃ h₄ h₅ h₆ h₇
  · obtain ⟨s, hs, rfl⟩ := map_eq_ok.mp hread
    obtain rfl := eq_of_textOf hs
    subst h₁
    constructor <;> simp [Assoc.lookup_insert_self, *]
  · obtain ⟨s, hs, rfl⟩ := map_eq_ok.mp hread
    obtain rfl := eq_of_textOf hs
    subst h₂
    constructor <;> simp [Assoc.lookup_insert_self, *]
  · obtain ⟨s, hs, rfl⟩ := map_eq_ok.mp hread
    obtain rfl := eq_of_optionalTextOf hs
    subst h₃
    constructor <;> simp [Assoc.lookup_insert_self, *]
  · obtain ⟨s, hs, rfl⟩ := map_eq_ok.mp hread
    obtain rfl := eq_of_optionalTextOf hs
    subst h₄
    constructor <;> simp [Assoc.lookup_insert_self, *]
  · obtain ⟨b, hb, rfl⟩ := map_eq_ok.mp hread
    obtain rfl := eq_of_flagOf hb
    subst h₅
    constructor <;> simp [Assoc.lookup_insert_self, *]
  · obtain ⟨b, hb, rfl⟩ := map_eq_ok.mp hread
    obtain rfl := eq_of_flagOf hb
    subst h₆
    constructor <;> simp [Assoc.lookup_insert_self, *]
  · obtain ⟨b, hb, rfl⟩ := map_eq_ok.mp hread
    obtain rfl := eq_of_flagOf hb
    subst h₇
    constructor <;> simp [Assoc.lookup_insert_self, *]
  · obtain rfl := Except.ok.inj hread
    constructor <;> simp [Ne.symm, *]

theorem ReadFrom.foldlM {fields : List (String × Value)} (h : ReadFrom parts join)
    (hread : fields.foldlM (fun join (key, value) => join.setKey key value) join = .ok join') :
    ReadFrom (Assoc.insertAll parts fields) join' := by
  induction fields generalizing parts join with
  | nil =>
    obtain rfl := Except.ok.inj hread
    exact h
  | cons field rest ih =>
    rw [List.foldlM_cons] at hread
    obtain ⟨next, hnext, hread⟩ := bind_eq_ok.mp hread
    exact ih (h.setKey hnext) hread

theorem readFrom_empty : ReadFrom [] {} :=
  ⟨rfl, rfl, rfl, rfl, rfl, rfl, rfl⟩

theorem ReadFrom.congr {parts' : Assoc Value} (h : ReadFrom parts join)
    (hsame : ∀ name, parts'.lookup name = parts.lookup name) : ReadFrom parts' join := by
  obtain ⟨halias, hchild, hchildKey, hparentKey, hmodel, hcollection, hjunction⟩ := h
  constructor <;> simp [*]

theorem readFrom_of_ofValue {written : Value} (h : ofValue written = .ok join) :
    ReadFrom written.joinParts join := by
  cases written with
  | object fields => exact readFrom_empty.foldlM h
  | array items =>
    obtain ⟨read, hread, h⟩ := bind_eq_ok.mp h
    have hkeys : (Assoc.keys (List.zip keyOrder items)).Nodup := by
      rw [Assoc.keys, List.zip_eq_zip_take_min, List.map_fst_zip (by simp)]
      exact List.Nodup.sublist (List.take_sublist _ _) (by decide)
    have hparts : ReadFrom (List.zip keyOrder items) read := by
      refine (readFrom_empty.foldlM hread).congr (fun name => ?_)
      rw [Assoc.lookup_insertAll_of_nodup hkeys, List.lookup_nil, Option.or_none]
    split_ifs at h
    · cases h
    · cases h
    · cases h
    · obtain rfl := Except.ok.inj h
      exact hparts
  | _ => cases h

/-- A flag that is not there is not set. -/
theorem hasFlag_iff {written : Value} {flag : String} {b : Bool}
    (h : (written.joinParts.lookup flag).getD (.bool false) = .bool b) :
    written.hasFlag flag ↔ b = true := by
  unfold Value.hasFlag
  cases hpart : written.joinParts.lookup flag with
  | none =>
    rw [hpart] at h
    cases h
    simp
  | some value =>
    rw [hpart, Option.getD_some] at h
    simp [h]

theorem writesLookup_of_lookup {written : Value} {lookup : Lookup}
    (hparts : ReadFrom written.joinParts join) (h : join.lookup = .ok lookup) :
    WritesLookup written lookup := by
  unfold WrittenJoin.lookup at h
  split at h
  · cases h
  · cases h
  · next attachAs child halias hchild =>
    obtain rfl := Except.ok.inj h
    constructor
    · rw [hparts.attachAs, halias, Option.map_some]
    · rw [hparts.child, hchild, Option.map_some]
    · exact hparts.childKey
    · exact hparts.parentKey

end WrittenJoin

/-- A value is written for one lookup only. -/
theorem WritesLookup.unique {written : Value} {lookup lookup' : Lookup}
    (h : WritesLookup written lookup) (h' : WritesLookup written lookup') : lookup = lookup' := by
  have hoptional : ∀ s s' : Option String,
      s.elim Value.null Value.string = s'.elim Value.null Value.string → s = s' := by
    intro s s' hsame
    cases s <;> cases s' <;> simp_all
  obtain ⟨attachAs, child, childKey, parentKey⟩ := lookup
  obtain ⟨attachAs', child', childKey', parentKey'⟩ := lookup'
  obtain rfl := Value.string.inj (Option.some.inj (h.attachAs.symm.trans h'.attachAs))
  obtain rfl := Value.string.inj (Option.some.inj (h.child.symm.trans h'.child))
  obtain rfl := hoptional _ _ (h.childKey.symm.trans h'.childKey)
  obtain rfl := hoptional _ _ (h.parentKey.symm.trans h'.parentKey)
  rfl

/-- A value is written for one join only. -/
theorem WritesJoin.unique {written : Value} {join join' : Join} (h : WritesJoin written join)
    (h' : WritesJoin written join') : join = join' := by
  cases h with
  | junctionHop h =>
    cases h' with
    | junctionHop h' => rw [h.unique h']
    | _ => contradiction
  | belongsTo h =>
    cases h' with
    | belongsTo h' => rw [h.unique h']
    | _ => contradiction
  | hasMany h =>
    cases h' with
    | hasMany h' => rw [h.unique h']
    | _ => contradiction

/-- What is read as a join is written for it and no other. -/
theorem Join.writesJoin_iff {position : Nat} {written : Value} {join other : Join}
    (h : Join.ofValue position written = .ok join) : WritesJoin written other ↔ other = join := by
  suffices hwrites : WritesJoin written join from
    ⟨fun hother => hother.unique hwrites, fun heq => heq ▸ hwrites⟩
  obtain ⟨parts, hread, h⟩ := bind_eq_ok.mp h
  obtain ⟨lookup, hlookup, h⟩ := bind_eq_ok.mp h
  have hparts := WrittenJoin.readFrom_of_ofValue (mapError_eq_ok.mp hread)
  have hwrites := WrittenJoin.writesLookup_of_lookup hparts (mapError_eq_ok.mp hlookup)
  have hhop := WrittenJoin.hasFlag_iff hparts.junctionTable
  have hmodel := WrittenJoin.hasFlag_iff hparts.model
  have hcollection := WrittenJoin.hasFlag_iff hparts.collection
  split at h
  · next hset =>
    obtain rfl := Except.ok.inj h
    exact .junctionHop hwrites (hhop.mpr hset)
  · next hset =>
    have hnohop := mt hhop.mp hset
    split at h
    · next hm hc =>
      obtain rfl := Except.ok.inj h
      exact .belongsTo hwrites hnohop (hmodel.mpr hm) (mt hcollection.mp (by simp [hc]))
    · next hm hc =>
      obtain rfl := Except.ok.inj h
      exact .hasMany hwrites hnohop (mt hmodel.mp (by simp [hm])) (hcollection.mpr hc)
    · cases h
    · cases h

theorem Join.forall₂_writesJoin_iff {position : Nat} {items : List Value} {joins others : List Join}
    (h : Join.listOfValues position items = .ok joins) :
    List.Forall₂ WritesJoin items others ↔ others = joins := by
  induction items generalizing position joins others with
  | nil =>
    obtain rfl := Except.ok.inj h
    rw [List.forall₂_nil_left_iff]
  | cons item rest ih =>
    obtain ⟨join, hjoin, h⟩ := bind_eq_ok.mp h
    obtain ⟨later, hlater, h⟩ := bind_eq_ok.mp h
    obtain rfl := Except.ok.inj h
    simp only [List.forall₂_cons_left_iff, Join.writesJoin_iff hjoin, ih hlater]
    constructor
    · rintro ⟨_, _, rfl, rfl, rfl⟩
      rfl
    · rintro rfl
      exact ⟨join, later, rfl, rfl, rfl⟩

/-- What is read as joins is written for their plans and no others. -/
theorem writesJoins_iff {written : Value} {joins : Option (List Join)}
    (h : joinsOfValue written = .ok joins) {plans : List JoinPlan} :
    WritesJoins written plans ↔
      plans = joins.elim [] (fun joins => (JoinPlan.ofList joins).toOption.getD []) := by
  cases written with
  | null =>
    obtain rfl := Except.ok.inj h
    refine ⟨fun h => ?_, fun heq => heq ▸ .absent⟩
    cases h
    rfl
  | array items =>
    obtain ⟨read, hread, h⟩ := bind_eq_ok.mp (mapError_eq_ok.mp h)
    obtain ⟨readPlans, hplans, h⟩ := bind_eq_ok.mp h
    obtain rfl := Except.ok.inj h
    have hwrites : WritesJoins (.array items) plans ↔ JoinPlan.ofList read = .ok plans := by
      rw [JoinPlan.ofList_eq_ok_iff, ← Join.forall₂_writesJoin_iff hread]
      refine ⟨fun hjoins => ?_, fun hjoins => .array hjoins.1 hjoins.2⟩
      cases hjoins with
      | array hjoins hpaired => exact ⟨hjoins, hpaired⟩
    rw [hwrites, Option.elim_some, hplans, Except.ok.injEq, eq_comm]
    rfl
  | _ => cases h

end DocQuery
