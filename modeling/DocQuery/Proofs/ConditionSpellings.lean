import DocQuery.Proofs.NumberRounding
import DocQuery.Proofs.ClauseMeaning

set_option autoImplicit false

/-! # Conditions that can be spelled in two ways

A list of values stands for a group of conditions with one value each, and "at least" for "more" or
"equal". The spellings are compiled to different tests: a list is searched with its members on the
left, while an equality has the value of the field there, and an order that includes equality asks
the comparison for it and not the equality. They select the same documents
(`spellings_select_alike`) since equality does not depend on the side, and since a number, a text or
a truth value is equal to what it compares equal with. -/

namespace DocQuery

variable {name : String} {test : Value → Bool} {row : Value} {conditions : List Condition}

/-! ## Groups of conditions on one field -/

/-- The clauses with one condition each. -/
def clausesOn (name : String) (conditions : List Condition) : List Clause :=
  conditions.map (fun condition => [.field name condition])

theorem conditionsOfClauses_clausesOn (name : String) (conditions : List Condition) :
    conditionsOfClauses (clausesOn name conditions) = conditions := by
  induction conditions with
  | nil => rfl
  | cons condition rest ih =>
    rw [clausesOn, List.map_cons, conditionsOfClauses, ← clausesOn, ih]
    simp [conditionsOfEntries, Entry.conditions]

theorem holds_field (name : String) (condition : Condition) (row : Value) :
    Clause.holds [.field name condition] row = (row.field? name).any condition.passes := by
  simp [Clause.holds, everyEntryHolds, Entry.holds]

theorem someClauseHolds_clausesOn (name : String) (conditions : List Condition) (row : Value) :
    someClauseHolds row (clausesOn name conditions) =
      (row.field? name).any (fun v => conditions.any (·.passes v)) := by
  simp only [someClauseHolds_eq_any, clausesOn, List.any_map, Function.comp_def, holds_field]
  cases row.field? name with
  | none => simp
  | some v => simp

/-- A group of no conditions would hold of a document without the field as well. -/
theorem everyClauseHolds_clausesOn (name : String) (hne : conditions ≠ []) (row : Value) :
    everyClauseHolds row (clausesOn name conditions) =
      (row.field? name).any (fun v => conditions.all (·.passes v)) := by
  simp only [everyClauseHolds_eq_all, clausesOn, List.all_map, Function.comp_def, holds_field]
  cases row.field? name with
  | none => simpa using List.exists_mem_of_ne_nil conditions hne
  | some v => simp

/-! ## Selecting by a test -/

/-- The clause tells of every document whether it has the field, with a value that passes the
    test. -/
def Clause.SelectsBy [PatternLibrary] (name : String) (test : Value → Bool) (clause : Clause) :
    Prop :=
  ∀ (tables : Tables) (row : Value), row.isObject = true → row.hasDistinctNames = true →
    (clause.compile .row).accepts tables row = .ok ((row.field? name).any test)

/-- The condition searches for no text. -/
def Condition.IsPlain (condition : Condition) : Prop :=
  condition.pattern? = none

theorem Condition.IsPlain.refusal?_eq {condition : Condition} (h : condition.IsPlain) :
    condition.refusal? = none := by
  rw [refusal?, h, Option.bind_none]

theorem any_field_congr {passes : Value → Bool} (hrow : row.hasDistinctNames = true)
    (h : ∀ v : Value, v.hasDistinctNames = true → passes v = test v) (name : String) :
    (row.field? name).any passes = (row.field? name).any test := by
  cases hfield : row.field? name with
  | none => rfl
  | some v => exact h v (Value.hasDistinctNames_of_field hrow hfield)

section

variable [PatternLibrary]

theorem Clause.selectsBy_of_holds {clause : Clause}
    (hplain : ∀ condition ∈ conditionsOfEntries clause, condition.IsPlain)
    (hholds : ∀ row : Value, row.hasDistinctNames = true →
      clause.holds row = (row.field? name).any test) : clause.SelectsBy name test := by
  intro tables row hobject hnames
  have hfits : clause.PatternsFit := by
    intro condition hmem
    rw [(hplain condition hmem).refusal?_eq]
    rfl
  rw [clause.accepts_compile (Or.inl hobject) hfits, hholds row hnames]

theorem selectsBy_field (condition : Condition) (hplain : condition.IsPlain)
    (hpasses : ∀ v : Value, v.hasDistinctNames = true → condition.passes v = test v)
    (name : String) : Clause.SelectsBy name test [.field name condition] := by
  refine Clause.selectsBy_of_holds ?_ (fun row hrow => ?_)
  · simpa [conditionsOfEntries, Entry.conditions] using hplain
  · rw [holds_field]
    exact any_field_congr hrow hpasses name

theorem selectsBy_anyOf (hplain : ∀ condition ∈ conditions, condition.IsPlain)
    (hpasses : ∀ v : Value, v.hasDistinctNames = true → conditions.any (·.passes v) = test v)
    (name : String) : Clause.SelectsBy name test [.anyOf (clausesOn name conditions)] := by
  refine Clause.selectsBy_of_holds ?_ (fun row hrow => ?_)
  · simpa [conditionsOfEntries, Entry.conditions, conditionsOfClauses_clausesOn] using hplain
  · rw [Clause.holds, everyEntryHolds, everyEntryHolds, Bool.and_true, Entry.holds,
      someClauseHolds_clausesOn]
    exact any_field_congr hrow hpasses name

theorem selectsBy_allOf (hplain : ∀ condition ∈ conditions, condition.IsPlain)
    (hne : conditions ≠ [])
    (hpasses : ∀ v : Value, v.hasDistinctNames = true → conditions.all (·.passes v) = test v)
    (name : String) : Clause.SelectsBy name test [.allOf (clausesOn name conditions)] := by
  refine Clause.selectsBy_of_holds ?_ (fun row hrow => ?_)
  · simpa [conditionsOfEntries, Entry.conditions, conditionsOfClauses_clausesOn] using hplain
  · rw [Clause.holds, everyEntryHolds, everyEntryHolds, Bool.and_true, Entry.holds,
      everyClauseHolds_clausesOn name hne]
    exact any_field_congr hrow hpasses name

end

/-! ## Equality and order of values that are compared with -/

/-- An operand of an order is equal to what compares equal with it. -/
theorem compare?_beq_eq_equals {operator : Operator} {operand w : Value}
    (hoperand : Condition.comparableOperand operator name operand = .ok w) (v : Value) :
    (v.compare? w == some .eq) = v.equals w := by
  cases operand with
  | bool b =>
    obtain rfl := Except.ok.inj hoperand
    cases v with
    | bool b' => cases b <;> cases b' <;> simp [Value.compare?, Value.equals]
    | _ => simp [Value.compare?, Value.equals]
  | number n =>
    obtain rfl := Except.ok.inj hoperand
    cases v with
    | number n' => simp [Value.compare?, Value.equals, Number.equals_eq_compare]
    | _ => simp [Value.compare?, Value.equals]
  | string s =>
    obtain rfl := Except.ok.inj hoperand
    cases v with
    | string s' => simp [Value.compare?, Value.equals]
    | _ => simp [Value.compare?, Value.equals]
  | _ => cases hoperand

/-- A value is found in a list from either side. -/
theorem any_equals_comm {vs : List Value} (hvs : ∀ v ∈ vs, v.hasDistinctNames = true) {w : Value}
    (hw : w.hasDistinctNames = true) : vs.any (w.equals ·) = vs.any (·.equals w) := by
  rw [Bool.eq_iff_iff, List.any_eq_true, List.any_eq_true]
  refine exists_congr (fun v => and_congr_right (fun hv => ?_))
  rw [Value.equals_comm (hvs v hv) hw]

/-! ## Two spellings -/

section

variable [PatternLibrary]

/-- The clauses of two spellings tell the same of every document: whether it has the field, with a
    value that passes the test. -/
def SelectAlike (name : String) (test : Value → Bool) (left right : Clause) : Prop :=
  left.SelectsBy name test ∧ right.SelectsBy name test

theorem selectAlike_oneOf {vs : List Value} (hvs : ∀ v ∈ vs, v.hasDistinctNames = true)
    (name : String) : SelectAlike name (fun v => vs.any (·.equals v)) [.field name (.oneOf vs)]
      [.anyOf (vs.map (fun v => [.field name (.equal v)]))] := by
  have hgroup : vs.map (fun v => [.field name (.equal v)]) = clausesOn name (vs.map .equal) := by
    simp [clausesOn]
  have hplain : ∀ condition ∈ vs.map Condition.equal, condition.IsPlain := by
    simp [Condition.IsPlain, Condition.pattern?]
  rw [hgroup]
  refine ⟨selectsBy_field (.oneOf vs) rfl (fun _ _ => rfl) name,
    selectsBy_anyOf hplain (fun w hw => ?_) name⟩
  rw [← any_equals_comm hvs hw, List.any_map]
  rfl

theorem selectAlike_noneOf {vs : List Value} (hne : vs ≠ [])
    (hvs : ∀ v ∈ vs, v.hasDistinctNames = true) (name : String) :
    SelectAlike name (fun v => !vs.any (·.equals v)) [.field name (.noneOf vs)]
      [.allOf (vs.map (fun v => [.field name (.notEqual v)]))] := by
  have hgroup : vs.map (fun v => [.field name (.notEqual v)]) =
      clausesOn name (vs.map .notEqual) := by
    simp [clausesOn]
  have hplain : ∀ condition ∈ vs.map Condition.notEqual, condition.IsPlain := by
    simp [Condition.IsPlain, Condition.pattern?]
  rw [hgroup]
  refine ⟨selectsBy_field (.noneOf vs) rfl (fun _ _ => rfl) name,
    selectsBy_allOf hplain (by simpa using hne) (fun w hw => ?_) name⟩
  rw [← any_equals_comm hvs hw, List.all_map, List.not_any_eq_all_not]
  rfl

/-- A condition that a value passes if it passes one of two. -/
theorem selectAlike_or (first second either : Condition) (hfirst : first.IsPlain)
    (hsecond : second.IsPlain) (heither : either.IsPlain)
    (hpasses : ∀ v, (first.passes v || second.passes v) = either.passes v) (name : String) :
    SelectAlike name either.passes [.field name either]
      [.anyOf [[.field name first], [.field name second]]] := by
  have hplain : ∀ condition ∈ [first, second], condition.IsPlain := by simp [hfirst, hsecond]
  refine ⟨selectsBy_field either heither (fun _ _ => rfl) name,
    selectsBy_anyOf hplain (fun v _ => ?_) name⟩
  simpa using hpasses v

end

/-! ## Main statement -/

/-- A condition with a list of values selects the documents that the group of conditions with one
    value each selects, if the list is not empty; and a condition that a value be at least or at
    most an operand selects those that the group of its two parts selects. A document without the
    field is selected by none of them. -/
theorem spellings_select_alike [PatternLibrary] (name : String) :
    (∀ vs : List Value, vs ≠ [] → (∀ v ∈ vs, v.hasDistinctNames = true) →
      SelectAlike name (fun v => vs.any (·.equals v)) [.field name (.oneOf vs)]
        [.anyOf (vs.map (fun v => [.field name (.equal v)]))] ∧
      SelectAlike name (fun v => !vs.any (·.equals v)) [.field name (.noneOf vs)]
        [.allOf (vs.map (fun v => [.field name (.notEqual v)]))]) ∧
    ∀ (operator : Operator) (operand w : Value),
      Condition.comparableOperand operator name operand = .ok w →
      SelectAlike name (fun v => v.compare? w == some .gt || v.compare? w == some .eq)
        [.field name (.greaterOrEqual w)]
        [.anyOf [[.field name (.greater w)], [.field name (.equal w)]]] ∧
      SelectAlike name (fun v => v.compare? w == some .lt || v.compare? w == some .eq)
        [.field name (.lessOrEqual w)]
        [.anyOf [[.field name (.less w)], [.field name (.equal w)]]] := by
  refine ⟨fun vs hne hvs => ⟨selectAlike_oneOf hvs name, selectAlike_noneOf hne hvs name⟩, ?_⟩
  intro operator operand w hoperand
  have hequal := compare?_beq_eq_equals hoperand
  constructor
  · refine selectAlike_or (.greater w) (.equal w) (.greaterOrEqual w) rfl rfl rfl (fun v => ?_) name
    simp only [Condition.passes, hequal]
  · refine selectAlike_or (.less w) (.equal w) (.lessOrEqual w) rfl rfl rfl (fun v => ?_) name
    simp only [Condition.passes, hequal]

/-- An object is in a list with its fields the other way round, and a whole number is at least the
    same number as a double. -/
theorem spellings_select_alike_other_forms :
    let one : Value := .number (.integer 1 (by decide))
    let rounded : Value := .number (.double ⟨false, 2 ^ 52, -52, by decide, by decide, by decide⟩)
    let row : Value := .object [("n", one), ("o", .object [("a", .null), ("b", one)])]
    let members : List Value := [.null, .object [("b", rounded), ("a", .null)]]
    let oneOf : Clause := [.field "o" (.oneOf members)]
    let anyEqual : Clause := [.anyOf (members.map (fun v => [.field "o" (.equal v)]))]
    let atLeast : Clause := [.field "n" (.greaterOrEqual rounded)]
    let moreOrEqual : Clause :=
      [.anyOf [[.field "n" (.greater rounded)], [.field "n" (.equal rounded)]]]
    members ≠ [] ∧ (∀ v ∈ members, v.hasDistinctNames = true) ∧
      Condition.comparableOperand .greaterThan "n" rounded = .ok rounded ∧
      ((oneOf.compile .row).accepts [] row = .ok true ∧
        (anyEqual.compile .row).accepts [] row = .ok true) ∧
      ((atLeast.compile .row).accepts [] row = .ok true ∧
        (moreOrEqual.compile .row).accepts [] row = .ok true) := by
  intro one rounded row members oneOf anyEqual atLeast moreOrEqual
  have hne : members ≠ [] := by simp [members]
  have hmembers : ∀ v ∈ members, v.hasDistinctNames = true := by decide
  have hoperand : Condition.comparableOperand .greaterThan "n" rounded = .ok rounded := rfl
  have hnames : row.hasDistinctNames = true := by decide
  have hfound : (row.field? "o").any (fun v => members.any (·.equals v)) = true := by
    decide +kernel
  have hequal : (row.field? "n").any
      (fun v => v.compare? rounded == some .gt || v.compare? rounded == some .eq) = true := by
    decide +kernel
  obtain ⟨⟨honeOf, hanyEqual⟩, -⟩ := (spellings_select_alike "o").1 members hne hmembers
  obtain ⟨⟨hatLeast, hmoreOrEqual⟩, -⟩ := (spellings_select_alike "n").2 _ _ _ hoperand
  refine ⟨hne, hmembers, hoperand, ?_, ?_⟩
  · rw [← hfound]
    exact ⟨honeOf [] row rfl hnames, hanyEqual [] row rfl hnames⟩
  · rw [← hequal]
    exact ⟨hatLeast [] row rfl hnames, hmoreOrEqual [] row rfl hnames⟩

end DocQuery
