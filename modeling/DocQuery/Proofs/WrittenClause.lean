import DocQuery.Proofs.ClauseMeaning

set_option autoImplicit false

/-! # What a written filter means

A filter says which rows it selects before it is read into a clause: a key is the name of a field or
stands for a group, and what is written under it says what the field must be. `selects` follows the
written value alone. A clause that is read from a filter holds of the rows that the filter selects
(`Clause.selects_of_filterOfValue`), by induction on the written value with its fields and items. -/

namespace DocQuery

/-- The value is an array, and its items have the property. -/
def Value.isArrayWith (p : List Value → Bool) : Value → Bool
  | .array items => p items
  | _ => false

namespace Operator

/-- The tokens that name the operator. -/
def tokens : Operator → List String
  | .lessThan => ["<", "lessThan"]
  | .lessThanOrEqual => ["<=", "lessThanOrEqual"]
  | .greaterThan => [">", "greaterThan"]
  | .greaterThanOrEqual => [">=", "greaterThanOrEqual"]
  | .not => ["!", "not"]
  | .contains => ["contains"]
  | .like => ["like"]
  | .startsWith => ["startsWith"]
  | .endsWith => ["endsWith"]

/-- The operators. -/
def all : List Operator :=
  [.lessThan, .lessThanOrEqual, .greaterThan, .greaterThanOrEqual, .not, .contains, .like,
    .startsWith, .endsWith]

/-- The value stands to the operand as the operator says. -/
def test (operator : Operator) (operand v : Value) : Bool :=
  match operator, operand with
  | .lessThan, _ => v.compare? operand == some .lt
  | .lessThanOrEqual, _ => v.compare? operand == some .lt || v.compare? operand == some .eq
  | .greaterThan, _ => v.compare? operand == some .gt
  | .greaterThanOrEqual, _ => v.compare? operand == some .gt || v.compare? operand == some .eq
  | .not, .array operands => operands.all (fun operand => !operand.equals v)
  | .not, _ => !v.equals operand
  | .contains, .array operands =>
    v.isArrayWith (fun items => operands.all (fun operand => items.any (·.equals operand)))
  | .contains, _ => v.isArrayWith (fun items => items.any (·.equals operand))
  | .like, .string wildcards => hasPattern (Pattern.wildcardAtoms wildcards) v
  | .startsWith, .string beginning => hasPattern (Pattern.beginningAtoms beginning) v
  | .endsWith, .string ending => hasPattern (Pattern.endAtoms ending) v
  | _, _ => false

theorem ofToken?_eq_some_iff {token : String} {operator : Operator} :
    ofToken? token = some operator ↔ token ∈ operator.tokens := by
  have htokens : ∀ token ∈ operator.tokens, ofToken? token = some operator := by
    cases operator <;> decide
  refine ⟨fun h => ?_, htokens token⟩
  unfold ofToken? at h
  split_ifs at h <;> cases h <;> simp_all [tokens]

theorem mem_all (operator : Operator) : operator ∈ all := by
  cases operator <;> decide

/-- What is true of some operator with the token is true of the one that the token is read as. -/
theorem any_all_named {token : String} {operator : Operator}
    (h : ofToken? token = some operator) (p : Operator → Bool) :
    all.any (fun operator => token ∈ operator.tokens && p operator) = p operator := by
  have hnamed : ∀ other : Operator, token ∈ other.tokens ↔ other = operator := by
    intro other
    rw [← ofToken?_eq_some_iff, h, Option.some.injEq, eq_comm]
  rw [Bool.eq_iff_iff]
  simp only [hnamed, List.any_eq_true, Bool.and_eq_true, decide_eq_true_eq]
  exact ⟨fun ⟨_, _, heq, hp⟩ => heq ▸ hp, fun hp => ⟨operator, operator.mem_all, rfl, hp⟩⟩

end Operator

/-- The value of a field is what is written: one of the items of an array, in the relation that the
    first key of an object names, or else equal. -/
def passesWritten (written v : Value) : Bool :=
  match written with
  | .array items => items.any (·.equals v)
  | .object [] => false
  | .object ((token, operand) :: _) =>
    Operator.all.any (fun operator => token ∈ operator.tokens && operator.test operand v)
  | _ => v.equals written

mutual

/-- The row meets what is written under a key of a filter. -/
def entrySelects (row : Value) (key : String) : Value → Bool
  | .array items =>
    if key = "or" then someSelects row items
    else if key = "and" then everySelects row items
    else (row.field? key).any (passesWritten (.array items))
  | written => (row.field? key).any (passesWritten written)

/-- The row meets all that is written in an object. -/
def fieldsSelect (row : Value) : List (String × Value) → Bool
  | [] => true
  | (key, written) :: rest => entrySelects row key written && fieldsSelect row rest

/-- The row meets some object of a list. -/
def someSelects (row : Value) : List Value → Bool
  | [] => false
  | .object fields :: rest => fieldsSelect row fields || someSelects row rest
  | _ :: rest => someSelects row rest

/-- The row meets every object of a list. -/
def everySelects (row : Value) : List Value → Bool
  | [] => true
  | .object fields :: rest => fieldsSelect row fields && everySelects row rest
  | _ :: rest => everySelects row rest

end

/-- The filter selects the row; `null` selects every row. -/
def selects (filter row : Value) : Bool :=
  match filter with
  | .object fields => fieldsSelect row fields
  | _ => true

/-! ## Conditions -/

theorem Condition.eq_of_comparableOperand {operator : Operator} {field : String}
    {operand value : Value} (h : comparableOperand operator field operand = .ok value) :
    value = operand := by
  unfold comparableOperand at h
  split at h <;> cases h <;> rfl

theorem Condition.eq_of_textOperand {operator : Operator} {field : String} {operand : Value}
    {text : String} (h : textOperand operator field operand = .ok text) :
    operand = .string text := by
  unfold textOperand at h
  split at h <;> cases h
  rfl

theorem Condition.passes_of_ofOperator {operator : Operator} {field : String} {operand : Value}
    {condition : Condition} (h : ofOperator operator field operand = .ok condition) (v : Value) :
    condition.passes v = operator.test operand v := by
  cases operator with
  -- the operand is checked and then taken as it is
  | lessThan | lessThanOrEqual | greaterThan | greaterThanOrEqual =>
    obtain ⟨value, hvalue, rfl⟩ := map_eq_ok.mp h
    rw [eq_of_comparableOperand hvalue]
    rfl
  | like | startsWith | endsWith =>
    obtain ⟨text, htext, rfl⟩ := map_eq_ok.mp h
    rw [eq_of_textOperand htext]
    rfl
  | not =>
    cases operand with
    | object fields => cases h
    | array items =>
      obtain rfl := Except.ok.inj h
      exact List.not_any_eq_all_not
    | _ =>
      obtain rfl := Except.ok.inj h
      rfl
  | contains =>
    cases operand with
    | object fields => cases h
    | _ =>
      obtain rfl := Except.ok.inj h
      cases v <;> simp [passes, Operator.test, Value.isArrayWith]

theorem Condition.passes_of_ofValue {field : String} {written : Value} {condition : Condition}
    (h : Condition.ofValue field written = .ok condition) (v : Value) :
    condition.passes v = passesWritten written v := by
  unfold Condition.ofValue at h
  split at h
  · obtain rfl := Except.ok.inj h
    rfl
  · cases h
  · next token operand rest =>
    split at h
    · cases h
    · next operator hoperator =>
      rw [passesWritten, Operator.any_all_named hoperator, passes_of_ofOperator h]
  · obtain rfl := Except.ok.inj h
    unfold passesWritten
    split <;> simp_all [passes]

/-- A condition that is read for a field makes its entry meet what is written. -/
theorem Entry.holds_of_ofValue {field : String} {written : Value} {entry : Entry}
    (h : (Condition.ofValue field written).map (Entry.field field) = .ok entry) (row : Value) :
    entry.holds row = (row.field? field).any (passesWritten written) := by
  obtain ⟨condition, hcondition, rfl⟩ := map_eq_ok.mp h
  have hpasses := funext (Condition.passes_of_ofValue hcondition)
  rw [holds, hpasses]

/-! ## Clauses -/

variable {row : Value}

/-- Under the key of a field stands a condition. -/
theorem Clause.entryOfValue_of_field {key : String} (hkey : groupKey? key = none)
    (written : Value) :
    entryOfValue key written = (Condition.ofValue key written).map (.field key) := by
  cases written with
  | array items => rw [entryOfValue, hkey]
  | _ => rw [entryOfValue.eq_2 _ _ (by simp), hkey]

/-- What is no array is the condition on a field. -/
theorem Entry.holds_of_entryOfValue_condition {key : String} {written : Value} {entry : Entry}
    (harray : ∀ items, written ≠ .array items) (h : Clause.entryOfValue key written = .ok entry) :
    entry.holds row = (row.field? key).any (passesWritten written) := by
  cases hkey : Clause.groupKey? key with
  | none =>
    rw [Clause.entryOfValue_of_field hkey] at h
    exact Entry.holds_of_ofValue h row
  | some group =>
    cases written with
    | array items => exact absurd rfl (harray items)
    | _ =>
      rw [Clause.entryOfValue.eq_2 _ _ (by simp), hkey] at h
      cases h

/-- The group under a key that stands for one. -/
theorem Clause.members_of_entryOfValue {key : String} {group : GroupKey} {items : List Value}
    {entry : Entry} (hgroup : groupKey? key = some group)
    (h : entryOfValue key (.array items) = .ok entry) :
    ∃ clauses, membersOfValues group 0 items = .ok clauses ∧ entry = groupEntry group clauses := by
  rw [entryOfValue, hgroup] at h
  cases items with
  | nil => cases h
  | cons first rest =>
    obtain ⟨clauses, hclauses, h⟩ := bind_eq_ok.mp h
    exact ⟨clauses, hclauses, (Except.ok.inj h).symm⟩

mutual

/-- An entry holds of the rows that meet what it is read from. -/
theorem Entry.holds_of_entryOfValue : ∀ {key : String} {written : Value} {entry : Entry},
    Clause.entryOfValue key written = .ok entry → entry.holds row = entrySelects row key written
  | key, .array items, entry, h => by
    rw [entrySelects]
    split_ifs with hor hand
    · obtain ⟨clauses, hclauses, rfl⟩ := Clause.members_of_entryOfValue (if_pos hor) h
      exact (holds_of_membersOfValues hclauses).1
    · have hgroup : Clause.groupKey? key = some .and := by
        rw [Clause.groupKey?, if_neg hor, if_pos hand]
      obtain ⟨clauses, hclauses, rfl⟩ := Clause.members_of_entryOfValue hgroup h
      exact (holds_of_membersOfValues hclauses).2
    · have hgroup : Clause.groupKey? key = none := by
        rw [Clause.groupKey?, if_neg hor, if_neg hand]
      rw [Clause.entryOfValue_of_field hgroup] at h
      exact Entry.holds_of_ofValue h row
  | _, .null, _, h => Entry.holds_of_entryOfValue_condition (by simp) h
  | _, .bool _, _, h => Entry.holds_of_entryOfValue_condition (by simp) h
  | _, .number _, _, h => Entry.holds_of_entryOfValue_condition (by simp) h
  | _, .string _, _, h => Entry.holds_of_entryOfValue_condition (by simp) h
  | _, .object _, _, h => Entry.holds_of_entryOfValue_condition (by simp) h

/-- A clause holds of the rows that meet the fields it is read from. -/
theorem everyEntryHolds_of_ofFields {clause : Clause} : ∀ {fields : List (String × Value)},
    Clause.ofFields fields = .ok clause → everyEntryHolds row clause = fieldsSelect row fields
  | [], h => by
    obtain rfl := Except.ok.inj h
    rfl
  | (key, written) :: rest, h => by
    obtain ⟨entry, hentry, h⟩ := bind_eq_ok.mp h
    obtain ⟨entries, hentries, h⟩ := bind_eq_ok.mp h
    obtain rfl := Except.ok.inj h
    rw [everyEntryHolds, fieldsSelect, Entry.holds_of_entryOfValue hentry,
      everyEntryHolds_of_ofFields hentries]

/-- Groups hold of the rows that meet some or every object they are read from. -/
theorem holds_of_membersOfValues {group : GroupKey} : ∀ {position : Nat} {items : List Value}
    {clauses : List Clause}, Clause.membersOfValues group position items = .ok clauses →
      someClauseHolds row clauses = someSelects row items ∧
        everyClauseHolds row clauses = everySelects row items
  | _, [], _, h => by
    obtain rfl := Except.ok.inj h
    exact ⟨rfl, rfl⟩
  | _, .object fields :: rest, _, h => by
    obtain ⟨clause, hclause, h⟩ := bind_eq_ok.mp h
    obtain ⟨clauses, hclauses, h⟩ := bind_eq_ok.mp h
    obtain rfl := Except.ok.inj h
    have hfirst := everyEntryHolds_of_ofFields hclause
    obtain ⟨hsome, hevery⟩ := holds_of_membersOfValues hclauses
    exact ⟨by rw [someClauseHolds, someSelects, hfirst, hsome],
      by rw [everyClauseHolds, everySelects, hfirst, hevery]⟩
  | _, .null :: _, _, h | _, .bool _ :: _, _, h | _, .number _ :: _, _, h
  | _, .string _ :: _, _, h | _, .array _ :: _, _, h => by cases h

end

/-! ## Main statement -/

/-- A filter that can be read selects the rows of which its clause holds, and every row if it has
    none. -/
theorem Clause.selects_of_filterOfValue {written : Value} {filter : Option Clause}
    (h : filterOfValue written = .ok filter) (row : Value) :
    filter.all (fun clause => clause.holds row) = selects written row := by
  cases written with
  | null =>
    obtain rfl := Except.ok.inj h
    rfl
  | object fields =>
    obtain ⟨clause, hclause, rfl⟩ := map_eq_ok.mp h
    exact everyEntryHolds_of_ofFields hclause
  | _ => cases h

end DocQuery
