import DocQuery.Proofs.WrittenClause
import DocQuery.Proofs.WrittenParts

set_option autoImplicit false

/-! # Which filters can be read

The grammar of filters is stated on what is written alone (`IsWrittenClause`). A filter can be read
if and only if it follows the grammar; what is read then mirrors the writing key by key, at every
depth, and a filter that is refused has a part without a meaning or a condition whose first key is
no operator. The three are proved as one verdict on each clause (`Clause.isRead`), by induction on
the nesting of groups (`Clause.nesting_induction`). -/

namespace DocQuery

/-! ## The grammar -/

namespace Operator

/-- The kinds of operand that the operator takes. -/
def operandKinds : Operator → List Kind
  | .lessThan | .lessThanOrEqual | .greaterThan | .greaterThanOrEqual =>
    [.boolean, .number, .string]
  | .not | .contains => [.null, .boolean, .number, .string, .array]
  | .like | .startsWith | .endsWith => [.string]

end Operator

/-- What may be written as the condition on a field: a value that is no object, or an object whose
    first key is an operator with an operand that it takes. -/
inductive IsWrittenCondition : Value → Prop where
  | value {written : Value} (hobject : written.isObject = false) : IsWrittenCondition written
  | operator {operator : Operator} {token : String} {operand : Value} {rest : Assoc Value}
    (htoken : token ∈ operator.tokens) (hoperand : operand.kind ∈ operator.operandKinds) :
    IsWrittenCondition (.object ((token, operand) :: rest))

mutual

/-- What may be written as a clause: an object of entries. -/
inductive IsWrittenClause : Value → Prop where
  | object {fields : Assoc Value} (hentries : ∀ field ∈ fields, IsWrittenEntry field.1 field.2) :
    IsWrittenClause (.object fields)

/-- What may be written under a key of a clause: a list of clauses under the key of a group, at
    least one, and a condition under any other key. -/
inductive IsWrittenEntry : String → Value → Prop where
  | group {key : String} {group : GroupKey} {items : List Value} (hkey : key = group.text)
    (hne : items ≠ []) (hitems : ∀ item ∈ items, IsWrittenClause item) :
    IsWrittenEntry key (.array items)
  | condition {key : String} {written : Value} (hkey : ∀ group : GroupKey, key ≠ group.text)
    (hcondition : IsWrittenCondition written) : IsWrittenEntry key written

end

/-- The filter has the condition on the field, in whatever groups it stands. -/
inductive HasCondition (field : String) (condition : Value) : Value → Prop where
  | here {fields : Assoc Value} (hmem : (field, condition) ∈ fields)
    (hkey : ∀ group : GroupKey, field ≠ group.text) : HasCondition field condition (.object fields)
  | inside {fields : Assoc Value} {group : GroupKey} {items : List Value} {item : Value}
    (hmem : (group.text, .array items) ∈ fields) (hitem : item ∈ items)
    (h : HasCondition field condition item) : HasCondition field condition (.object fields)

/-- The filter may be refused for this error: some part of it has no meaning, or the first key of a
    condition names no operator. -/
inductive IsFilterFault (filter : Value) : QueryError → Prop where
  | malformed (fault : ClauseFault) : IsFilterFault filter (.malformedClause fault)
  | operator {token field : String} {operand : Value} {rest : Assoc Value}
    (hcondition : HasCondition field (.object ((token, operand) :: rest)) filter)
    (hunknown : ∀ operator : Operator, token ∉ operator.tokens) :
    IsFilterFault filter (.unsupportedOperator token field)

theorem IsFilterFault.inside {fields : Assoc Value} {group : GroupKey} {items : List Value}
    {item : Value} {e : QueryError} (h : IsFilterFault item e)
    (hmem : (group.text, .array items) ∈ fields) (hitem : item ∈ items) :
    IsFilterFault (.object fields) e := by
  cases h with
  | malformed fault => exact .malformed fault
  | operator hcondition hunknown => exact .operator (.inside hmem hitem hcondition) hunknown

mutual

/-- The clause has one entry for each key of the writing, in the same order. -/
inductive Clause.Mirrors : Value → Clause → Prop where
  | object {fields : Assoc Value} {clause : Clause}
    (hentries : List.Forall₂ Entry.Mirrors fields clause) :
    Clause.Mirrors (.object fields) clause

/-- The entry is a group, which is not empty, of the clauses of a list, or it is a condition that a
    value passes if it passes what is written. -/
inductive Entry.Mirrors : String × Value → Entry → Prop where
  | group {group : GroupKey} {items : List Value} {clauses : List Clause} (hne : clauses ≠ [])
    (hclauses : List.Forall₂ Clause.Mirrors items clauses) :
    Entry.Mirrors (group.text, .array items) (Clause.groupEntry group clauses)
  | condition {field : String} {written : Value} {condition : Condition}
    (hkey : ∀ group : GroupKey, field ≠ group.text)
    (hpasses : ∀ v, condition.passes v = passesWritten written v) :
    Entry.Mirrors (field, written) (.field field condition)

end

/-! ## Conditions -/

/-- An operand is accepted if it is of a kind that the operator takes. -/
theorem Condition.yields_ofOperator (operator : Operator) (field : String) (operand : Value) :
    Yields (fun _ => operand.kind ∈ operator.operandKinds)
      (fun e => operand.kind ∉ operator.operandKinds ∧ ∃ fault, e = .malformedClause fault)
      (ofOperator operator field operand) := by
  cases operator <;> cases operand <;>
    simp [ofOperator, comparableOperand, textOperand, Operator.operandKinds, Value.kind, Yields]

theorem Condition.yields_ofValue {fields : Assoc Value} {field : String} {written : Value}
    (hmem : (field, written) ∈ fields) (hkey : ∀ group : GroupKey, field ≠ group.text) :
    Yields (fun _ => IsWrittenCondition written)
      (fun e => ¬ IsWrittenCondition written ∧ IsFilterFault (.object fields) e)
      (Condition.ofValue field written) := by
  cases written with
  | object entries =>
    cases entries with
    | nil =>
      refine ⟨?_, .malformed _⟩
      rintro (⟨⟨⟩⟩ | _)
    | cons entry rest =>
      obtain ⟨token, operand⟩ := entry
      rw [ofValue]
      cases htoken : Operator.ofToken? token with
      | none =>
        have hunknown : ∀ operator : Operator, token ∉ operator.tokens := by
          intro operator hmem
          rw [Operator.ofToken?_eq_some_iff.mpr hmem] at htoken
          cases htoken
        refine ⟨?_, .operator (.here hmem hkey) hunknown⟩
        rintro (⟨⟨⟩⟩ | ⟨hmem, -⟩)
        exact hunknown _ hmem
      | some operator =>
        refine (yields_ofOperator operator field operand).mono ?_ ?_
        · exact fun _ hoperand => .operator (Operator.ofToken?_eq_some_iff.mp htoken) hoperand
        · rintro _ ⟨hoperand, fault, rfl⟩
          refine ⟨?_, .malformed fault⟩
          rintro (⟨⟨⟩⟩ | ⟨hmem, hkind⟩)
          rw [Operator.ofToken?_eq_some_iff.mpr hmem] at htoken
          obtain rfl := Option.some.inj htoken
          exact hoperand hkind
  | _ => exact .value rfl

/-! ## Clauses -/

namespace Clause

theorem groupKey?_eq_some_iff {key : String} {group : GroupKey} :
    groupKey? key = some group ↔ key = group.text := by
  unfold groupKey?
  split_ifs <;> cases group <;> simp_all [GroupKey.text]

theorem groupKey?_eq_none_iff {key : String} :
    groupKey? key = none ↔ ∀ group : GroupKey, key ≠ group.text := by
  rw [Option.eq_none_iff_forall_ne_some]
  exact forall_congr' (fun group => not_congr groupKey?_eq_some_iff)

/-- What holds of a clause if it holds of the clauses in its groups holds of every clause. -/
theorem nesting_induction {motive : Assoc Value → Prop}
    (step : ∀ fields, (∀ key items inner, (key, Value.array items) ∈ fields →
      Value.object inner ∈ items → motive inner) → motive fields)
    (fields : Assoc Value) : motive fields :=
  step fields (fun _ items inner hmem hitem => by
    have hlt : sizeOf inner < sizeOf fields := by
      have hfield := List.sizeOf_lt_of_mem hmem
      have hinner := List.sizeOf_lt_of_mem hitem
      simp only [Prod.mk.sizeOf_spec, Value.array.sizeOf_spec, Value.object.sizeOf_spec]
        at hfield hinner
      omega
    exact nesting_induction step inner)
termination_by sizeOf fields

/-- The fields are read as a clause that mirrors them, or refused, as the grammar says. -/
def IsRead (fields : Assoc Value) : Prop :=
  Yields (fun clause => IsWrittenClause (.object fields) ∧ Mirrors (.object fields) clause)
    (fun e => ¬ IsWrittenClause (.object fields) ∧ IsFilterFault (.object fields) e)
    (ofFields fields)

/-- A list of clauses is read if every object of it is, and nothing else is in it. -/
theorem yields_membersOfValues {items : List Value} (group : GroupKey) (position : Nat)
    (h : ∀ inner, Value.object inner ∈ items → IsRead inner) :
    Yields (fun clauses => (∀ item ∈ items, IsWrittenClause item) ∧
        List.Forall₂ Mirrors items clauses)
      (fun e => ∃ item ∈ items, ¬ IsWrittenClause item ∧ IsFilterFault item e)
      (membersOfValues group position items) := by
  induction items generalizing position with
  | nil => exact ⟨by simp, .nil⟩
  | cons item rest ih =>
    cases item with
    | object fields =>
      have hrest : ∀ inner, Value.object inner ∈ rest → IsRead inner :=
        fun inner hmem => h inner (List.mem_cons_of_mem _ hmem)
      refine Yields.bind ((h fields List.mem_cons_self).mono_fault ?_) (fun clause hclause => ?_)
      · exact fun e he => ⟨_, List.mem_cons_self, he⟩
      refine Yields.bind ((ih (position + 1) hrest).mono_fault ?_) (fun clauses hclauses => ?_)
      · exact fun e ⟨item, hmem, he⟩ => ⟨item, List.mem_cons_of_mem _ hmem, he⟩
      exact ⟨List.forall_mem_cons.mpr ⟨hclause.1, hclauses.1⟩, .cons hclause.2 hclauses.2⟩
    | _ => exact ⟨_, List.mem_cons_self, by rintro ⟨⟩, .malformed _⟩

theorem isWrittenEntry_group {group : GroupKey} {written : Value} :
    IsWrittenEntry group.text written ↔
      ∃ items, written = .array items ∧ items ≠ [] ∧ ∀ item ∈ items, IsWrittenClause item := by
  constructor
  · rintro (⟨-, hne, hitems⟩ | ⟨hfield, -⟩)
    · exact ⟨_, rfl, hne, hitems⟩
    · exact absurd rfl (hfield group)
  · rintro ⟨items, rfl, hne, hitems⟩
    exact .group rfl hne hitems

theorem isWrittenEntry_field {field : String} (hkey : ∀ group : GroupKey, field ≠ group.text)
    {written : Value} : IsWrittenEntry field written ↔ IsWrittenCondition written := by
  refine ⟨?_, .condition hkey⟩
  rintro (⟨hgroup, -, -⟩ | ⟨-, hcondition⟩)
  · exact absurd hgroup (hkey _)
  · exact hcondition

/-- The entry of the clause is read as one that mirrors it, or refused, as the grammar says. -/
def IsReadEntry (fields : Assoc Value) (field : String × Value) : Prop :=
  Yields (fun entry => IsWrittenEntry field.1 field.2 ∧ Entry.Mirrors field entry)
    (fun e => ¬ IsWrittenEntry field.1 field.2 ∧ IsFilterFault (.object fields) e)
    (entryOfValue field.1 field.2)

theorem isReadEntry_field {fields : Assoc Value} {field : String} {written : Value}
    (hmem : (field, written) ∈ fields) (hkey : ∀ group : GroupKey, field ≠ group.text) :
    IsReadEntry fields (field, written) := by
  have hread := Condition.yields_ofValue hmem hkey
  rw [IsReadEntry, isWrittenEntry_field hkey,
    entryOfValue_of_field (groupKey?_eq_none_iff.mpr hkey)]
  cases hcondition : Condition.ofValue field written with
  | ok condition =>
    exact ⟨hread.of_eq_ok hcondition, .condition hkey (Condition.passes_of_ofValue hcondition)⟩
  | error e => exact hread.of_eq_error hcondition

theorem isReadEntry_group {fields : Assoc Value} {group : GroupKey} {written : Value}
    (hmem : (group.text, written) ∈ fields)
    (h : ∀ items inner, written = .array items → Value.object inner ∈ items → IsRead inner) :
    IsReadEntry fields (group.text, written) := by
  have hkey : groupKey? group.text = some group := groupKey?_eq_some_iff.mpr rfl
  rw [IsReadEntry, isWrittenEntry_group]
  cases written with
  | array items =>
    rw [entryOfValue, hkey]
    cases items with
    | nil =>
      refine ⟨?_, .malformed _⟩
      rintro ⟨items, hitems, hne, -⟩
      exact hne (Value.array.inj hitems).symm
    | cons first rest =>
      have hmembers := yields_membersOfValues group 0 (fun inner => h _ inner rfl)
      refine Yields.bind (hmembers.mono_fault ?_) (fun clauses hclauses => ?_)
      · rintro e ⟨item, hitem, hbad, he⟩
        refine ⟨?_, he.inside hmem hitem⟩
        rintro ⟨items, hitems, -, hall⟩
        obtain rfl := Value.array.inj hitems
        exact hbad (hall item hitem)
      · have hne : clauses ≠ [] := by
          rintro rfl
          cases hclauses.2
        exact ⟨⟨_, rfl, List.cons_ne_nil _ _, hclauses.1⟩, .group hne hclauses.2⟩
  | _ =>
    rw [entryOfValue.eq_2 _ _ (by simp), hkey]
    refine ⟨?_, .malformed _⟩
    rintro ⟨items, ⟨⟩, -⟩

/-- An entry of a clause is read if what stands in its groups is. -/
theorem isReadEntry {fields : Assoc Value}
    (h : ∀ key items inner, (key, Value.array items) ∈ fields → Value.object inner ∈ items →
      IsRead inner) {field : String × Value} (hmem : field ∈ fields) :
    IsReadEntry fields field := by
  obtain ⟨key, written⟩ := field
  cases hkey : groupKey? key with
  | none => exact isReadEntry_field hmem (groupKey?_eq_none_iff.mp hkey)
  | some group =>
    obtain rfl := groupKey?_eq_some_iff.mp hkey
    refine isReadEntry_group hmem ?_
    rintro items inner rfl hinner
    exact h _ items inner hmem hinner

/-- A clause is read if every entry is. -/
theorem yields_ofFields {fields entries : Assoc Value}
    (h : ∀ field ∈ entries, IsReadEntry fields field) :
    Yields (fun clause => (∀ field ∈ entries, IsWrittenEntry field.1 field.2) ∧
        List.Forall₂ Entry.Mirrors entries clause)
      (fun e => (∃ field ∈ entries, ¬ IsWrittenEntry field.1 field.2) ∧
        IsFilterFault (.object fields) e)
      (ofFields entries) := by
  induction entries with
  | nil => exact ⟨by simp, .nil⟩
  | cons field rest ih =>
    obtain ⟨hfield, hrest⟩ := List.forall_mem_cons.mp h
    rw [ofFields]
    refine Yields.bind (hfield.mono_fault ?_) (fun entry hentry => ?_)
    · exact fun e he => ⟨⟨field, List.mem_cons_self, he.1⟩, he.2⟩
    refine Yields.bind ((ih hrest).mono_fault ?_) (fun clause hclause => ?_)
    · rintro e ⟨⟨other, hmem, hbad⟩, he⟩
      exact ⟨⟨other, List.mem_cons_of_mem _ hmem, hbad⟩, he⟩
    exact ⟨List.forall_mem_cons.mpr ⟨hentry.1, hclause.1⟩, .cons hentry.2 hclause.2⟩

/-- Every clause is read or refused as the grammar says. -/
theorem isRead (fields : Assoc Value) : IsRead fields := by
  induction fields using nesting_induction with
  | step fields ih =>
    refine (yields_ofFields (fun field hmem => isReadEntry ih hmem)).mono ?_ ?_
    · exact fun clause ⟨hentries, hmirrors⟩ => ⟨.object hentries, .object hmirrors⟩
    · rintro e ⟨⟨field, hmem, hbad⟩, he⟩
      refine ⟨?_, he⟩
      rintro ⟨hentries⟩
      exact hbad (hentries field hmem)

/-- `null` is read as no filter, an object as a clause, and nothing else is read. -/
theorem yields_filterOfValue (written : Value) :
    Yields (fun filter => (written = .null ∧ filter = none) ∨
        ∃ clause, filter = some clause ∧ IsWrittenClause written ∧ Mirrors written clause)
      (fun e => ¬ (written = .null ∨ IsWrittenClause written) ∧ IsFilterFault written e)
      (filterOfValue written) := by
  cases written with
  | null => exact Or.inl ⟨rfl, rfl⟩
  | object fields =>
    rw [filterOfValue]
    cases hclause : ofFields fields with
    | ok clause => exact Or.inr ⟨clause, rfl, (isRead fields).of_eq_ok hclause⟩
    | error e =>
      obtain ⟨hbad, hfault⟩ := (isRead fields).of_eq_error hclause
      exact ⟨by simpa using hbad, hfault⟩
  | _ => exact ⟨by rintro (⟨⟨⟩⟩ | ⟨⟨⟩⟩), .malformed _⟩

end Clause

/-! ## Main statement -/

/-- A filter is read if and only if it is `null` or follows the grammar. The clause mirrors the
    writing at every depth; a filter that is refused has a part without a meaning or an unknown
    operator. A descriptor is read if and only if its five parts are, and nothing else that is
    written, nor the order of the parts, makes a difference to it. -/
theorem filters_follow_grammar :
    (∀ written, (∃ filter, Clause.filterOfValue written = .ok filter) ↔
      written = .null ∨ IsWrittenClause written) ∧
    (∀ written filter, Clause.filterOfValue written = .ok filter →
      (written = .null ∧ filter = none) ∨
        ∃ clause, filter = some clause ∧ Clause.Mirrors written clause) ∧
    (∀ written e, Clause.filterOfValue written = .error e → IsFilterFault written e) ∧
    (∀ fields, (∃ d, Descriptor.ofValue (.object fields) = .ok d) ↔
      ∀ field ∈ fields, Descriptor.Accepts field.1 field.2) ∧
    (∀ fields fields' : Assoc Value,
      fields.filter (fun field => field.1 ∈ Descriptor.keys) =
        fields'.filter (fun field => field.1 ∈ Descriptor.keys) →
      Descriptor.ofValue (.object fields) = Descriptor.ofValue (.object fields')) ∧
    ∀ fields fields' : Assoc Value, fields.keys.Nodup → fields'.keys.Nodup →
      (∀ key ∈ Descriptor.keys, (Value.object fields).part key = (Value.object fields').part key) →
      ∀ d, Descriptor.ofValue (.object fields) = .ok d ↔
        Descriptor.ofValue (.object fields') = .ok d := by
  refine ⟨fun written => ?_, fun written filter h => ?_, fun written e h => ?_,
    fun fields => Descriptor.exists_ofValue_iff, fun fields fields' h => ?_,
    fun fields fields' hnodup hnodup' hsame d => ?_⟩
  · refine (Clause.yields_filterOfValue written).exists_ok_iff ?_ (fun e he => he.1)
    rintro filter (⟨hnull, -⟩ | ⟨clause, -, hwritten, -⟩)
    · exact Or.inl hnull
    · exact Or.inr hwritten
  · refine ((Clause.yields_filterOfValue written).of_eq_ok h).imp_right ?_
    exact fun ⟨clause, hclause, _, hmirrors⟩ => ⟨clause, hclause, hmirrors⟩
  · exact ((Clause.yields_filterOfValue written).of_eq_error h).2
  · rw [← Descriptor.ofValue_filter_keys fields, ← Descriptor.ofValue_filter_keys fields', h]
  · exact Descriptor.ofValue_eq_ok_congr hnodup hnodup' hsame

/-- A condition of two keys in a group with an empty clause, an operator that there is not, and a
    descriptor with a superfluous key. -/
theorem filters_follow_grammar_nested :
    let one : Value := .number (.integer 1 (by decide))
    let written : Value := .object [
      ("or", .array [.object [("a", .object [("<", one), ("x", .null)])], .object []]),
      ("b", .array [])]
    let unknown : Value := .object [("and", .array [.object [("a", .object [("~", one)])]])]
    let clause : Clause := [
      .anyOf [[.field "a" (.less one)], []], .field "b" (.oneOf [])]
    Clause.filterOfValue written = .ok (some clause) ∧ IsWrittenClause written ∧
      Clause.Mirrors written clause ∧
      Clause.filterOfValue unknown = .error (.unsupportedOperator "~" "a") ∧
      IsFilterFault unknown (.unsupportedOperator "~" "a") ∧
      Descriptor.ofValue (.object [("skip", one), ("page", one)]) =
        Descriptor.ofValue (.object [("skip", one)]) := by
  intro one written unknown clause
  have hread : Clause.filterOfValue written = .ok (some clause) := rfl
  have hrefused : Clause.filterOfValue unknown = .error (.unsupportedOperator "~" "a") := rfl
  obtain ⟨haccepted, hmirrors, hfault, -, hother, -⟩ := filters_follow_grammar
  refine ⟨hread, ?_, ?_, hrefused, hfault _ _ hrefused, hother _ _ rfl⟩
  · rcases (haccepted written).mp ⟨_, hread⟩ with hnull | hwritten
    · simp [written] at hnull
    · exact hwritten
  · rcases hmirrors _ _ hread with ⟨hnull, -⟩ | ⟨_, hsome, hmirror⟩
    · simp [written] at hnull
    · exact Option.some.inj hsome ▸ hmirror

end DocQuery
