import DocQuery.Proofs.ClauseMeaning
import DocQuery.Proofs.Execution
import DocQuery.Proofs.Stages

set_option autoImplicit false

/-! # Looking up a primary key and filtering by it

A filter that asks for one primary key may be compiled to a look-up instead. The two differ only on
rows that are neither objects nor null: reading a field of such a row is an error for the filter,
while the look-up passes over it. Everything after the filter is the same for both
(`Stages`), so the whole plans agree wherever the filter does not fail for that reason
(`keyLookup_agrees`). -/

namespace DocQuery

variable {tables : Tables} {primaryKey : String}

/-! ## A clause that asks for one key -/

theorem Clause.eq_of_keyLookup? {clause : Clause} {key : Value}
    (h : clause.keyLookup? primaryKey = some key) : clause = [.field primaryKey (.equal key)] := by
  unfold Clause.keyLookup? at h
  split at h
  · next name value =>
    split at h
    · next hkey => rw [← hkey.1, Option.some.inj h]
    · cases h
  · cases h

variable [PatternLibrary]

/-- On a document the filter tells what the look-up tells. -/
theorem accepts_key_of_document (key : Value) {row : Value}
    (hrow : row.isObject = true ∨ row.isNull = true) :
    (Clause.compile .row [.field primaryKey (.equal key)]).accepts tables row =
      .ok (hasIndexKey primaryKey key row) := by
  have hfits : Clause.PatternsFit [.field primaryKey (.equal key)] := by
    intro condition hmem
    simp only [conditionsOfEntries, Entry.conditions, List.append_nil, List.mem_singleton] at hmem
    rw [hmem]
    rfl
  rw [Clause.accepts_compile _ hrow hfits, Clause.holds, everyEntryHolds, everyEntryHolds,
    Bool.and_true, Entry.holds, hasIndexKey]
  cases row.field? primaryKey <;> rfl

/-- On any other row the filter fails. -/
theorem accepts_key_of_not_document (key : Value) {row : Value} (hobject : row.isObject = false)
    (hnull : row.isNull = false) :
    (Clause.compile .row [.field primaryKey (.equal key)]).accepts tables row =
      .error (.typeError (.noFields primaryKey row)) := by
  have hread : readField primaryKey row = .error (.typeError (.noFields primaryKey row)) := by
    cases row with
    | object fields => cases hobject
    | null => cases hnull
    | _ => rfl
  have heval : (Expr.field .row primaryKey).evaluate tables ⟨row, none⟩ =
      .error (.typeError (.noFields primaryKey row)) :=
    (evaluate_row primaryKey).trans hread
  have herror := (Condition.equal key).evaluate_compile_error heval
  rw [Expr.accepts, Clause.compile, compileEntries, compileEntries, Entry.compile, Expr.conjunction,
    herror]
  rfl

/-! ## The filter stage -/

/-- With and without look-up the filter stage has the same result, unless the filter fails on a row
    that is neither an object nor null. -/
theorem run_filtered_keyLookup (input : Plan) (d : Descriptor) :
    (Plan.filtered ⟨primaryKey, true⟩ input d).run tables =
      (Plan.filtered ⟨primaryKey, false⟩ input d).run tables ∨
    ∃ rows row, input.run tables = .ok rows ∧ row ∈ rows ∧ row.isObject = false ∧
      row.isNull = false ∧ (Plan.filtered ⟨primaryKey, false⟩ input d).run tables =
        .error (.query (.typeError (.noFields primaryKey row))) := by
  unfold Plan.filtered Plan.withPart
  cases d.filter with
  | none => exact Or.inl rfl
  | some clause =>
    cases hkey : clause.keyLookup? primaryKey with
    | none =>
      left
      simp only [Plan.compileFilter, hkey]
    | some key =>
      obtain rfl := Clause.eq_of_keyLookup? hkey
      simp only [Plan.compileFilter, hkey, Plan.run]
      cases hinput : input.run tables with
      | error e => exact Or.inl rfl
      | ok rows =>
        simp only [map_ok, ok_bind]
        cases hscan : filterRows tables (Clause.compile .row [.field primaryKey (.equal key)]) rows
          with
        | ok kept =>
          left
          -- every row is a document, for the filter would have failed on another one
          have hdocs : ∀ row ∈ rows, row.isObject = true ∨ row.isNull = true := by
            intro row hrow
            by_contra hne
            simp only [not_or, Bool.not_eq_true] at hne
            obtain ⟨keep, hkeep⟩ := accepts_of_filterRows_ok hscan row hrow
            rw [accepts_key_of_not_document key hne.1 hne.2] at hkeep
            cases hkeep
          rw [← hscan, filterRows_eq_filter
            (fun row hrow => accepts_key_of_document key (hdocs row hrow)), mapError_ok]
        | error e =>
          right
          obtain ⟨row, hrow, he⟩ := exists_accepts_of_filterRows_error hscan
          have hnot : ¬ (row.isObject = true ∨ row.isNull = true) := by
            intro hdoc
            rw [accepts_key_of_document key hdoc] at he
            cases he
          simp only [not_or, Bool.not_eq_true] at hnot
          rw [accepts_key_of_not_document key hnot.1 hnot.2] at he
          obtain rfl := Except.error.inj he
          exact ⟨rows, row, rfl, hrow, hnot.1, hnot.2, rfl⟩

/-! ## Main statement -/

/-- With and without look-up a descriptor either has no plan, for the same reason, or it has two
    plans. What the filtering plan gives the other gives too; if the filtering plan fails, the other
    fails in the same way, or the cause is a row of the input that is neither an object nor null. On
    a table of objects the two cannot be told apart. -/
theorem keyLookup_agrees (primaryKey : String) (input : Plan) (d : Descriptor) (tables : Tables) :
    (∃ e, Plan.compile ⟨primaryKey, true⟩ input d = .error e ∧
      Plan.compile ⟨primaryKey, false⟩ input d = .error e) ∨
    ∃ lookup scan, Plan.compile ⟨primaryKey, true⟩ input d = .ok lookup ∧
      Plan.compile ⟨primaryKey, false⟩ input d = .ok scan ∧
      (∀ rows, scan.run tables = .ok rows → lookup.run tables = .ok rows) ∧
      (∀ e, scan.run tables = .error e → lookup.run tables = .error e ∨
        ∃ rows row, input.run tables = .ok rows ∧ row ∈ rows ∧ row.isObject = false ∧
          row.isNull = false ∧ e = .query (.typeError (.noFields primaryKey row))) ∧
      ((∀ base, tables.lookup input.tableName = some base → ∀ row ∈ base, row.isObject = true) →
        lookup.run tables = scan.run tables) := by
  rcases Plan.compile_cases input ⟨primaryKey, true⟩ d with ⟨e, he, hlookup⟩ |
    ⟨fields, lookup, hfields, hlookup, hrunLookup⟩
  · rcases Plan.compile_cases input ⟨primaryKey, false⟩ d with ⟨e', he', hscan⟩ |
      ⟨fields, scan, hfields, -, -⟩
    · obtain rfl := Except.error.inj (he.symm.trans he')
      exact Or.inl ⟨e, hlookup, hscan⟩
    · cases he.symm.trans hfields
  · rcases Plan.compile_cases input ⟨primaryKey, false⟩ d with ⟨e, he, -⟩ |
      ⟨fields', scan, hfields', hscan, hrunScan⟩
    · cases he.symm.trans hfields
    · obtain rfl := Except.ok.inj (hfields.symm.trans hfields')
      refine Or.inr ⟨lookup, scan, hlookup, hscan, ?_⟩
      rw [hrunLookup, hrunScan]
      rcases @run_filtered_keyLookup tables primaryKey _ input d with hsame |
        ⟨rows, row, hinput, hrow, hobject, hnull, herror⟩
      · rw [hsame]
        exact ⟨fun _ h => h, fun _ h => Or.inl h, fun _ => rfl⟩
      · rw [herror, error_bind]
        refine ⟨?_, ?_, ?_⟩
        · intro kept hkept
          cases hkept
        · intro e he
          obtain rfl := Except.error.inj he
          exact Or.inr ⟨rows, row, hinput, hrow, hobject, hnull, rfl⟩
        · intro hbase
          have hcontra := Plan.run_isObject hbase hinput row hrow
          rw [hobject] at hcontra
          cases hcontra

end DocQuery
