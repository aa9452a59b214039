import DocQuery.Proofs.ValueOrder

set_option autoImplicit false

/-! # What the steps of a plan do with rows

A filter whose predicate gives an answer for every row is the filter of lists; a filter fails only
as its predicate does on a row. A merge that works on every row is a map. Rows of plans over tables
of objects are objects (`Plan.run_isObject`). -/

namespace DocQuery

variable [PatternLibrary] {tables : Tables} {predicate : Expr} {rows : List Value}

/-! ## Filtering -/

theorem filterRows_eq_filter {p : Value → Bool}
    (h : ∀ row ∈ rows, predicate.accepts tables row = .ok (p row)) :
    filterRows tables predicate rows = .ok (rows.filter p) := by
  induction rows with
  | nil => rfl
  | cons row rest ih =>
    have hrow := h row List.mem_cons_self
    have hrest := ih (fun r hr => h r (List.mem_cons_of_mem _ hr))
    rw [filterRows, hrow, hrest, List.filter_cons]
    cases p row <;> rfl

/-- A filter keeps rows in their order. -/
theorem filterRows_sublist {kept : List Value} (h : filterRows tables predicate rows = .ok kept) :
    kept.Sublist rows := by
  induction rows generalizing kept with
  | nil =>
    rw [filterRows] at h
    obtain rfl := Except.ok.inj h
    exact List.Sublist.refl _
  | cons row rest ih =>
    rw [filterRows, bind_eq_ok] at h
    obtain ⟨keep, -, h⟩ := h
    obtain ⟨later, hlater, h⟩ := bind_eq_ok.mp h
    obtain rfl := Except.ok.inj h
    cases keep with
    | true => exact (ih hlater).cons_cons row
    | false => exact (ih hlater).cons row

/-- A filter gives rows only if its predicate gives an answer for every row. -/
theorem accepts_of_filterRows_ok {kept : List Value}
    (h : filterRows tables predicate rows = .ok kept) :
    ∀ row ∈ rows, ∃ keep, predicate.accepts tables row = .ok keep := by
  induction rows generalizing kept with
  | nil => simp
  | cons row rest ih =>
    rw [filterRows, bind_eq_ok] at h
    obtain ⟨keep, hkeep, h⟩ := h
    obtain ⟨later, hlater, -⟩ := bind_eq_ok.mp h
    intro r hr
    rcases List.mem_cons.mp hr with rfl | hr
    · exact ⟨keep, hkeep⟩
    · exact ih hlater r hr

/-- A filter gives rows if and only if its predicate gives an answer for every row, and then it is
    the filter by these answers. -/
theorem filterRows_eq_ok_iff {kept : List Value} :
    filterRows tables predicate rows = .ok kept ↔
      ∃ p : Value → Bool, (∀ row ∈ rows, predicate.accepts tables row = .ok (p row)) ∧
        rows.filter p = kept := by
  constructor
  · intro h
    have hanswers : ∀ row ∈ rows, predicate.accepts tables row =
        .ok ((predicate.accepts tables row).toOption.getD false) := by
      intro row hrow
      obtain ⟨keep, hkeep⟩ := accepts_of_filterRows_ok h row hrow
      rw [hkeep]
      rfl
    have hfilter := filterRows_eq_filter hanswers
    rw [h] at hfilter
    exact ⟨_, hanswers, (Except.ok.inj hfilter).symm⟩
  · rintro ⟨p, hp, rfl⟩
    exact filterRows_eq_filter hp

/-- A filter fails as its predicate does on some row. -/
theorem exists_accepts_of_filterRows_error {e : QueryError}
    (h : filterRows tables predicate rows = .error e) :
    ∃ row ∈ rows, predicate.accepts tables row = .error e := by
  induction rows with
  | nil => cases h
  | cons row rest ih =>
    rw [filterRows] at h
    cases hrow : predicate.accepts tables row with
    | error e' =>
      rw [hrow] at h
      obtain rfl := Except.error.inj h
      exact ⟨row, List.mem_cons_self, hrow⟩
    | ok keep =>
      rw [hrow, ok_bind] at h
      cases hrest : filterRows tables predicate rest with
      | error e' =>
        rw [hrest] at h
        obtain rfl := Except.error.inj h
        obtain ⟨r, hr, haccepts⟩ := ih hrest
        exact ⟨r, List.mem_cons_of_mem _ hr, haccepts⟩
      | ok later =>
        rw [hrest] at h
        cases h

/-- A filter gives rows if and only if its predicate has an answer for every row. -/
theorem exists_filterRows_eq_ok_iff :
    (∃ kept, filterRows tables predicate rows = .ok kept) ↔
      ∀ row ∈ rows, ∃ keep, predicate.accepts tables row = .ok keep := by
  refine ⟨fun ⟨kept, h⟩ => accepts_of_filterRows_ok h, fun h => ?_⟩
  cases hfilter : filterRows tables predicate rows with
  | ok kept => exact ⟨kept, rfl⟩
  | error e =>
    obtain ⟨row, hrow, herror⟩ := exists_accepts_of_filterRows_error hfilter
    obtain ⟨keep, hkeep⟩ := h row hrow
    rw [hkeep] at herror
    cases herror

/-! ## Merging -/

variable {fields : List MergeField}

theorem mergeRows_eq_map {f : Value → Value}
    (h : ∀ row ∈ rows, mergeRow tables fields row = .ok (f row)) :
    mergeRows tables fields rows = .ok (rows.map f) := by
  induction rows with
  | nil => rfl
  | cons row rest ih =>
    rw [mergeRows, h row List.mem_cons_self, ih (fun r hr => h r (List.mem_cons_of_mem _ hr))]
    rfl

theorem mergeRow_isObject {row merged : Value} (h : mergeRow tables fields row = .ok merged) :
    merged.isObject = true := by
  obtain ⟨attached, -, h⟩ := bind_eq_ok.mp h
  cases row with
  | object own =>
    obtain rfl := Except.ok.inj h
    rfl
  | _ => cases h

theorem mergeRows_isObject {merged : List Value} (h : mergeRows tables fields rows = .ok merged) :
    ∀ row ∈ merged, row.isObject = true := by
  induction rows generalizing merged with
  | nil =>
    obtain rfl := Except.ok.inj h
    simp
  | cons row rest ih =>
    obtain ⟨first, hfirst, h⟩ := bind_eq_ok.mp h
    obtain ⟨later, hlater, h⟩ := bind_eq_ok.mp h
    obtain rfl := Except.ok.inj h
    intro r hr
    rcases List.mem_cons.mp hr with rfl | hr
    · exact mergeRow_isObject hfirst
    · exact ih hlater r hr

/-! ## Tables of objects -/

/-- A plan over a table of objects gives objects. -/
theorem Plan.run_isObject {plan : Plan} (h : ∀ base, tables.lookup plan.tableName = some base →
    ∀ row ∈ base, row.isObject = true) (hrun : plan.run tables = .ok rows) :
    ∀ row ∈ rows, row.isObject = true := by
  induction plan generalizing rows with
  | table name =>
    rw [run] at hrun
    split at hrun
    · next base hbase =>
      obtain rfl := Except.ok.inj hrun
      exact h base hbase
    · cases hrun
  | get input index key ih =>
    obtain ⟨all, hall, rfl⟩ := map_eq_ok.mp hrun
    exact fun row hrow => ih h hall row ((List.mem_filter.mp hrow).1)
  | filter input predicate ih =>
    obtain ⟨all, hall, hkept⟩ := bind_eq_ok.mp hrun
    have hsub := (filterRows_sublist (mapError_eq_ok.mp hkept)).subset
    exact fun row hrow => ih h hall row (hsub hrow)
  | orderBy input keys ih =>
    obtain ⟨all, hall, hsorted⟩ := bind_eq_ok.mp hrun
    exact fun row hrow => ih h hall row ((perm_of_sortRows hsorted).subset hrow)
  | skip input count ih =>
    obtain ⟨all, hall, rfl⟩ := map_eq_ok.mp hrun
    exact fun row hrow => ih h hall row (List.mem_of_mem_drop hrow)
  | limit input count ih =>
    obtain ⟨all, hall, rfl⟩ := map_eq_ok.mp hrun
    exact fun row hrow => ih h hall row (List.mem_of_mem_take hrow)
  | merge input fields ih =>
    obtain ⟨all, -, hmerged⟩ := bind_eq_ok.mp hrun
    exact mergeRows_isObject (mapError_eq_ok.mp hmerged)

end DocQuery
