import DocQuery.Proofs.Joins
import DocQuery.Proofs.KeyLookup
import DocQuery.Proofs.WrittenClause
import DocQuery.Proofs.WrittenStages

set_option autoImplicit false

/-! # The answer to a written descriptor

What a descriptor asks for can be said from the value it is written as: the documents that the
filter selects, sorted stably, without the first ones, with the joins attached, up to the limit
(`IsAnswer`). Reading the descriptor, compiling it with or without look-ups by key and running the
plan give that answer, and there is no other one (`run_compile_isAnswer`), for documents that are
objects, tables of joins that are there and values that sort in a transitive order. The only thing
that can fail is the search for a text: a pattern that is too large is refused on every document
with the field, whether or not the document could match (`like_too_large_has_no_answer`). -/

namespace DocQuery

/-- What the row holds in the field; a row without the field counts as one that holds null. -/
def Value.held (row : Value) (field : String) : Value :=
  match row with
  | .object fields => (fields.lookup field).getD .null
  | _ => .null

/-- The order of two rows by what they hold in the field of the key. -/
def OrderKey.rowOrder (key : OrderKey) (a b : Value) : Ordering :=
  match key.direction with
  | .ascending => (a.held key.field).sortOrder (b.held key.field)
  | .descending => (b.held key.field).sortOrder (a.held key.field)

/-- The order of two rows by the keys: the first key that tells them apart decides. -/
def rowOrder (keys : List OrderKey) (a b : Value) : Ordering :=
  ((keys.map (fun key => key.rowOrder a b)).find? (· != .eq)).getD .eq

/-- The list answers the written descriptor on the documents `base`. -/
def IsAnswer (tables : Tables) (primaryKey : String) (written : Value)
    (base answer : List Value) : Prop :=
  ∃ keys skip limit plans sorted,
    (WritesSort (written.part "sort") keys ∧ WritesCount (written.part "skip") skip ∧
      WritesCount (written.part "limit") limit ∧ WritesJoins (written.part "joins") plans) ∧
    IsStableSort (rowOrder keys) (base.filter (selects (written.part "where"))) sorted ∧
    answer = takeUpTo limit ((sorted.drop skip).map (attachJoins tables primaryKey plans))

/-- The fault is the one of a condition of the filter whose pattern the search refuses. -/
def Descriptor.Refuses (d : Descriptor) (e : QueryError) : Prop :=
  ∃ clause, d.filter = some clause ∧
    ∃ condition ∈ conditionsOfEntries clause, condition.refusal? = some e

variable {tables : Tables} {d : Descriptor} {base : List Value}

/-! ## The filter stage on objects -/

/-- A filter keeps the objects that the clause holds of, or fails for a pattern that is refused. -/
theorem filterRows_compile [PatternLibrary] (clause : Clause)
    (hobjects : ∀ row ∈ base, row.isObject = true) :
    filterRows tables (clause.compile .row) base = .ok (base.filter clause.holds) ∨
      ∃ condition ∈ conditionsOfEntries clause, ∃ e, condition.refusal? = some e ∧
        filterRows tables (clause.compile .row) base = .error e := by
  have htells := fun row hrow =>
    @Clause.tells_accepts tables _ row clause (Or.inl (hobjects row hrow))
  cases hfilter : filterRows tables (clause.compile .row) base with
  | ok kept =>
    have haccepts : ∀ row ∈ base,
        (clause.compile .row).accepts tables row = .ok (clause.holds row) := by
      intro row hrow
      obtain ⟨keep, hkeep⟩ := accepts_of_filterRows_ok hfilter row hrow
      rcases htells row hrow with h | ⟨condition, -, e, -, h⟩
      · exact h
      · rw [hkeep] at h
        cases h
    exact Or.inl (hfilter.symm.trans (filterRows_eq_filter haccepts))
  | error e =>
    obtain ⟨row, hrow, herror⟩ := exists_accepts_of_filterRows_error hfilter
    rcases htells row hrow with h | ⟨condition, hmem, e', he', h⟩
    · rw [herror] at h
      cases h
    · obtain rfl := Except.error.inj (herror.symm.trans h)
      exact Or.inr ⟨condition, hmem, e, he', rfl⟩

/-- The rows that the filter of a descriptor is to keep. -/
def Descriptor.kept (d : Descriptor) (rows : List Value) : List Value :=
  rows.filter (fun row => d.filter.all (fun clause => clause.holds row))

section

variable [PatternLibrary]

theorem run_filtered_scan {table primaryKey : String} (hbase : tables.lookup table = some base)
    (hobjects : ∀ row ∈ base, row.isObject = true) :
    (Plan.filtered ⟨primaryKey, false⟩ (.table table) d).run tables = .ok (d.kept base) ∨
      ∃ e, d.Refuses e ∧
        (Plan.filtered ⟨primaryKey, false⟩ (.table table) d).run tables = .error (.query e) := by
  have htable : (Plan.table table).run tables = .ok base := by rw [Plan.run, hbase]
  unfold Plan.filtered Plan.withPart Descriptor.kept
  cases hfilter : d.filter with
  | none =>
    left
    rw [htable]
    exact congrArg Except.ok (List.filter_eq_self.mpr (fun row _ => rfl)).symm
  | some clause =>
    have hrun : (Plan.compileFilter ⟨primaryKey, false⟩ (.table table) clause).run tables =
        (filterRows tables (clause.compile .row) base).mapError .query := by
      unfold Plan.compileFilter
      rw [Plan.run, htable, ok_bind]
    rcases @filterRows_compile tables base _ clause hobjects with h | ⟨condition, hmem, e, he, h⟩
    · left
      rw [hrun, h, mapError_ok]
      rfl
    · right
      rw [hrun, h, mapError_error]
      exact ⟨e, ⟨clause, hfilter, condition, hmem, he⟩, rfl⟩

/-- The filter stage does the same with look-up. -/
theorem run_filtered_of_objects {table : String} (options : PlanOptions)
    (hbase : tables.lookup table = some base) (hobjects : ∀ row ∈ base, row.isObject = true) :
    (Plan.filtered options (.table table) d).run tables = .ok (d.kept base) ∨
      ∃ e, d.Refuses e ∧
        (Plan.filtered options (.table table) d).run tables = .error (.query e) := by
  obtain ⟨primaryKey, keyLookup⟩ := options
  have hscan := @run_filtered_scan tables d base _ table primaryKey hbase hobjects
  cases keyLookup with
  | false => exact hscan
  | true =>
    -- the two differ only on rows that are no objects, and the table has none
    rcases @run_filtered_keyLookup tables primaryKey _ (.table table) d with hsame |
      ⟨rows, row, hrows, hrow, hobject, -, -⟩
    · rw [hsame]
      exact hscan
    · rw [Plan.run, hbase] at hrows
      obtain rfl := Except.ok.inj hrows
      rw [hobjects row hrow] at hobject
      cases hobject

end

/-! ## The stage of the joins on objects -/

theorem attachJoins_nil (tables : Tables) (primaryKey : String) (row : Value) :
    attachJoins tables primaryKey [] row = row := by
  cases row <;> rfl

theorem attachFields_eq_map_attachJoins [PatternLibrary] {primaryKey : String}
    {fields : List MergeField} {rows : List Value} (hfields : d.mergeFields primaryKey = .ok fields)
    (hjoins : ∀ joins, d.joins = some joins → ∀ join ∈ joins,
      tables.hasKey join.lookup.child = true)
    (hobjects : ∀ row ∈ rows, row.isObject = true) :
    attachFields tables fields rows =
      .ok (rows.map (attachJoins tables primaryKey d.joinPlans)) := by
  unfold Descriptor.mergeFields at hfields
  unfold Descriptor.joinPlans
  cases hd : d.joins with
  | none =>
    rw [hd] at hfields
    obtain rfl := Except.ok.inj hfields
    have hsame : rows.map (attachJoins tables primaryKey []) = rows :=
      (List.map_congr_left (fun row _ => attachJoins_nil tables primaryKey row)).trans
        (List.map_id' rows)
    exact congrArg Except.ok hsame.symm
  | some joins =>
    rw [hd] at hfields
    obtain ⟨plans, hplans, hmerge⟩ := mergeRow_compileJoins (mapError_eq_ok.mp hfields)
    have hplans' : (JoinPlan.ofList joins).toOption.getD [] = plans := by
      rw [hplans]
      rfl
    rw [Option.elim_some, hplans']
    exact attachFields_eq_map (fun row hrow => hmerge tables (hjoins joins hd) row
      (hobjects row hrow))

/-! ## Patterns that are refused -/

/-- Each `_` takes a thousand bytes of the automaton that reads backwards. -/
theorem Pattern.usable?_ofWildcards_replicate {n : Nat} (h : maxBytes < 1000 * n) :
    usable? (ofWildcards (String.ofList (List.replicate n '_'))) = none := by
  have hatoms : (wildcardAtoms (String.ofList (List.replicate n '_'))) =
      .start :: (List.replicate n .any ++ [.finish]) := by
    rw [wildcardAtoms, String.toList_ofList, List.map_replicate]
    rfl
  have hbytes : ((wildcardAtoms (String.ofList (List.replicate n '_'))).map
      (·.backwardSize.bytes)).sum = 1000 * n + 64 := by
    rw [hatoms, List.map_cons, List.map_append, List.map_replicate, List.sum_cons, List.sum_append,
      List.sum_replicate_nat]
    simp [Atom.backwardSize, AutomatonSize.bytes]
    omega
  have hfits : fits (wildcardAtoms (String.ofList (List.replicate n '_'))) = false := by
    have hbackward : ¬ backwardBytes (wildcardAtoms (String.ofList (List.replicate n '_'))) ≤
        maxBytes := by
      rw [backwardBytes, ← List.sum_eq_foldr, hbytes]
      omega
    rw [fits, decide_eq_false hbackward, Bool.and_false]
  rw [usable?_eq_of_ofText? (ofText?_ofWildcards _), hfits]
  rfl

/-- A `like` that is refused makes the filter fail for any document with the field. -/
theorem filterRows_like_refused [PatternLibrary] {tables : Tables} {name wildcards : String}
    {row v : Value} (hrefused : Pattern.usable? (Pattern.ofWildcards wildcards) = none)
    (hfield : readField name row = .ok v) (rest : List Value) :
    filterRows tables (Clause.compile .row [.field name (.like wildcards)]) (row :: rest) =
      .error (.execution (.invalidPattern (Pattern.ofWildcards wildcards))) := by
  have hrefusal : (Condition.like wildcards).refusal? =
      some (.execution (.invalidPattern (Pattern.ofWildcards wildcards))) := by
    rw [Condition.refusal?, Condition.pattern?, Option.bind_some, hrefused]
    rfl
  have haccepts := @Condition.accepts_compile tables _ (.like wildcards) row v name hfield
  rw [hrefusal, Option.elim_some] at haccepts
  rw [Clause.compile, compileEntries, compileEntries, Entry.compile, Expr.conjunction, filterRows,
    haccepts, error_bind]

/-! ## The one answer -/

theorem Value.held_eq_valueOf (key : OrderKey) (row : Value) :
    row.held key.field = key.valueOf row := by
  cases row <;> rfl

theorem OrderKey.rowOrder_eq_compareRows (key : OrderKey) (a b : Value) :
    key.rowOrder a b = key.compareRows a b := by
  rw [rowOrder, compareRows, Value.held_eq_valueOf, Value.held_eq_valueOf]
  cases key.direction with
  | ascending => rfl
  | descending => exact Value.sortOrder_swap (key.valueOf a) (key.valueOf b)

theorem rowOrder_eq_compareRows (keys : List OrderKey) : rowOrder keys = compareRows keys := by
  funext a b
  induction keys with
  | nil => rfl
  | cons key rest ih =>
    rw [compareRows, ← ih, rowOrder, rowOrder, List.map_cons, key.rowOrder_eq_compareRows]
    cases key.compareRows a b <;> rfl

/-- The rows to be kept are the ones that the written filter selects. -/
theorem Descriptor.ReadFrom.kept_eq {written : Value} (h : ReadFrom written.writtenFields d) :
    d.kept base = base.filter (selects (written.part "where")) :=
  List.filter_congr (fun row _ => Clause.selects_of_filterOfValue h.filter row)

/-- Of a descriptor that can be read the answer is the one that its stages give. -/
theorem Descriptor.isAnswer_iff {written : Value} (h : ReadFrom written.writtenFields d)
    {primaryKey : String} {answer : List Value} :
    IsAnswer tables primaryKey written base answer ↔
      ∃ sorted, IsStableSort (compareRows d.sortKeys) (d.kept base) sorted ∧
        answer = takeUpTo d.limitCount
          ((sorted.drop d.skipCount).map (attachJoins tables primaryKey d.joinPlans)) := by
  have hparts : ∀ keys skip limit plans,
      (WritesSort (written.part "sort") keys ∧ WritesCount (written.part "skip") skip ∧
        WritesCount (written.part "limit") limit ∧ WritesJoins (written.part "joins") plans) ↔
      keys = d.sortKeys ∧ skip = d.skipCount ∧ limit = d.limitCount ∧ plans = d.joinPlans := by
    intro keys skip limit plans
    exact and_congr (SortSpec.writesSort_iff h.sort) (and_congr (Count.writesCount_iff h.skip)
      (and_congr (Count.writesCount_iff h.limit) (writesJoins_iff h.joins)))
  unfold IsAnswer
  simp only [hparts, rowOrder_eq_compareRows, ← h.kept_eq]
  constructor
  · rintro ⟨_, _, _, _, sorted, ⟨rfl, rfl, rfl, rfl⟩, hsorted, hanswer⟩
    exact ⟨sorted, hsorted, hanswer⟩
  · rintro ⟨sorted, hsorted, hanswer⟩
    exact ⟨_, _, _, _, sorted, ⟨rfl, rfl, rfl, rfl⟩, hsorted, hanswer⟩

/-! ## Main statement -/

/-- On a table of objects the plan for a descriptor selects the one answer to what is written, if
    the tables of its joins are there and the values that are sorted are in a transitive order. It
    can only fail for a pattern that is refused. -/
theorem run_compile_isAnswer [PatternLibrary] {written : Value}
    (hread : Descriptor.ofValue written = .ok d) {options : PlanOptions} {table : String}
    {plan : Plan} (hcompile : Plan.compile options (.table table) d = .ok plan)
    (hbase : tables.lookup table = some base) (hobjects : ∀ row ∈ base, row.isObject = true)
    (hjoins : ∀ joins, d.joins = some joins → ∀ join ∈ joins,
      tables.hasKey join.lookup.child = true)
    (htrans : ∀ keys, WritesSort (written.part "sort") keys →
      SortsTransitively keys (base.filter (selects (written.part "where")))) :
    (∃ answer, plan.run tables = .ok answer ∧
      IsAnswer tables options.primaryKey written base answer ∧
      ∀ other, IsAnswer tables options.primaryKey written base other → other = answer) ∨
    ∃ e, d.Refuses e ∧ plan.run tables = .error (.query e) := by
  have hparts := Descriptor.readFrom_of_ofValue hread
  obtain ⟨fields, hfields, hrun⟩ := Plan.run_of_compile_eq_ok hcompile
  rcases @run_filtered_of_objects tables d base _ table options hbase hobjects with hfiltered |
    ⟨e, he, hfiltered⟩
  · left
    have hkeys : SortsTransitively d.sortKeys (d.kept base) := by
      rw [hparts.kept_eq]
      exact htrans _ ((SortSpec.writesSort_iff hparts.sort).mpr rfl)
    obtain ⟨sorted, hsorted, hstable⟩ := exists_sortRows hkeys
    -- sorting and skipping leave objects, as the joins need them
    have hleft : ∀ row ∈ sorted.drop d.skipCount, row.isObject = true := by
      intro row hrow
      have hmem := hstable.perm.mem_iff.mp (List.mem_of_mem_drop hrow)
      exact hobjects row (List.mem_filter.mp hmem).1
    refine ⟨_, ?_, (Descriptor.isAnswer_iff hparts).mpr ⟨sorted, hstable, rfl⟩, ?_⟩
    · rw [hrun, hfiltered, ok_bind, Descriptor.arrange, hsorted, ok_bind,
        attachFields_eq_map_attachJoins hfields hjoins hleft, mapError_ok, ok_bind, pure_eq_ok]
    · intro other hother
      obtain ⟨sorted', hstable', rfl⟩ := (Descriptor.isAnswer_iff hparts).mp hother
      rw [hstable.unique (transitiveOn_compareRows hkeys) hstable']
  · right
    refine ⟨e, he, ?_⟩
    rw [hrun, hfiltered, error_bind]

/-- The parts are written in an order other than the one of the stages. -/
theorem run_compile_isAnswer_limit_first :
    let written : Value := .object [("limit", .string "1"),
      ("sort", .object [("id", .string "down")]),
      ("joins", .array [.object [("alias", .string "owner"), ("child", .string "people"),
        ("parentKey", .string "owner"), ("model", .bool true)]]),
      ("where", .object [("or", .array [.object [("kind", .string "a")],
        .object [("kind", .object [("!", .string "b")])]])])]
    let base : List Value := [.object [("id", .string "1"), ("kind", .string "a")],
      .object [("id", .string "2"), ("kind", .string "b")],
      .object [("id", .string "3"), ("kind", .string "c"), ("owner", .string "x")]]
    let tables : Tables := [("t", base), ("people", [])]
    let d : Descriptor := {
      filter := some [.anyOf [[.field "kind" (.equal (.string "a"))],
        [.field "kind" (.notEqual (.string "b"))]]]
      sort := some [("id", .string "down")]
      limit := some 1
      joins := some [.belongsTo ⟨"owner", "people", none, some "owner"⟩] }
    ∃ plan, Descriptor.ofValue written = .ok d ∧ Plan.compile {} (.table "t") d = .ok plan ∧
      (∀ row ∈ base, row.isObject = true) ∧
      (∀ joins, d.joins = some joins → ∀ join ∈ joins, tables.hasKey join.lookup.child = true) ∧
      (∀ keys, WritesSort (written.part "sort") keys →
        SortsTransitively keys (base.filter (selects (written.part "where")))) ∧
      ∃ answer, plan.run tables = .ok answer ∧ IsAnswer tables "id" written base answer := by
  intro written base tables d
  have hread : Descriptor.ofValue written = .ok d := rfl
  obtain ⟨plan, hplan⟩ : ∃ plan, Plan.compile {} (.table "t") d = .ok plan := ⟨_, rfl⟩
  have hobjects : ∀ row ∈ base, row.isObject = true := by
    simp [base, Value.isObject]
  have hjoins : ∀ joins, d.joins = some joins → ∀ join ∈ joins,
      tables.hasKey join.lookup.child = true := by
    intro joins hd
    obtain rfl := Option.some.inj hd
    decide
  have hsort : SortSpec.ofValue (written.part "sort") = .ok d.sort := rfl
  have htrans : ∀ keys, WritesSort (written.part "sort") keys →
      SortsTransitively keys (base.filter (selects (written.part "where"))) := by
    intro keys hkeys
    obtain rfl := (SortSpec.writesSort_iff hsort).mp hkeys
    decide
  refine ⟨plan, hread, hplan, hobjects, hjoins, htrans, ?_⟩
  rcases run_compile_isAnswer hread hplan (rfl : tables.lookup "t" = some base) hobjects hjoins
    htrans with ⟨answer, hrun, hanswer, -⟩ | ⟨e, ⟨clause, hclause, condition, hmem, he⟩, -⟩
  · exact ⟨answer, hrun, hanswer⟩
  · obtain rfl := Option.some.inj hclause
    have hfits : Clause.PatternsFit [.anyOf [[.field "kind" (.equal (.string "a"))],
        [.field "kind" (.notEqual (.string "b"))]]] := by decide
    have hnone := hfits condition hmem
    rw [he] at hnone
    cases hnone

/-- The answer to a text condition that is too large is that no document matches, but the plan fails
    as soon as a document has the field. -/
theorem like_too_large_has_no_answer :
    let wildcards := String.ofList (List.replicate 12500 '_')
    let written : Value :=
      .object [("where", .object [("s", .object [("like", .string wildcards)])])]
    let base : List Value := [.object [("s", .null)]]
    ∃ d plan, Descriptor.ofValue written = .ok d ∧ Plan.compile {} (.table "t") d = .ok plan ∧
      (∀ row ∈ base, row.isObject = true) ∧ d.joins = none ∧
      (∀ keys, WritesSort (written.part "sort") keys →
        SortsTransitively keys (base.filter (selects (written.part "where")))) ∧
      IsAnswer [("t", base)] "id" written base [] ∧
      plan.run [("t", base)] =
        .error (.query (.execution (.invalidPattern (Pattern.ofWildcards wildcards)))) := by
  intro wildcards written base
  refine ⟨{ filter := some [.field "s" (.like wildcards)] },
    .filter (.table "t") (Clause.compile .row [.field "s" (.like wildcards)]), rfl, rfl, ?_, rfl,
    ?_, ?_, ?_⟩
  · intro row hrow
    rw [List.mem_singleton.mp hrow]
    rfl
  · rintro _ ⟨⟩ key hkey
    cases hkey
  · exact ⟨[], 0, 0, [], [], ⟨.absent, .absent, .absent, .absent⟩,
      ⟨List.Perm.refl _, List.Pairwise.nil, fun _ _ => rfl⟩, rfl⟩
  · have hrefused : Pattern.usable? (Pattern.ofWildcards wildcards) = none :=
      Pattern.usable?_ofWildcards_replicate (by decide)
    have hrun : (Plan.table "t").run [("t", base)] = .ok base := rfl
    rw [Plan.run, hrun, ok_bind, filterRows_like_refused hrefused rfl [], mapError_error]

end DocQuery
