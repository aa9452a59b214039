import DocQuery.Proofs.Connectives
import DocQuery.Proofs.Execution
import DocQuery.Proofs.RepeatedWrites
import DocQuery.Plan.Compile
import Mathlib.Data.List.Forall2

set_option autoImplicit false

/-! # What joins attach

A join is looked up in three ways, which differ in what a missing key means: the document that a
belongs-to join attaches is null then, the documents of a has-many join are none, and a junction row
of a many-to-many join is passed over. `JoinPlan.attached` says so without expressions, and
`JoinPlan.evaluate_compile` that the compiled expressions give just that on objects. Every value is
computed from the row as it was, so that joins under a repeated alias do not see each other and the
last one counts (`merge_attaches`). -/

namespace DocQuery

/-! ## Looking documents up -/

/-- The document has a field `name` whose value equals `value`. -/
def hasField (name : String) (value document : Value) : Bool :=
  (document.field? name).any (·.equals value)

/-- The documents of a table, none if there is no such table. -/
def documents (tables : Tables) (table : String) : List Value :=
  (tables.lookup table).getD []

namespace Lookup

variable (tables : Tables) (primaryKey : String)

/-- The first document that `parent` refers to, or null. Nothing is looked up for a parent that
    lacks the key. -/
def one (lookup : Lookup) (parent : Value) : Option Value :=
  (lookup.parentKey.bind parent.field?).map (fun key =>
    ((documents tables lookup.child).find?
      (hasField (lookup.childKey.getD primaryKey) key)).getD .null)

/-- The documents that refer to `parent`, in the order of their table. Nothing is looked up for a
    parent that lacks the key. -/
def many (lookup : Lookup) (parent : Value) : Option (List Value) :=
  lookup.childKey.bind (fun childKey =>
    (parent.field? (lookup.parentKey.getD primaryKey)).map (fun key =>
      (documents tables lookup.child).filter (hasField childKey key)))

end Lookup

/-- The value that a join plan attaches to a row. -/
def JoinPlan.attached (tables : Tables) (primaryKey : String) : JoinPlan → Value → Value
  | .belongsTo lookup, row => (lookup.one tables primaryKey row).getD .null
  | .hasMany lookup, row => .array ((lookup.many tables primaryKey row).getD [])
  | .manyToMany through hop, row =>
    .array (((through.many tables primaryKey row).getD []).filterMap (hop.one tables primaryKey))

/-- The row with the values of all plans written into it, one after the other. -/
def attachJoins (tables : Tables) (primaryKey : String) (plans : List JoinPlan) : Value → Value
  | .object own =>
    .object (Assoc.insertAll own (plans.map (fun plan =>
      (plan.attachAs, plan.attached tables primaryKey (.object own)))))
  | row => row

/-! ## What the expressions give -/

variable {tables : Tables} {primaryKey : String} {row : Value}

theorem hasIndexKey_eq_hasField (index : String) (key : Value) :
    hasIndexKey index key = hasField index key := by
  funext document
  unfold hasIndexKey hasField
  cases document.field? index <;> rfl

theorem lookupRows_eq_filter {table : String} (htable : tables.hasKey table = true)
    (index : String) (key : Value) :
    lookupRows tables table index key =
      .ok ((documents tables table).filter (hasField index key)) := by
  obtain ⟨rows, hrows⟩ := Option.isSome_iff_exists.mp htable
  rw [lookupRows, documents, hrows, hasIndexKey_eq_hasField]
  rfl

theorem isObject_of_hasField {name : String} {value document : Value}
    (h : hasField name value document = true) : document.isObject = true := by
  cases document with
  | object fields => rfl
  | _ => cases h

/-- An expression gives what was found, or misses a field if there was nothing to look for. -/
def Finds (found : Option Value) (result : Except QueryError Value) : Prop :=
  match found with
  | some v => result = .ok v
  | none => ∃ name, result = .error (.nonExistence name)

namespace Lookup

variable {lookup : Lookup} {expr : Expr}

section

variable [PatternLibrary]

/-- The compiled look-up of one document, for a parent that `binding` stands for. -/
theorem evaluate_compileOne {binding : Binding} {scope : Scope} {parent : Value}
    (hcompile : lookup.compileOne binding primaryKey = .ok expr)
    (htable : tables.hasKey lookup.child = true) (hresolve : scope.resolve binding = .ok parent)
    (hparent : parent.isObject = true) :
    Finds (lookup.one tables primaryKey parent) (expr.evaluate tables scope) := by
  unfold compileOne at hcompile
  split at hcompile
  · cases hcompile
  · next parentKey hparentKey =>
    obtain rfl := Except.ok.inj hcompile
    rw [one, hparentKey, Option.bind_some, Expr.evaluate, Expr.evaluate, hresolve, ok_bind,
      readField_of_document (Or.inl hparent)]
    cases parent.field? parentKey with
    | none => exact ⟨parentKey, rfl⟩
    | some key =>
      rw [ok_bind, lookupRows_eq_filter htable, ok_bind, List.head?_filter]
      rfl

/-- The compiled look-up of all documents that refer to the row. -/
theorem evaluate_compileMany (hcompile : lookup.compileMany primaryKey = .ok expr)
    (htable : tables.hasKey lookup.child = true) (hrow : row.isObject = true) :
    Finds ((lookup.many tables primaryKey row).map .array) (expr.evaluate tables ⟨row, none⟩) := by
  unfold compileMany at hcompile
  split at hcompile
  · cases hcompile
  · next childKey hchildKey =>
    obtain rfl := Except.ok.inj hcompile
    rw [many, hchildKey, Option.bind_some, Expr.evaluate, Expr.row, evaluate_row,
      readField_of_document (Or.inl hrow)]
    cases row.field? (lookup.parentKey.getD primaryKey) with
    | none => exact ⟨_, rfl⟩
    | some key =>
      rw [ok_bind, lookupRows_eq_filter htable]
      rfl

end

theorem isObject_of_mem_many {found : List Value}
    (h : lookup.many tables primaryKey row = some found) {document : Value}
    (hmem : document ∈ found) : document.isObject = true := by
  obtain ⟨childKey, -, h⟩ := Option.bind_eq_some_iff.mp h
  obtain ⟨key, -, rfl⟩ := Option.map_eq_some_iff.mp h
  exact isObject_of_hasField (List.mem_filter.mp hmem).2

theorem absentValue_compileOne {binding : Binding}
    (hcompile : lookup.compileOne binding primaryKey = .ok expr) : expr.absentValue = .null := by
  unfold compileOne at hcompile
  split at hcompile
  · cases hcompile
  · obtain rfl := Except.ok.inj hcompile
    rfl

theorem absentValue_compileMany (hcompile : lookup.compileMany primaryKey = .ok expr) :
    expr.absentValue = .array [] := by
  unfold compileMany at hcompile
  split at hcompile
  · cases hcompile
  · obtain rfl := Except.ok.inj hcompile
    rfl

end Lookup

/-- Items for which nothing is found are left out. -/
theorem mapPresent_eq_filterMap {f : Value → Except QueryError Value} {g : Value → Option Value}
    {items : List Value} (h : ∀ item ∈ items, Finds (g item) (f item)) :
    mapPresent f items = .ok (items.filterMap g) := by
  induction items with
  | nil => rfl
  | cons item rest ih =>
    have hitem := h item List.mem_cons_self
    have hrest := ih (fun other hmem => h other (List.mem_cons_of_mem _ hmem))
    cases hg : g item with
    | some v =>
      rw [hg] at hitem
      rw [mapPresent, hitem, hrest, List.filterMap_cons_some hg]
      rfl
    | none =>
      rw [hg] at hitem
      obtain ⟨name, hname⟩ := hitem
      rw [mapPresent, hname, hrest, List.filterMap_cons_none hg]

/-- The map of a look-up over the documents that another one finds. -/
theorem evaluate_mapItems [PatternLibrary] {hop : Lookup} {source body : Expr}
    {found : Option (List Value)} (hbody : hop.compileOne .element primaryKey = .ok body)
    (htable : tables.hasKey hop.child = true)
    (hsource : Finds (found.map .array) (source.evaluate tables ⟨row, none⟩))
    (hfound : ∀ items, found = some items → ∀ item ∈ items, item.isObject = true) :
    Finds (found.map (fun items => .array (items.filterMap (hop.one tables primaryKey))))
      ((Expr.mapItems source body).evaluate tables ⟨row, none⟩) := by
  rw [Expr.evaluate]
  cases found with
  | none =>
    obtain ⟨name, hname⟩ := hsource
    rw [hname]
    exact ⟨name, rfl⟩
  | some items =>
    have hitems : ∀ item ∈ items, Finds (hop.one tables primaryKey item)
        (body.evaluate tables ⟨row, some item⟩) := by
      intro item hmem
      exact Lookup.evaluate_compileOne hbody htable rfl (hfound items rfl item hmem)
    have hsource' : source.evaluate tables ⟨row, none⟩ = .ok (.array items) := hsource
    have hmap := mapPresent_eq_filterMap hitems
    simp only [hsource', ok_bind, hmap]
    rfl

section

variable [PatternLibrary]

/-- What is not found is replaced in a merged field by the value for absence. -/
theorem MergeField.evaluate_of_finds {field : MergeField} {found : Option Value}
    (h : Finds found (field.value.evaluate tables ⟨row, none⟩)) :
    field.evaluate tables row = .ok (found.getD field.value.absentValue) := by
  unfold MergeField.evaluate
  cases found with
  | some v =>
    rw [show field.value.evaluate tables ⟨row, none⟩ = .ok v from h]
    rfl
  | none =>
    obtain ⟨name, hname⟩ := h
    rw [hname]
    rfl

/-- A compiled join plan gives the value that is to be attached. -/
theorem JoinPlan.evaluate_compile {plan : JoinPlan} {expr : Expr} (name : String)
    (hcompile : plan.compile primaryKey = .ok expr)
    (htables : ∀ join ∈ plan.joins, tables.hasKey join.lookup.child = true)
    (hrow : row.isObject = true) :
    MergeField.evaluate ⟨name, expr⟩ tables row =
      .ok (plan.attached tables primaryKey row) := by
  cases plan with
  | belongsTo lookup =>
    have htable := htables _ (List.mem_singleton.mpr rfl)
    have hfinds : Finds (lookup.one tables primaryKey row) (expr.evaluate tables ⟨row, none⟩) :=
      Lookup.evaluate_compileOne hcompile htable rfl hrow
    rw [MergeField.evaluate_of_finds hfinds, Lookup.absentValue_compileOne hcompile]
    rfl
  | hasMany lookup =>
    have htable := htables _ (List.mem_singleton.mpr rfl)
    have hfinds := Lookup.evaluate_compileMany hcompile htable hrow
    rw [MergeField.evaluate_of_finds hfinds, Lookup.absentValue_compileMany hcompile, attached]
    cases lookup.many tables primaryKey row <;> rfl
  | manyToMany through hop =>
    obtain ⟨source, hsource, hcompile⟩ := bind_eq_ok.mp hcompile
    obtain ⟨body, hbody, hcompile⟩ := bind_eq_ok.mp hcompile
    obtain rfl := Except.ok.inj hcompile
    have hthrough := htables (.hasMany through) List.mem_cons_self
    have hhop := htables (.junctionHop hop) (List.mem_cons_of_mem _ List.mem_cons_self)
    have hfinds := Lookup.evaluate_compileMany hsource hthrough hrow
    have hmap := evaluate_mapItems hbody hhop hfinds (fun found hmany document hmem =>
      Lookup.isObject_of_mem_many hmany hmem)
    rw [MergeField.evaluate_of_finds hmap, attached]
    cases through.many tables primaryKey row <;> rfl

end

/-! ## Lists of joins -/

/-- Pairing hops with the joins before them loses no join. -/
theorem JoinPlan.flatMap_joins_of_ofJoins {position : Nat} {joins : List Join}
    {plans : List JoinPlan} (h : ofJoins position joins = .ok plans) :
    plans.flatMap JoinPlan.joins = joins := by
  fun_induction ofJoins position joins generalizing plans with
  | case1 =>
    obtain rfl := Except.ok.inj h
    rfl
  | case2 position lookup rest ih =>
    obtain ⟨later, hlater, rfl⟩ := map_eq_ok.mp h
    rw [List.flatMap_cons, ih hlater]
    rfl
  | case3 position through hop rest hsame ih =>
    obtain ⟨later, hlater, rfl⟩ := map_eq_ok.mp h
    rw [List.flatMap_cons, ih hlater]
    rfl
  | case4 => cases h
  | case5 position lookup rest hnext ih =>
    obtain ⟨later, hlater, rfl⟩ := map_eq_ok.mp h
    rw [List.flatMap_cons, ih hlater]
    rfl
  | case6 => cases h

section

variable [PatternLibrary]

/-- The fields to merge, one by one, have these values for the row. -/
def FieldsGive (tables : Tables) (row : Value) (fields : Assoc Expr) (values : Assoc Value) :
    Prop :=
  List.Forall₂ (fun field entry => field.1 = entry.1 ∧
    ∀ name, MergeField.evaluate ⟨name, field.2⟩ tables row = .ok entry.2) fields values

theorem FieldsGive.insert {fields : Assoc Expr} {values : Assoc Value} {expr : Expr} {value : Value}
    (h : FieldsGive tables row fields values) (attachAs : String)
    (hvalue : ∀ name, MergeField.evaluate ⟨name, expr⟩ tables row = .ok value) :
    FieldsGive tables row (fields.insert attachAs expr) (values.insert attachAs value) :=
  Assoc.forall₂_insert
    (fun expr value => ∀ name, MergeField.evaluate ⟨name, expr⟩ tables row = .ok value) h hvalue

/-- A join plan writes its value where its field is written. -/
theorem FieldsGive.compileJoinPlans {plans : List JoinPlan} {fields compiled : Assoc Expr}
    {values : Assoc Value} (h : FieldsGive tables row fields values)
    (hcompile : compileJoinPlans primaryKey fields plans = .ok compiled)
    (htables : ∀ join ∈ plans.flatMap JoinPlan.joins, tables.hasKey join.lookup.child = true)
    (hrow : row.isObject = true) :
    FieldsGive tables row compiled (Assoc.insertAll values
      (plans.map (fun plan => (plan.attachAs, plan.attached tables primaryKey row)))) := by
  induction plans generalizing fields values with
  | nil =>
    obtain rfl := Except.ok.inj hcompile
    exact h
  | cons plan rest ih =>
    -- the value does not depend on the fields written so far, so an earlier one may be replaced
    obtain ⟨expr, hexpr, hcompile⟩ := bind_eq_ok.mp hcompile
    rw [List.flatMap_cons] at htables
    have hvalue := fun name => JoinPlan.evaluate_compile name hexpr
      (fun join hmem => htables join (List.mem_append_left _ hmem)) hrow
    exact ih (h.insert plan.attachAs hvalue) hcompile
      (fun join hmem => htables join (List.mem_append_right _ hmem))

theorem FieldsGive.evaluateFields {fields : Assoc Expr} {values : Assoc Value}
    (h : FieldsGive tables row fields values) :
    evaluateFields tables row (fields.map (fun (name, value) => ⟨name, value⟩)) = .ok values := by
  induction h with
  | nil => rfl
  | @cons field entry fields values hfirst hrest ih =>
    obtain ⟨name, expr⟩ := field
    obtain ⟨name', value⟩ := entry
    obtain ⟨hname, hvalue⟩ := hfirst
    obtain rfl : name = name' := hname
    rw [List.map_cons, DocQuery.evaluateFields, hvalue, ok_bind, ih]
    rfl

/-- The step for the joins writes the values of their plans into a row. -/
theorem mergeRow_compileJoins {joins : List Join} {fields : List MergeField}
    (h : compileJoins primaryKey joins = .ok fields) :
    ∃ plans, JoinPlan.ofList joins = .ok plans ∧
      ∀ tables : Tables, (∀ join ∈ joins, tables.hasKey join.lookup.child = true) →
        ∀ row : Value, row.isObject = true →
          mergeRow tables fields row = .ok (attachJoins tables primaryKey plans row) := by
  obtain ⟨plans, hplans, h⟩ := bind_eq_ok.mp h
  obtain ⟨compiled, hcompiled, h⟩ := bind_eq_ok.mp h
  obtain rfl := Except.ok.inj h
  refine ⟨plans, hplans, ?_⟩
  intro tables htables row hrow
  rw [← JoinPlan.flatMap_joins_of_ofJoins hplans] at htables
  have hgive := FieldsGive.compileJoinPlans List.Forall₂.nil hcompiled htables hrow
  rw [mergeRow, hgive.evaluateFields, ok_bind]
  cases row with
  | object own =>
    -- the step merges the values among themselves before it writes them into the row
    have hmerged := Assoc.insertAll_ofList own (plans.map (fun plan =>
      (plan.attachAs, plan.attached tables primaryKey (.object own))))
    rw [attachJoins, ← hmerged]
    rfl
  | _ => cases hrow

end

/-! ## Main statement -/

/-- What joins make of the fields `own` of a row. -/
structure Attaches (tables : Tables) (primaryKey : String) (plans : List JoinPlan)
    (own merged : Assoc Value) : Prop where
  /-- The last plan with an alias says what is attached under it, for the row as it was. -/
  last : ∀ name plan, (plans.filter (fun plan => plan.attachAs = name)).getLast? = some plan →
    merged.lookup name = some (plan.attached tables primaryKey (.object own))
  /-- A field that is no alias keeps its value. -/
  kept : ∀ name, (∀ plan ∈ plans, plan.attachAs ≠ name) → merged.lookup name = own.lookup name
  /-- Fields keep their places; aliases that are new follow, each where it is first used. -/
  places : merged.keys =
    own.keys ++ ((plans.map JoinPlan.attachAs).filter (· ∉ own.keys)).eraseDups

theorem attaches_attachJoins (tables : Tables) (primaryKey : String) (plans : List JoinPlan)
    (own : Assoc Value) :
    Attaches tables primaryKey plans own (Assoc.insertAll own (plans.map (fun plan =>
      (plan.attachAs, plan.attached tables primaryKey (.object own))))) := by
  refine ⟨?_, ?_, ?_⟩
  · intro name plan hlast
    rw [Assoc.lookup_insertAll, List.filter_map, List.getLast?_map]
    simp only [Function.comp_def, hlast]
    rfl
  · intro name hne
    rw [Assoc.lookup_insertAll, List.filter_map]
    have hnone : plans.filter (fun plan => plan.attachAs = name) = [] := by
      rw [List.filter_eq_nil_iff]
      intro plan hmem
      simpa using hne plan hmem
    simp only [Function.comp_def, hnone]
    rfl
  · rw [Assoc.keys_insertAll, List.map_map]
    rfl

/-- Where the joins of a list have a step, and the tables they look in are there, the step gives
    every object of its input, in order, with the values of the joins attached. -/
theorem merge_attaches [PatternLibrary] {primaryKey : String} {joins : List Join}
    {fields : List MergeField} (hcompile : compileJoins primaryKey joins = .ok fields)
    {tables : Tables}
    (htables : ∀ join ∈ joins, tables.hasKey join.lookup.child = true) {input : Plan}
    {rows : List Value} (hinput : input.run tables = .ok rows)
    (hrows : ∀ row ∈ rows, row.isObject = true) :
    ∃ plans merged, JoinPlan.ofList joins = .ok plans ∧
      (Plan.merge input fields).run tables = .ok merged ∧
      List.Forall₂ (fun row result => ∃ own attached, row = .object own ∧
        result = .object attached ∧ Attaches tables primaryKey plans own attached) rows merged := by
  obtain ⟨plans, hplans, hmerge⟩ := mergeRow_compileJoins hcompile
  have hrun : mergeRows tables fields rows =
      .ok (rows.map (attachJoins tables primaryKey plans)) :=
    mergeRows_eq_map (fun row hrow => hmerge tables htables row (hrows row hrow))
  refine ⟨plans, rows.map (attachJoins tables primaryKey plans), hplans, ?_, ?_⟩
  · rw [Plan.run, hinput, ok_bind, hrun, mapError_ok]
  · rw [List.forall₂_map_right_iff, List.forall₂_same]
    intro row hrow
    cases row with
    | object own => exact ⟨own, _, rfl, rfl, attaches_attachJoins tables primaryKey plans own⟩
    | _ => cases hrows _ hrow

/-- Two joins have one alias, which is also the field that both refer by: the second one counts, and
    it does not see what the first one attaches. -/
theorem merge_attaches_repeated_alias :
    let joins : List Join := [.belongsTo ⟨"author", "people", none, some "author"⟩,
      .hasMany ⟨"author", "posts", some "author", some "author"⟩]
    let post : Value := .object [("author", .string "ann")]
    let tables : Tables := [("people", []), ("posts", [post])]
    let fields : List MergeField := [⟨"author", .getAll "posts" "author" (.row "author")⟩]
    (∀ join ∈ joins, tables.hasKey join.lookup.child = true) ∧
      compileJoins "id" joins = .ok fields ∧ post.isObject = true ∧
      ∃ result, (Plan.merge (.table "posts") fields).run tables = .ok [result] ∧
        result.field? "author" = some (.array [post]) := by
  intro joins post tables fields
  have htables : ∀ join ∈ joins, tables.hasKey join.lookup.child = true := by decide
  have hcompile : compileJoins "id" joins = .ok fields := rfl
  have hrows : ∀ row ∈ [post], row.isObject = true := by
    intro row hrow
    rw [List.mem_singleton.mp hrow]
    rfl
  obtain ⟨plans, merged, hplans, hrun, hattached⟩ :=
    @merge_attaches _ "id" joins fields hcompile tables htables (.table "posts") [post] rfl hrows
  obtain rfl := Except.ok.inj hplans
  cases hattached with
  | cons hfirst hrest =>
    cases hrest with
    | nil =>
      obtain ⟨own, attached, hown, rfl, hattaches⟩ := hfirst
      obtain rfl := Value.object.inj hown
      exact ⟨htables, hcompile, rfl, _, hrun, hattaches.last "author" _ rfl⟩

end DocQuery
