import DocQuery.Proofs.Stages

set_option autoImplicit false

/-! # Which tables are read

What a plan gives depends on the tables that it names and on no others (`Plan.run_congr`): on the
one that it starts at and on those in which its expressions look documents up, whether these are
reached for a row or not. Clauses look nothing up, so that the plan of a descriptor without joins
reads one table (`Plan.tables_compile`). -/

namespace DocQuery

/-! ## The tables that are named -/

namespace Expr

mutual

/-- The tables in which an expression looks documents up. -/
def tables : Expr → List String
  | .datum _ => []
  | .field _ _ => []
  | .compare _ left right => left.tables ++ right.tables
  | .and args => tablesOfAll args
  | .or args => tablesOfAll args
  | .not arg => arg.tables
  | .contains collection _ => collection.tables
  | .oneOf value _ => value.tables
  | .matchText subject _ => subject.tables
  | .get table _ key => table :: key.tables
  | .getAll table _ key => table :: key.tables
  | .mapItems source body => source.tables ++ body.tables

/-- The tables in which expressions look documents up. -/
def tablesOfAll : List Expr → List String
  | [] => []
  | arg :: rest => arg.tables ++ tablesOfAll rest

end

end Expr

/-- The tables that a plan names. -/
def Plan.tables : Plan → List String
  | .table name => [name]
  | .get input _ _ => input.tables
  | .filter input predicate => input.tables ++ predicate.tables
  | .orderBy input _ => input.tables
  | .skip input _ => input.tables
  | .limit input _ => input.tables
  | .merge input fields => input.tables ++ fields.flatMap (·.value.tables)

/-- Each of the names stands for the same rows on both sides, or for no table on both. -/
def AgreeOn (names : List String) (left right : Tables) : Prop :=
  ∀ name ∈ names, left.lookup name = right.lookup name

section Agreement

variable {left right : Tables} {name : String} {names names' : List String}

@[simp] theorem agreeOn_nil : AgreeOn [] left right := by simp [AgreeOn]

@[simp] theorem agreeOn_cons : AgreeOn (name :: names) left right ↔
    left.lookup name = right.lookup name ∧ AgreeOn names left right :=
  List.forall_mem_cons

@[simp] theorem agreeOn_append : AgreeOn (names ++ names') left right ↔
    AgreeOn names left right ∧ AgreeOn names' left right :=
  List.forall_mem_append

end Agreement

/-! ## Evaluation on tables that agree -/

section Congruence

variable {left right : Tables}

theorem lookupRows_congr {table : String} (h : left.lookup table = right.lookup table)
    (index : String) (key : Value) :
    lookupRows left table index key = lookupRows right table index key := by
  rw [lookupRows, lookupRows, h]

variable [PatternLibrary]

namespace Expr

mutual

/-- The value of an expression depends on the tables that it names. -/
theorem evaluate_congr (expr : Expr) (h : AgreeOn expr.tables left right) (scope : Scope) :
    expr.evaluate left scope = expr.evaluate right scope := by
  match expr, h with
  | .datum value, _ => rfl
  | .field binding name, _ => rfl
  | .compare comparison first second, h =>
    obtain ⟨hfirst, hsecond⟩ := agreeOn_append.mp h
    rw [evaluate, evaluate, evaluate_congr first hfirst, evaluate_congr second hsecond]
  | .and args, h => rw [evaluate, evaluate, everyHolds_congr args h]
  | .or args, h => rw [evaluate, evaluate, someHolds_congr args h]
  | .not arg, h => rw [evaluate, evaluate, evaluate_congr arg h]
  | .contains collection values, h => rw [evaluate, evaluate, evaluate_congr collection h]
  | .oneOf value list, h => rw [evaluate, evaluate, evaluate_congr value h]
  | .matchText subject pattern, h => rw [evaluate, evaluate, evaluate_congr subject h]
  | .get table index key, h =>
    obtain ⟨htable, hkey⟩ := agreeOn_cons.mp h
    simp only [evaluate, evaluate_congr key hkey, lookupRows_congr htable]
  | .getAll table index key, h =>
    obtain ⟨htable, hkey⟩ := agreeOn_cons.mp h
    simp only [evaluate, evaluate_congr key hkey, lookupRows_congr htable]
  | .mapItems source body, h =>
    obtain ⟨hsource, hbody⟩ := agreeOn_append.mp h
    simp only [evaluate, evaluate_congr source hsource, evaluate_congr body hbody]

theorem everyHolds_congr (args : List Expr) (h : AgreeOn (tablesOfAll args) left right)
    (scope : Scope) : everyHolds left args scope = everyHolds right args scope := by
  match args, h with
  | [], _ => rfl
  | arg :: rest, h =>
    obtain ⟨harg, hrest⟩ := agreeOn_append.mp h
    rw [everyHolds, everyHolds, evaluate_congr arg harg, everyHolds_congr rest hrest]

theorem someHolds_congr (args : List Expr) (h : AgreeOn (tablesOfAll args) left right)
    (scope : Scope) : someHolds left args scope = someHolds right args scope := by
  match args, h with
  | [], _ => rfl
  | arg :: rest, h =>
    obtain ⟨harg, hrest⟩ := agreeOn_append.mp h
    rw [someHolds, someHolds, evaluate_congr arg harg, someHolds_congr rest hrest]

end

end Expr

/-! ## Running plans on tables that agree -/

theorem filterRows_congr {predicate : Expr} (h : AgreeOn predicate.tables left right)
    (rows : List Value) : filterRows left predicate rows = filterRows right predicate rows := by
  induction rows with
  | nil => rfl
  | cons row rest ih =>
    rw [filterRows, filterRows, ih, Expr.accepts, Expr.accepts, predicate.evaluate_congr h]

theorem evaluateFields_congr {fields : List MergeField}
    (h : AgreeOn (fields.flatMap (·.value.tables)) left right) (row : Value) :
    evaluateFields left row fields = evaluateFields right row fields := by
  induction fields with
  | nil => rfl
  | cons field rest ih =>
    obtain ⟨hfield, hrest⟩ := agreeOn_append.mp h
    rw [evaluateFields, evaluateFields, ih hrest, MergeField.evaluate, MergeField.evaluate,
      field.value.evaluate_congr hfield]

theorem mergeRows_congr {fields : List MergeField}
    (h : AgreeOn (fields.flatMap (·.value.tables)) left right) (rows : List Value) :
    mergeRows left fields rows = mergeRows right fields rows := by
  induction rows with
  | nil => rfl
  | cons row rest ih =>
    rw [mergeRows, mergeRows, ih, mergeRow, mergeRow, evaluateFields_congr h]

namespace Plan

/-- What a plan gives, rows or an error, depends on the tables that it names. -/
theorem run_congr {plan : Plan} (h : AgreeOn plan.tables left right) :
    plan.run left = plan.run right := by
  induction plan with
  | table name => rw [run, run, (agreeOn_cons.mp h).1]
  | get input index key ih => rw [run, run, ih h]
  | filter input predicate ih =>
    obtain ⟨hinput, hpredicate⟩ := agreeOn_append.mp h
    simp only [run, ih hinput, filterRows_congr hpredicate]
  | orderBy input keys ih => rw [run, run, ih h]
  | skip input count ih => rw [run, run, ih h]
  | limit input count ih => rw [run, run, ih h]
  | merge input fields ih =>
    obtain ⟨hinput, hfields⟩ := agreeOn_append.mp h
    simp only [run, ih hinput, mergeRows_congr hfields]

end Plan

end Congruence

/-! ## Clauses look nothing up -/

namespace Expr

theorem tables_conjunction (args : List Expr) : (conjunction args).tables = tablesOfAll args := by
  match args with
  | [] => rfl
  | [arg] => exact (List.append_nil arg.tables).symm
  | _ :: _ :: _ => rfl

theorem tables_disjunction (args : List Expr) : (disjunction args).tables = tablesOfAll args := by
  match args with
  | [] => rfl
  | [arg] => exact (List.append_nil arg.tables).symm
  | _ :: _ :: _ => rfl

end Expr

theorem Condition.tables_compile (subject : Expr) (condition : Condition) :
    (condition.compile subject).tables = subject.tables := by
  cases condition with
  | oneOf values => rfl
  | noneOf values => rfl
  | contains values => rfl
  | like wildcards => rfl
  | startsWith beginning => rfl
  | endsWith ending => rfl
  -- the comparisons: a constant on the right names no table
  | _ => exact List.append_nil subject.tables

mutual

theorem Entry.tables_compile (binding : Binding) (entry : Entry) :
    (entry.compile binding).tables = [] := by
  match entry with
  | .field name condition => exact condition.tables_compile (.field binding name)
  | .anyOf clauses =>
    rw [Entry.compile, Expr.tables_disjunction, tables_compileClauses binding clauses]
  | .allOf clauses =>
    rw [Entry.compile, Expr.tables_conjunction, tables_compileClauses binding clauses]

theorem tables_compileEntries (binding : Binding) (entries : List Entry) :
    Expr.tablesOfAll (compileEntries binding entries) = [] := by
  match entries with
  | [] => rfl
  | entry :: rest =>
    rw [compileEntries, Expr.tablesOfAll, Entry.tables_compile binding entry,
      tables_compileEntries binding rest, List.append_nil]

theorem tables_compileClauses (binding : Binding) (clauses : List (List Entry)) :
    Expr.tablesOfAll (compileClauses binding clauses) = [] := by
  match clauses with
  | [] => rfl
  | clause :: rest =>
    rw [compileClauses, Expr.tablesOfAll, Expr.tables_conjunction,
      tables_compileEntries binding clause, tables_compileClauses binding rest, List.append_nil]

end

theorem Clause.tables_compile (binding : Binding) (clause : Clause) :
    (clause.compile binding).tables = [] := by
  rw [Clause.compile, Expr.tables_conjunction, tables_compileEntries]

/-! ## Descriptors without joins -/

/-- The descriptor joins nothing. -/
def Descriptor.JoinsNothing (d : Descriptor) : Prop :=
  d.joins = none ∨ d.joins = some []

theorem Descriptor.joinsNothing_withoutJoins (d : Descriptor) : d.withoutJoins.JoinsNothing :=
  Or.inl rfl

theorem Descriptor.JoinsNothing.mergeFields_eq {d : Descriptor} (h : d.JoinsNothing)
    (primaryKey : String) : d.mergeFields primaryKey = .ok [] := by
  unfold mergeFields
  rcases h with h | h
  · rw [h]
  · rw [h]
    rfl

namespace Plan

variable (input : Plan)

theorem tables_compileFilter (options : PlanOptions) (clause : Clause) :
    (compileFilter options input clause).tables = input.tables := by
  unfold compileFilter
  split
  · rfl
  · rw [tables, Clause.tables_compile, List.append_nil]

theorem tables_compileSort (sort : SortSpec) : (compileSort input sort).tables = input.tables := by
  unfold compileSort
  split <;> rfl

theorem tables_compileSkip (count : UInt64) : (compileSkip input count).tables = input.tables := by
  unfold compileSkip
  split <;> rfl

theorem tables_compileLimit (count : UInt64) :
    (compileLimit input count).tables = input.tables := by
  unfold compileLimit
  split <;> rfl

theorem tables_withPart {α : Type} {step : Plan → α → Plan}
    (h : ∀ base a, (step base a).tables = base.tables) (part : Option α) :
    (withPart part step input).tables = input.tables := by
  unfold withPart
  split
  · rfl
  · exact h input _

/-- A plan names the tables of its input and those in which the fields of its joins are looked
    up. -/
theorem tables_compile_eq {options : PlanOptions} {input plan : Plan} {d : Descriptor}
    {fields : List MergeField} (hfields : d.mergeFields options.primaryKey = .ok fields)
    (hplan : compile options input d = .ok plan) :
    plan.tables = input.tables ++ fields.flatMap (·.value.tables) := by
  have hskipped : (withPart d.skip compileSkip (withPart d.sort compileSort
      (filtered options input d))).tables = input.tables := by
    rw [tables_withPart _ tables_compileSkip, tables_withPart _ tables_compileSort, filtered,
      tables_withPart _ (fun base => tables_compileFilter base options)]
  rw [compile_eq_map_mergeFields, hfields] at hplan
  obtain rfl := Except.ok.inj hplan
  rw [tables_withPart _ tables_compileLimit]
  split
  · next hempty => rw [hskipped, List.isEmpty_iff.mp hempty, List.flatMap_nil, List.append_nil]
  · rw [tables, hskipped]

/-- A plan without joins names no table besides those of its input. -/
theorem tables_compile {options : PlanOptions} {input plan : Plan} {d : Descriptor}
    (hjoins : d.JoinsNothing) (hplan : compile options input d = .ok plan) :
    plan.tables = input.tables := by
  rw [tables_compile_eq (hjoins.mergeFields_eq _) hplan, List.flatMap_nil, List.append_nil]

end Plan

end DocQuery
