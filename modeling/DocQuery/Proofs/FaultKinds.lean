import DocQuery.Proofs.Stages
import DocQuery.Proofs.WrittenGrammar

set_option autoImplicit false

/-! # Faults of descriptors and faults of runs

The nine errors of a query fall into two kinds. Reading and compiling a descriptor only ever fail
with an error of the one kind, and running a plan only with one of the other; and of the latter kind
a missing field is never the error of a run, though it is one of the errors of an expression
(`evaluate_fault`). It is absorbed wherever the value of an expression meets a row: by a predicate,
by the arguments of a connective, by the items of a map and by a merged field. -/

namespace DocQuery

/-- A table is not there, a value does not fit the step it met, or an expression cannot be
    evaluated. -/
def QueryError.IsRunFault (e : QueryError) : Prop :=
  (∃ table, e = .tableNotFound table) ∨ (∃ fault, e = .typeError fault) ∨
    ∃ fault, e = .execution fault

/-- The error of an expression: a field is missing, or what may go wrong with a run. -/
def QueryError.IsEvaluationFault (e : QueryError) : Prop :=
  (∃ field, e = .nonExistence field) ∨ e.IsRunFault

/-- No error is of both kinds. -/
theorem QueryError.IsRunFault.isCompileError_eq_false {e : QueryError} (h : e.IsRunFault) :
    e.isCompileError = false := by
  rcases h with ⟨table, rfl⟩ | ⟨fault, rfl⟩ | ⟨fault, rfl⟩ <;> rfl

/-! ## Reading a descriptor -/

/-- The result is a value, or the descriptor is at fault. -/
abbrev BlamesDescriptor {α : Type} (result : Except QueryError α) : Prop :=
  Yields (fun _ => True) (fun e => e.isCompileError = true) result

theorem Clause.blames_filterOfValue (written : Value) :
    BlamesDescriptor (filterOfValue written) := by
  refine (yields_filterOfValue written).mono (fun _ _ => trivial) (fun e he => ?_)
  cases he.2 <;> rfl

theorem SortSpec.blames_termOfChars (term : List Char) : BlamesDescriptor (termOfChars term) := by
  unfold termOfChars
  split
  · exact trivial
  · exact trivial
  · split
    · rfl
    · split
      · exact trivial
      · rfl

/-- A step that is taken for each member of a list. -/
theorem BlamesDescriptor.mapM {α β : Type} {f : α → Except QueryError β} {list : List α}
    (h : ∀ a, BlamesDescriptor (f a)) : BlamesDescriptor (list.mapM f) := by
  induction list with
  | nil => exact trivial
  | cons a rest ih =>
    rw [List.mapM_cons]
    exact (h a).bind (fun _ _ => ih.bind (fun _ _ => trivial))

theorem BlamesDescriptor.foldlM {α β : Type} {f : β → α → Except QueryError β} {list : List α}
    (h : ∀ b a, BlamesDescriptor (f b a)) (b : β) : BlamesDescriptor (list.foldlM f b) := by
  induction list generalizing b with
  | nil => exact trivial
  | cons a rest ih =>
    rw [List.foldlM_cons]
    exact (h b a).bind (fun b' _ => ih b')

theorem SortSpec.blames_ofValue (written : Value) : BlamesDescriptor (ofValue written) := by
  cases written with
  | null => exact trivial
  | object fields => exact trivial
  | string text => exact (BlamesDescriptor.mapM blames_termOfChars).bind (fun _ _ => trivial)
  | _ => rfl

theorem Count.blames_ofValue (key : String) (written : Value) :
    BlamesDescriptor (ofValue key written) := by
  unfold ofValue
  dsimp only
  split
  · exact trivial
  · exact trivial
  · rfl

/-- Every fault of a list of joins is one of the descriptor. -/
theorem blames_mapError_invalidJoinSequence {α : Type} (result : Except JoinFault α) :
    BlamesDescriptor (result.mapError .invalidJoinSequence) := by
  cases result with
  | ok a => exact trivial
  | error fault => rfl

theorem blames_joinsOfValue (written : Value) : BlamesDescriptor (joinsOfValue written) := by
  cases written with
  | null => exact trivial
  | array items => exact blames_mapError_invalidJoinSequence _
  | _ => rfl

namespace Descriptor

theorem blames_setKey (d : Descriptor) (key : String) (value : Value) :
    BlamesDescriptor (d.setKey key value) := by
  unfold setKey
  split_ifs
  · exact (Clause.blames_filterOfValue value).map (fun _ _ => trivial)
  · exact (SortSpec.blames_ofValue value).map (fun _ _ => trivial)
  · exact (Count.blames_ofValue key value).map (fun _ _ => trivial)
  · exact (Count.blames_ofValue key value).map (fun _ _ => trivial)
  · exact (blames_joinsOfValue value).map (fun _ _ => trivial)
  · exact trivial

theorem blames_ofValue (written : Value) : BlamesDescriptor (ofValue written) := by
  cases written with
  | null => exact trivial
  | object fields =>
    exact BlamesDescriptor.foldlM (fun d field => d.blames_setKey field.1 field.2) _
  | _ => rfl

theorem blames_ofText (text : String) : BlamesDescriptor (ofText text) := by
  unfold ofText
  split
  · exact blames_ofValue _
  · rfl

end Descriptor

theorem Plan.blames_compile (options : PlanOptions) (input : Plan) (d : Descriptor) :
    BlamesDescriptor (compile options input d) := by
  rw [compile_eq_map_mergeFields]
  refine Yields.map (p := fun _ => True) ?_ (fun _ _ => trivial)
  unfold Descriptor.mergeFields
  split
  · exact trivial
  · exact blames_mapError_invalidJoinSequence _

/-! ## Evaluating an expression -/

variable {tables : Tables}

/-- The result is a value, or an error that an expression may have. -/
abbrev Evaluates (result : Except QueryError Value) : Prop :=
  Yields (fun _ => True) QueryError.IsEvaluationFault result

/-- The result is a value, or an error that a run may have. -/
abbrev Runs {α : Type} (result : Except QueryError α) : Prop :=
  Yields (fun _ => True) QueryError.IsRunFault result

theorem readField_fault (name : String) (target : Value) : Evaluates (readField name target) := by
  cases target with
  | object fields =>
    rw [readField]
    split
    · exact trivial
    · exact Or.inl ⟨name, rfl⟩
  | null => exact Or.inl ⟨name, rfl⟩
  | _ => exact Or.inr (Or.inr (Or.inl ⟨_, rfl⟩))

theorem Scope.resolve_fault (scope : Scope) (binding : Binding) :
    Evaluates (scope.resolve binding) := by
  cases binding with
  | row => exact trivial
  | element =>
    rw [resolve]
    split
    · exact trivial
    · exact Or.inr (Or.inr (Or.inr ⟨_, rfl⟩))

theorem patternHolds_fault [PatternLibrary] (pattern : String) (subject : Value) :
    Evaluates (patternHolds pattern subject) := by
  unfold patternHolds
  split
  · exact Or.inr (Or.inr (Or.inr ⟨_, rfl⟩))
  · split <;> exact trivial

theorem lookupRows_fault (table index : String) (key : Value) :
    Runs (lookupRows tables table index key) := by
  unfold lookupRows
  split
  · exact Or.inl ⟨_, rfl⟩
  · exact trivial

/-- Where a truth value is asked for, a missing field is no fault. -/
theorem holdsIfPresent_fault {result : Except QueryError Value} (h : Evaluates result) :
    Runs (holdsIfPresent result) := by
  unfold holdsIfPresent
  split
  · exact trivial
  · exact trivial
  · next e hmissing =>
    rcases h with ⟨name, rfl⟩ | hrun
    · exact absurd rfl (hmissing name)
    · exact hrun

/-- An item that lacks a field is no fault of a map. -/
theorem mapPresent_fault {f : Value → Except QueryError Value} {items : List Value}
    (h : ∀ item, Evaluates (f item)) : Runs (mapPresent f items) := by
  induction items with
  | nil => exact trivial
  | cons item rest ih =>
    have hitem := h item
    rw [mapPresent]
    split
    · exact ih.map (fun _ _ => trivial)
    · exact ih
    · next e hmissing he =>
      rcases hitem.of_eq_error he with ⟨name, rfl⟩ | hrun
      · exact absurd rfl (hmissing name)
      · exact hrun

section

variable [PatternLibrary]

mutual

/-- An expression of any shape, on any row, has a value, or a field is missing, or it has an error
    that a run may have. -/
theorem evaluate_fault (expr : Expr) (scope : Scope) : Evaluates (expr.evaluate tables scope) := by
  match expr with
  | .datum value => exact trivial
  | .field binding name =>
    rw [Expr.evaluate]
    exact (scope.resolve_fault binding).bind (fun target _ => readField_fault name target)
  | .compare comparison left right =>
    rw [Expr.evaluate]
    exact (evaluate_fault left scope).bind (fun _ _ =>
      (evaluate_fault right scope).bind (fun _ _ => trivial))
  | .and args =>
    rw [Expr.evaluate]
    exact ((everyHolds_fault args scope).mono_fault (fun _ => Or.inr)).map (fun _ _ => trivial)
  | .or args =>
    rw [Expr.evaluate]
    exact ((someHolds_fault args scope).mono_fault (fun _ => Or.inr)).map (fun _ _ => trivial)
  | .not arg =>
    rw [Expr.evaluate]
    exact (evaluate_fault arg scope).bind (fun _ _ => trivial)
  | .contains collection values =>
    rw [Expr.evaluate]
    exact (evaluate_fault collection scope).bind (fun _ _ => trivial)
  | .oneOf value list =>
    rw [Expr.evaluate]
    exact (evaluate_fault value scope).bind (fun _ _ => trivial)
  | .matchText subject pattern =>
    rw [Expr.evaluate]
    exact (evaluate_fault subject scope).bind (fun v _ => patternHolds_fault pattern v)
  | .get table index key =>
    rw [Expr.evaluate]
    refine (evaluate_fault key scope).bind (fun k _ => Yields.mono_fault ?_ (fun _ => Or.inr))
    exact (lookupRows_fault table index k).bind (fun _ _ => trivial)
  | .getAll table index key =>
    rw [Expr.evaluate]
    refine (evaluate_fault key scope).bind (fun k _ => Yields.mono_fault ?_ (fun _ => Or.inr))
    exact (lookupRows_fault table index k).bind (fun _ _ => trivial)
  | .mapItems source body =>
    rw [Expr.evaluate]
    refine (evaluate_fault source scope).bind (fun v _ => ?_)
    split
    · refine Yields.mono_fault ?_ (fun _ => Or.inr)
      have hbody := fun item => evaluate_fault body ⟨scope.row, some item⟩
      exact (mapPresent_fault hbody).bind (fun _ _ => trivial)
    · exact Or.inr (Or.inr (Or.inl ⟨_, rfl⟩))

theorem everyHolds_fault (args : List Expr) (scope : Scope) :
    Runs (Expr.everyHolds tables args scope) := by
  match args with
  | [] => exact trivial
  | arg :: rest =>
    rw [Expr.everyHolds]
    refine (holdsIfPresent_fault (evaluate_fault arg scope)).bind (fun holds _ => ?_)
    split
    · exact everyHolds_fault rest scope
    · exact trivial

theorem someHolds_fault (args : List Expr) (scope : Scope) :
    Runs (Expr.someHolds tables args scope) := by
  match args with
  | [] => exact trivial
  | arg :: rest =>
    rw [Expr.someHolds]
    refine (holdsIfPresent_fault (evaluate_fault arg scope)).bind (fun holds _ => ?_)
    split
    · exact trivial
    · exact someHolds_fault rest scope

end

end

/-! ## Running a plan -/

/-- If it is an error of a query, it is one that a run may have. -/
def RunError.IsRunFault : RunError → Prop
  | .query e => e.IsRunFault
  | .disorder => True

theorem runs_mapError_query {α : Type} {result : Except QueryError α} (h : Runs result) :
    Yields (fun _ => True) RunError.IsRunFault (result.mapError .query) := by
  cases result with
  | ok a => exact trivial
  | error e => exact h

section

variable [PatternLibrary]

theorem filterRows_fault (predicate : Expr) (rows : List Value) :
    Runs (filterRows tables predicate rows) := by
  induction rows with
  | nil => exact trivial
  | cons row rest ih =>
    rw [filterRows]
    exact (holdsIfPresent_fault (evaluate_fault predicate ⟨row, none⟩)).bind
      (fun _ _ => ih.bind (fun _ _ => trivial))

/-- A merged field that the row has nothing for is empty, which is no fault. -/
theorem MergeField.evaluate_fault (field : MergeField) (row : Value) :
    Runs (field.evaluate tables row) := by
  have hvalue : Evaluates (field.value.evaluate tables ⟨row, none⟩) :=
    DocQuery.evaluate_fault field.value ⟨row, none⟩
  unfold evaluate
  split
  · exact trivial
  · next hmissing =>
    cases hresult : field.value.evaluate tables ⟨row, none⟩ with
    | ok v => exact trivial
    | error e =>
      rcases hvalue.of_eq_error hresult with ⟨name, rfl⟩ | hrun
      · exact absurd hresult (hmissing name)
      · exact hrun

theorem evaluateFields_fault (row : Value) (fields : List MergeField) :
    Runs (evaluateFields tables row fields) := by
  induction fields with
  | nil => exact trivial
  | cons field rest ih =>
    rw [evaluateFields]
    exact (field.evaluate_fault row).bind (fun _ _ => ih.bind (fun _ _ => trivial))

theorem mergeRow_fault (fields : List MergeField) (row : Value) :
    Runs (mergeRow tables fields row) := by
  refine (evaluateFields_fault row fields).bind (fun attached _ => ?_)
  cases row with
  | object own => exact trivial
  | _ => exact Or.inr (Or.inl ⟨_, rfl⟩)

theorem mergeRows_fault (fields : List MergeField) (rows : List Value) :
    Runs (mergeRows tables fields rows) := by
  induction rows with
  | nil => exact trivial
  | cons row rest ih =>
    rw [mergeRows]
    exact (mergeRow_fault fields row).bind (fun _ _ => ih.bind (fun _ _ => trivial))

theorem Plan.run_fault (plan : Plan) :
    Yields (fun _ => True) RunError.IsRunFault (plan.run tables) := by
  induction plan with
  | table name =>
    rw [run]
    split
    · exact trivial
    · exact Or.inl ⟨_, rfl⟩
  | get input index key ih => exact ih.map (fun _ _ => trivial)
  | filter input predicate ih =>
    exact ih.bind (fun rows _ => runs_mapError_query (filterRows_fault predicate rows))
  | orderBy input keys ih =>
    refine ih.bind (fun rows _ => ?_)
    unfold sortRows
    split <;> exact trivial
  | skip input count ih => exact ih.map (fun _ _ => trivial)
  | limit input count ih => exact ih.map (fun _ _ => trivial)
  | merge input fields ih =>
    exact ih.bind (fun rows _ => runs_mapError_query (mergeRows_fault fields rows))

end

/-! ## Main statement -/

/-- If a descriptor cannot be read, from a value or from a text, or has no plan, it is the
    descriptor that is at fault. If a plan cannot be run, whatever its expressions and the tables
    are, then a table is not there, a value does not fit, or an expression cannot be evaluated: the
    descriptor is not at fault, and no field that is missing. A sort that is given up is no error
    of a query. -/
theorem faults_by_phase [PatternLibrary] :
    (∀ written e, Descriptor.ofValue written = .error e → e.isCompileError = true) ∧
    (∀ text e, Descriptor.ofText text = .error e → e.isCompileError = true) ∧
    (∀ options input d e, Plan.compile options input d = .error e → e.isCompileError = true) ∧
    ∀ (tables : Tables) (plan : Plan) (e : QueryError), plan.run tables = .error (.query e) →
      e.IsRunFault ∧ e.isCompileError = false ∧ ∀ field, e ≠ .nonExistence field := by
  refine ⟨fun written e => (Descriptor.blames_ofValue written).of_eq_error,
    fun text e => (Descriptor.blames_ofText text).of_eq_error,
    fun options input d e => (Plan.blames_compile options input d).of_eq_error,
    fun tables plan e h => ?_⟩
  have hrun : e.IsRunFault := plan.run_fault.of_eq_error h
  refine ⟨hrun, hrun.isCompileError_eq_false, ?_⟩
  rintro field rfl
  rcases hrun with ⟨_, ⟨⟩⟩ | ⟨_, ⟨⟩⟩ | ⟨_, ⟨⟩⟩

/-- An unknown operator, a text that breaks off, a hop that follows nothing; and a merged field that
    refers to an element outside of a map, on a row that is kept although a field is missing. -/
theorem faults_by_phase_each :
    let one : Value := .number (.integer 1 (by decide))
    let written : Value := .object [("where", .object [("a", .object [("~", one)])])]
    let hop : Lookup := ⟨"tags", "tag", none, some "id"⟩
    let stray : Descriptor := { joins := some [.junctionHop hop] }
    let tables : Tables := [("t", [.object [("a", one)]])]
    let plan : Plan := .merge (.filter (.table "t") (.or [.row "b", .row "a"]))
      [⟨"c", .row "b"⟩, ⟨"d", .not (.matchText (.element "a") "^")⟩]
    let unbound : QueryError := .execution .unboundElement
    (Descriptor.ofValue written = .error (.unsupportedOperator "~" "a") ∧
      (QueryError.unsupportedOperator "~" "a").isCompileError = true) ∧
    (Descriptor.ofText "[" = .error .malformedJson ∧
      QueryError.malformedJson.isCompileError = true) ∧
    (Plan.compile {} (.table "t") stray = .error (.invalidJoinSequence (.strayHop 0 "tags")) ∧
      (QueryError.invalidJoinSequence (.strayHop 0 "tags")).isCompileError = true) ∧
    plan.run tables = .error (.query unbound) ∧ unbound.IsRunFault ∧
      unbound.isCompileError = false ∧ ∀ field, unbound ≠ .nonExistence field := by
  intro one written hop stray tables plan unbound
  obtain ⟨hread, htext, hcompile, hrun⟩ := faults_by_phase
  have hwritten : Descriptor.ofValue written = .error (.unsupportedOperator "~" "a") := rfl
  have hbroken : Descriptor.ofText "[" = .error .malformedJson := rfl
  have hstray : Plan.compile {} (.table "t") stray =
      .error (.invalidJoinSequence (.strayHop 0 "tags")) := rfl
  have hplan : plan.run tables = .error (.query unbound) := rfl
  exact ⟨⟨hwritten, hread _ _ hwritten⟩, ⟨hbroken, htext _ _ hbroken⟩,
    ⟨hstray, hcompile _ _ _ _ hstray⟩, hplan, hrun _ _ _ hplan⟩

end DocQuery
