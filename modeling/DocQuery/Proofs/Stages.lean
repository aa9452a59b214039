import DocQuery.Plan.Compile
import DocQuery.Proofs.Execution
import DocQuery.Proofs.ValueOrder

set_option autoImplicit false

/-! # The stages of a compiled plan

A plan for a descriptor filters first. What it does with the rows that are left is
`Descriptor.arrange` and depends on the descriptor alone: they are sorted, the first ones are
skipped, joins are attached and the limit is applied. `compile_cases` says that a plan is nothing
but these stages, and when there is no plan. A part that is absent, or has no effect, adds no step
to the plan; its stage does nothing then either. -/

namespace DocQuery

/-! ## The stages as functions on rows -/

/-- The first `count` rows; zero is no limit. -/
def takeUpTo (count : Nat) (rows : List Value) : List Value :=
  if count = 0 then rows else rows.take count

section

variable [PatternLibrary]

/-- The rows with the fields attached. Without fields any row may pass, object or not. -/
def attachFields (tables : Tables) (fields : List MergeField) (rows : List Value) :
    Except QueryError (List Value) :=
  if fields.isEmpty then .ok rows else mergeRows tables fields rows

/-- Where a merge works on every row it is a map, also where it is left out. -/
theorem attachFields_eq_map {tables : Tables} {fields : List MergeField} {rows : List Value}
    {f : Value → Value} (h : ∀ row ∈ rows, mergeRow tables fields row = .ok (f row)) :
    attachFields tables fields rows = .ok (rows.map f) := by
  unfold attachFields
  split
  · next hempty =>
    have hsame : ∀ row ∈ rows, f row = row := by
      intro row hrow
      have hmerge := h row hrow
      rw [List.isEmpty_iff.mp hempty] at hmerge
      cases row with
      | object own => exact (Except.ok.inj hmerge).symm
      | _ => cases hmerge
    rw [List.map_congr_left hsame, List.map_id']
  · exact mergeRows_eq_map h

end

namespace Descriptor

/-- The keys that the rows are sorted by. -/
def sortKeys (d : Descriptor) : List OrderKey :=
  d.sort.elim [] SortSpec.compile

/-- How many rows are skipped. -/
def skipCount (d : Descriptor) : Nat :=
  d.skip.elim 0 UInt64.toNat

/-- How many rows there may be; zero is no limit. -/
def limitCount (d : Descriptor) : Nat :=
  d.limit.elim 0 UInt64.toNat

/-- The fields that the joins attach. -/
def mergeFields (d : Descriptor) (primaryKey : String) : Except QueryError (List MergeField) :=
  match d.joins with
  | none => .ok []
  | some joins => (compileJoins primaryKey joins).mapError .invalidJoinSequence

/-- The plans of the joins. -/
def joinPlans (d : Descriptor) : List JoinPlan :=
  d.joins.elim [] (fun joins => (JoinPlan.ofList joins).toOption.getD [])

/-- Joins without a meaning are the only reason for their fields not to be computed. -/
theorem mergeFields_eq_error_iff {d : Descriptor} {primaryKey : String} {e : QueryError} :
    d.mergeFields primaryKey = .error e ↔ ∃ joins fault, d.joins = some joins ∧
      compileJoins primaryKey joins = .error fault ∧ e = .invalidJoinSequence fault := by
  unfold mergeFields
  cases d.joins with
  | none => simp
  | some joins => simp [mapError_eq_error, @eq_comm _ e]

/-- What becomes of the rows that the filter keeps. -/
def arrange [PatternLibrary] (d : Descriptor) (tables : Tables) (fields : List MergeField)
    (rows : List Value) : Except RunError (List Value) := do
  let sorted ← sortRows d.sortKeys rows
  let merged ← (attachFields tables fields (sorted.drop d.skipCount)).mapError .query
  return takeUpTo d.limitCount merged

end Descriptor

namespace Plan

/-- The rows of `input` that the filter of the descriptor keeps. -/
def filtered (options : PlanOptions) (input : Plan) (d : Descriptor) : Plan :=
  withPart d.filter (compileFilter options) input

/-! ## What the steps do -/

variable (tables : Tables) (input : Plan)

section

variable [PatternLibrary]

theorem run_compileSort (sort : SortSpec) :
    (compileSort input sort).run tables = input.run tables >>= sortRows sort.compile := by
  unfold compileSort
  split
  · next h =>
    rw [h]
    cases input.run tables <;> simp
  · rw [run]

theorem run_compileSkip (count : UInt64) :
    (compileSkip input count).run tables = (input.run tables).map (·.drop count.toNat) := by
  unfold compileSkip
  split
  · next h =>
    subst h
    cases input.run tables <;> rfl
  · rw [run]

theorem run_compileLimit (count : UInt64) :
    (compileLimit input count).run tables = (input.run tables).map (takeUpTo count.toNat) := by
  unfold compileLimit
  split
  · next h =>
    subst h
    cases input.run tables <;> rfl
  · next h =>
    have hne : count.toNat ≠ 0 := fun he => h (UInt64.toNat_inj.mp he)
    rw [run]
    cases input.run tables <;> simp [takeUpTo, hne]

theorem run_withPart_sort (d : Descriptor) :
    (withPart d.sort compileSort input).run tables =
      input.run tables >>= sortRows d.sortKeys := by
  unfold withPart Descriptor.sortKeys
  cases d.sort with
  | none => cases input.run tables <;> simp
  | some sort => exact run_compileSort tables input sort

theorem run_withPart_skip (d : Descriptor) :
    (withPart d.skip compileSkip input).run tables =
      (input.run tables).map (·.drop d.skipCount) := by
  unfold withPart Descriptor.skipCount
  cases d.skip with
  | none => cases input.run tables <;> rfl
  | some count => exact run_compileSkip tables input count

theorem run_withPart_limit (d : Descriptor) :
    (withPart d.limit compileLimit input).run tables =
      (input.run tables).map (takeUpTo d.limitCount) := by
  unfold withPart Descriptor.limitCount
  cases d.limit with
  | none => cases input.run tables <;> rfl
  | some count => exact run_compileLimit tables input count

theorem run_merge_unless_empty (fields : List MergeField) :
    (if fields.isEmpty then input else .merge input fields).run tables =
      input.run tables >>= fun rows => (attachFields tables fields rows).mapError .query := by
  unfold attachFields
  split
  · cases input.run tables <;> rfl
  · rw [run]

end

/-! ## Plans -/

variable (options : PlanOptions) (d : Descriptor)

/-- The step for the joins, if their fields can be computed. -/
theorem compile_eq_map_mergeFields :
    compile options input d = (d.mergeFields options.primaryKey).map (fun fields =>
      let skipped := withPart d.skip compileSkip (withPart d.sort compileSort
        (filtered options input d))
      withPart d.limit compileLimit
        (if fields.isEmpty then skipped else .merge skipped fields)) := by
  unfold compile Descriptor.mergeFields
  cases d.joins with
  | none => rfl
  | some joins =>
    simp only [compileMerge]
    cases compileJoins options.primaryKey joins <;> rfl

theorem exists_mergeFields_of_compile_eq_ok {options : PlanOptions} {input : Plan} {d : Descriptor}
    {plan : Plan} (h : compile options input d = .ok plan) :
    ∃ fields, d.mergeFields options.primaryKey = .ok fields := by
  rw [compile_eq_map_mergeFields] at h
  obtain ⟨fields, hfields, -⟩ := map_eq_ok.mp h
  exact ⟨fields, hfields⟩

/-- There is a plan if the fields of the joins can be computed, and it runs stage by stage; else
    there is none, for the same reason. -/
theorem compile_cases [PatternLibrary] :
    (∃ e, d.mergeFields options.primaryKey = .error e ∧ compile options input d = .error e) ∨
    (∃ fields plan, d.mergeFields options.primaryKey = .ok fields ∧
      compile options input d = .ok plan ∧
      ∀ tables, plan.run tables =
        (filtered options input d).run tables >>= d.arrange tables fields) := by
  have hcompile := compile_eq_map_mergeFields input options d
  cases hfields : d.mergeFields options.primaryKey with
  | error e =>
    rw [hfields] at hcompile
    exact Or.inl ⟨e, rfl, hcompile⟩
  | ok fields =>
    rw [hfields] at hcompile
    refine Or.inr ⟨fields, _, rfl, hcompile, ?_⟩
    intro tables
    rw [run_withPart_limit, run_merge_unless_empty, run_withPart_skip, run_withPart_sort]
    cases (filtered options input d).run tables with
    | error e => rfl
    | ok kept =>
      rw [ok_bind, ok_bind, Descriptor.arrange]
      cases sortRows d.sortKeys kept with
      | error e => rfl
      | ok sorted => cases attachFields tables fields (sorted.drop d.skipCount) <;> rfl

/-- The stages of a plan that there is. -/
theorem run_of_compile_eq_ok [PatternLibrary] {options : PlanOptions} {input : Plan}
    {d : Descriptor} {plan : Plan} (h : compile options input d = .ok plan) :
    ∃ fields, d.mergeFields options.primaryKey = .ok fields ∧
      ∀ tables, plan.run tables =
        (filtered options input d).run tables >>= d.arrange tables fields := by
  rcases compile_cases input options d with ⟨e, -, he⟩ | ⟨fields, plan', hfields, hplan, hrun⟩
  · rw [h] at he
    cases he
  · rw [h] at hplan
    obtain rfl := Except.ok.inj hplan
    exact ⟨fields, hfields, hrun⟩

end Plan

end DocQuery
