import DocQuery.Descriptor.Join
import DocQuery.Pattern.Like
import DocQuery.Plan.Basic

set_option autoImplicit false

/-! # Plans for descriptors

A descriptor becomes a chain of steps in a fixed order: filter, sort, skip, joins, limit. Joins come
after skipping and before limiting, so related documents are not looked up for rows that are
skipped. A filter that asks for one primary key becomes a look-up by key. -/

namespace DocQuery

/-! ## Filters -/

/-- The expression that tests the value of `subject`. -/
def Condition.compile (subject : Expr) : Condition → Expr
  | .equal v => .compare .eq subject (.datum v)
  | .notEqual v => .compare .ne subject (.datum v)
  | .less v => .compare .lt subject (.datum v)
  | .lessOrEqual v => .compare .le subject (.datum v)
  | .greater v => .compare .gt subject (.datum v)
  | .greaterOrEqual v => .compare .ge subject (.datum v)
  | .oneOf vs => .oneOf subject vs
  | .noneOf vs => .not (.oneOf subject vs)
  | .contains vs => .contains subject vs
  | .like wildcards => .matchText subject (Pattern.ofWildcards wildcards)
  | .startsWith beginning => .matchText subject (Pattern.ofBeginning beginning)
  | .endsWith ending => .matchText subject (Pattern.ofEnd ending)

mutual

/-- The expression that tests one entry of a clause on the fields of `binding`. -/
def Entry.compile (binding : Binding) : Entry → Expr
  | .field name condition => condition.compile (.field binding name)
  | .anyOf clauses => .disjunction (compileClauses binding clauses)
  | .allOf clauses => .conjunction (compileClauses binding clauses)

/-- The expressions that test the entries of a clause. -/
def compileEntries (binding : Binding) : List Entry → List Expr
  | [] => []
  | entry :: rest => entry.compile binding :: compileEntries binding rest

/-- The expressions that test the clauses of a group, each the conjunction of its entries. -/
def compileClauses (binding : Binding) : List (List Entry) → List Expr
  | [] => []
  | clause :: rest => .conjunction (compileEntries binding clause) :: compileClauses binding rest

end

/-- The expression that tests a clause on the fields of `binding`. -/
def Clause.compile (binding : Binding) (clause : Clause) : Expr :=
  .conjunction (compileEntries binding clause)

/-- The key that a clause asks for, if all it asks is that the primary key equal a value that is not
    null. -/
def Clause.keyLookup? (clause : Clause) (primaryKey : String) : Option Value :=
  match clause with
  | [.field name (.equal value)] =>
    if name = primaryKey ∧ ¬ value.isNull then some value else none
  | _ => none

/-! ## Sort orders -/

/-- The direction that an indicator stands for: ascending for the number one, else descending. -/
def Direction.ofIndicator : Value → Direction
  | .number n => if n.isOne then .ascending else .descending
  | _ => .descending

/-- The sort keys of a sort order. -/
def SortSpec.compile (sort : SortSpec) : List OrderKey :=
  sort.map (fun (field, indicator) => ⟨field, .ofIndicator indicator⟩)

/-! ## Joins -/

/-- The look-up of the one document that a field of `binding` refers to. -/
def Lookup.compileOne (lookup : Lookup) (binding : Binding) (primaryKey : String) :
    Except JoinFault Expr :=
  match lookup.parentKey with
  | none => .error (.noParentKey lookup)
  | some parentKey =>
    .ok (.get lookup.child (lookup.childKey.getD primaryKey) (.field binding parentKey))

/-- The look-up of all documents that refer to the row. -/
def Lookup.compileMany (lookup : Lookup) (primaryKey : String) : Except JoinFault Expr :=
  match lookup.childKey with
  | none => .error (.noChildKey lookup)
  | some childKey =>
    .ok (.getAll lookup.child childKey (.row (lookup.parentKey.getD primaryKey)))

/-- The value that a join plan attaches. -/
def JoinPlan.compile (primaryKey : String) : JoinPlan → Except JoinFault Expr
  | .belongsTo lookup => lookup.compileOne .row primaryKey
  | .hasMany lookup => lookup.compileMany primaryKey
  | .manyToMany through hop => do
    let source ← through.compileMany primaryKey
    let body ← hop.compileOne .element primaryKey
    return .mapItems source body

/-- The fields that join plans attach, written one after the other into `fields`. -/
def compileJoinPlans (primaryKey : String) (fields : Assoc Expr) :
    List JoinPlan → Except JoinFault (Assoc Expr)
  | [] => .ok fields
  | plan :: rest => do
    let value ← plan.compile primaryKey
    compileJoinPlans primaryKey (fields.insert plan.attachAs value) rest

/-- The fields that a list of joins attaches. Under a repeated alias the last one counts, in the
    place of the first. -/
def compileJoins (primaryKey : String) (joins : List Join) :
    Except JoinFault (List MergeField) := do
  let plans ← JoinPlan.ofList joins
  let fields ← compileJoinPlans primaryKey [] plans
  return fields.map (fun (name, value) => ⟨name, value⟩)

/-! ## Descriptors -/

/-- What a plan depends on besides the descriptor. -/
structure PlanOptions where
  /-- The field that tells the documents of a table apart; joins without a key use it too. -/
  primaryKey : String := "id"
  /-- A filter that asks for one primary key becomes a look-up. -/
  keyLookup : Bool := true
deriving DecidableEq

namespace Plan

/-- The rows of `input` that satisfy the clause. -/
def compileFilter (options : PlanOptions) (input : Plan) (clause : Clause) : Plan :=
  match options.keyLookup, clause.keyLookup? options.primaryKey with
  | true, some key => .get input options.primaryKey key
  | _, _ => .filter input (clause.compile .row)

/-- The rows of `input` in a sort order; without keys they stay as they are. -/
def compileSort (input : Plan) (sort : SortSpec) : Plan :=
  match sort.compile with
  | [] => input
  | keys => .orderBy input keys

/-- The rows of `input` after the first `count`. -/
def compileSkip (input : Plan) (count : UInt64) : Plan :=
  if count = 0 then input else .skip input count

/-- The first `count` rows of `input`, and all of them if that is zero. -/
def compileLimit (input : Plan) (count : UInt64) : Plan :=
  if count = 0 then input else .limit input count

/-- The rows of `input` with the fields that the joins attach. -/
def compileMerge (options : PlanOptions) (input : Plan) (joins : List Join) :
    Except JoinFault Plan := do
  let fields ← compileJoins options.primaryKey joins
  return if fields.isEmpty then input else .merge input fields

/-- A step that is taken only if its part of the descriptor is there. -/
def withPart {α : Type} (part : Option α) (step : Plan → α → Plan) (input : Plan) : Plan :=
  match part with
  | none => input
  | some a => step input a

/-- The plan for a descriptor, starting from `input`. -/
def compile (options : PlanOptions) (input : Plan) (d : Descriptor) : Except QueryError Plan := do
  let filtered := withPart d.filter (compileFilter options) input
  let sorted := withPart d.sort compileSort filtered
  let skipped := withPart d.skip compileSkip sorted
  let merged ← match d.joins with
    | none => .ok skipped
    | some joins => (compileMerge options skipped joins).mapError .invalidJoinSequence
  return withPart d.limit compileLimit merged

end Plan

end DocQuery
