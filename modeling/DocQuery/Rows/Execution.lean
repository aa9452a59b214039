import DocQuery.Driftsort.Basic
import DocQuery.Plan.Basic
import DocQuery.Rows.Evaluation

set_option autoImplicit false

/-! # Execution of plans

`Plan.run` gives the rows that a plan selects from the tables. Sorting is stable: rows that the keys
do not tell apart keep their order. Many rows may have no consistent order, and sorting them may
then be given up with a fault. A field that a merge cannot compute because the row lacks the key it
refers to is an empty array where many documents were asked for, and null else. -/

namespace DocQuery

variable [PatternLibrary]

/-- The value by which a row is sorted; a row without the field counts as null. -/
def OrderKey.valueOf (key : OrderKey) (row : Value) : Value :=
  (row.field? key.field).getD .null

/-- The order of two rows by one key. -/
def OrderKey.compareRows (key : OrderKey) (a b : Value) : Ordering :=
  match key.direction with
  | .ascending => (key.valueOf a).sortOrder (key.valueOf b)
  | .descending => ((key.valueOf a).sortOrder (key.valueOf b)).swap

/-- The order of two rows by the first key that tells them apart. -/
def compareRows : List OrderKey → Value → Value → Ordering
  | [], _, _ => .eq
  | key :: rest, a, b => (key.compareRows a b).then (compareRows rest a b)

/-- The rows in the order of the keys, unless sorting finds that the order is inconsistent. -/
def sortRows (keys : List OrderKey) (rows : List Value) : Except RunError (List Value) :=
  match Driftsort.sort (compareRows keys) rows with
  | some sorted => .ok sorted
  | none => .error .disorder

/-- The rows that the predicate accepts. -/
def filterRows (tables : Tables) (predicate : Expr) : List Value → Except QueryError (List Value)
  | [] => .ok []
  | row :: rest => do
    let kept ← predicate.accepts tables row
    let later ← filterRows tables predicate rest
    return if kept then row :: later else later

/-- What a merged field holds if the row lacks the key it refers to. -/
def Expr.absentValue : Expr → Value
  | .getAll _ _ _ => .array []
  | .mapItems _ _ => .array []
  | _ => .null

/-- The value of a merged field for a row. -/
def MergeField.evaluate (field : MergeField) (tables : Tables) (row : Value) :
    Except QueryError Value :=
  match field.value.evaluate tables ⟨row, none⟩ with
  | .error (.nonExistence _) => .ok field.value.absentValue
  | result => result

/-- The values of merged fields for a row, under their names. -/
def evaluateFields (tables : Tables) (row : Value) :
    List MergeField → Except QueryError (List (String × Value))
  | [] => .ok []
  | field :: rest => do
    let value ← field.evaluate tables row
    let later ← evaluateFields tables row rest
    return (field.name, value) :: later

/-- The row with further fields. All of them are computed from the row as it is. -/
def mergeRow (tables : Tables) (fields : List MergeField) (row : Value) :
    Except QueryError Value := do
  let attached ← evaluateFields tables row fields
  match row with
  | .object own => return .object (Assoc.insertAll own attached)
  | _ => throw (.typeError (.notADocument row))

/-- Every row with further fields. -/
def mergeRows (tables : Tables) (fields : List MergeField) :
    List Value → Except QueryError (List Value)
  | [] => .ok []
  | row :: rest => do
    let merged ← mergeRow tables fields row
    let later ← mergeRows tables fields rest
    return merged :: later

namespace Plan

/-- The rows that a plan selects. -/
def run (tables : Tables) : Plan → Except RunError (List Value)
  | .table name =>
    match tables.lookup name with
    | some rows => .ok rows
    | none => .error (.query (.tableNotFound name))
  | .get input index key => (input.run tables).map (·.filter (hasIndexKey index key))
  | .filter input predicate => do
    let rows ← input.run tables
    (filterRows tables predicate rows).mapError .query
  | .orderBy input keys => do
    let rows ← input.run tables
    sortRows keys rows
  | .skip input count => (input.run tables).map (·.drop count.toNat)
  | .limit input count => (input.run tables).map (·.take count.toNat)
  | .merge input fields => do
    let rows ← input.run tables
    (mergeRows tables fields rows).mapError .query

end Plan

end DocQuery
