import DocQuery.Plan.Expr

set_option autoImplicit false

/-! # Query plans

A plan starts at a table and passes its rows through a chain of steps. -/

namespace DocQuery

/-- The direction of a sort key. -/
inductive Direction where
  | ascending
  | descending
deriving DecidableEq

/-- A field to sort by. -/
structure OrderKey where
  field : String
  direction : Direction
deriving DecidableEq

/-- A field to write into every row. -/
structure MergeField where
  name : String
  value : Expr

/-- A query plan. -/
inductive Plan where
  /-- All rows of a table. -/
  | table (name : String)
  /-- The rows whose index field equals the key. -/
  | get (input : Plan) (index : String) (key : Value)
  /-- The rows for which the predicate holds. -/
  | filter (input : Plan) (predicate : Expr)
  /-- The rows in the order of the keys; rows that no key tells apart keep their order. -/
  | orderBy (input : Plan) (keys : List OrderKey)
  /-- The rows after the first `count`. -/
  | skip (input : Plan) (count : UInt64)
  /-- The first `count` rows. -/
  | limit (input : Plan) (count : UInt64)
  /-- The rows with further fields. -/
  | merge (input : Plan) (fields : List MergeField)

namespace Plan

/-- The table that a plan starts at. -/
def tableName : Plan → String
  | .table name => name
  | .get input _ _ => input.tableName
  | .filter input _ => input.tableName
  | .orderBy input _ => input.tableName
  | .skip input _ => input.tableName
  | .limit input _ => input.tableName
  | .merge input _ => input.tableName

end Plan

end DocQuery
