import DocQuery.Plan.Basic

set_option autoImplicit false

/-! # Plans as values

`Plan.toValue` gives a plan as an object whose first field names the step, for tools that read plans
as JSON; `Expr.toValue` does the same for an expression. -/

namespace DocQuery

/-- The name of a binding. -/
def Binding.tag : Binding → String
  | .row => "Row"
  | .element => "Element"

/-- The name of a comparison. -/
def Comparison.tag : Comparison → String
  | .eq => "Eq"
  | .ne => "Ne"
  | .lt => "Lt"
  | .le => "Le"
  | .gt => "Gt"
  | .ge => "Ge"

/-- The name of a direction. -/
def Direction.tag : Direction → String
  | .ascending => "asc"
  | .descending => "desc"

namespace Expr

/-- An expression with its name and its parts. -/
def tagged (op : String) (parts : List (String × Value)) : Value :=
  .object (("op", .string op) :: parts)

mutual

/-- The expression as a value. -/
def toValue : Expr → Value
  | .datum value => tagged "datum" [("value", value)]
  | .field binding name =>
    tagged "field" [("binding", .string binding.tag), ("name", .string name)]
  | .compare comparison left right =>
    tagged "compare"
      [("cmp", .string comparison.tag), ("left", left.toValue), ("right", right.toValue)]
  | .and args => tagged "and" [("args", .array (argValues args))]
  | .or args => tagged "or" [("args", .array (argValues args))]
  | .not arg => tagged "not" [("arg", arg.toValue)]
  | .contains collection values =>
    tagged "contains" [("collection", collection.toValue), ("values", .array values)]
  | .oneOf value list => tagged "in" [("value", value.toValue), ("list", .array list)]
  | .matchText subject pattern =>
    tagged "match" [("subject", subject.toValue), ("pattern", .string pattern)]
  | .get table index key =>
    tagged "get" [("table", .string table), ("index", .string index), ("key", key.toValue)]
  | .getAll table index key =>
    tagged "get_all" [("table", .string table), ("index", .string index), ("key", key.toValue)]
  | .mapItems source body =>
    tagged "map_items" [("source", source.toValue), ("body", body.toValue)]

/-- Each expression as a value. -/
def argValues : List Expr → List Value
  | [] => []
  | arg :: rest => arg.toValue :: argValues rest

end

end Expr

/-- A sort key as a value. -/
def OrderKey.toValue (key : OrderKey) : Value :=
  .object [("field", .string key.field), ("direction", .string key.direction.tag)]

/-- A merged field as a value. -/
def MergeField.toValue (field : MergeField) : Value :=
  .object [("alias", .string field.name), ("value", field.value.toValue)]

namespace Plan

/-- A step with its name and its parts. -/
def tagged (term : String) (parts : List (String × Value)) : Value :=
  .object (("term", .string term) :: parts)

/-- The plan as a value. -/
def toValue : Plan → Value
  | .table name => tagged "table" [("name", .string name)]
  | .get input index key =>
    tagged "get" [("input", input.toValue), ("index", .string index), ("key", key)]
  | .filter input predicate =>
    tagged "filter" [("input", input.toValue), ("predicate", predicate.toValue)]
  | .orderBy input keys =>
    tagged "order_by" [("input", input.toValue), ("keys", .array (keys.map OrderKey.toValue))]
  | .skip input count => tagged "skip" [("input", input.toValue), ("count", .ofWord count)]
  | .limit input count => tagged "limit" [("input", input.toValue), ("count", .ofWord count)]
  | .merge input fields =>
    tagged "merge"
      [("input", input.toValue), ("fields", .array (fields.map MergeField.toValue))]

end Plan

end DocQuery
