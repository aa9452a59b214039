import DocQuery.Assoc
import DocQuery.Value.Basic

set_option autoImplicit false

/-! # Query descriptors

A descriptor says which documents of a table to return: a filter clause, a sort order, a number of
documents to skip, a limit, and joins that attach related documents. Every part may be absent. -/

namespace DocQuery

/-! ## Filters -/

/-- The operators a condition on a field may be written with. -/
inductive Operator where
  | lessThan
  | lessThanOrEqual
  | greaterThan
  | greaterThanOrEqual
  | not
  | contains
  | like
  | startsWith
  | endsWith
deriving DecidableEq

namespace Operator

/-- The operator that a token names: a symbol or a word. -/
def ofToken? (token : String) : Option Operator :=
  if token = "<" ∨ token = "lessThan" then some .lessThan
  else if token = "<=" ∨ token = "lessThanOrEqual" then some .lessThanOrEqual
  else if token = ">" ∨ token = "greaterThan" then some .greaterThan
  else if token = ">=" ∨ token = "greaterThanOrEqual" then some .greaterThanOrEqual
  else if token = "!" ∨ token = "not" then some .not
  else if token = "contains" then some .contains
  else if token = "like" then some .like
  else if token = "startsWith" then some .startsWith
  else if token = "endsWith" then some .endsWith
  else none

/-- The shortest token that names the operator. -/
def symbol : Operator → String
  | .lessThan => "<"
  | .lessThanOrEqual => "<="
  | .greaterThan => ">"
  | .greaterThanOrEqual => ">="
  | .not => "!"
  | .contains => "contains"
  | .like => "like"
  | .startsWith => "startsWith"
  | .endsWith => "endsWith"

end Operator

/-- A condition on the value of one field. -/
inductive Condition where
  | equal (operand : Value)
  | notEqual (operand : Value)
  | less (operand : Value)
  | lessOrEqual (operand : Value)
  | greater (operand : Value)
  | greaterOrEqual (operand : Value)
  /-- The value equals one of these. -/
  | oneOf (operands : List Value)
  /-- The value equals none of these. -/
  | noneOf (operands : List Value)
  /-- The value is an array that holds all of these. -/
  | contains (operands : List Value)
  /-- The value is a text that matches; `%` stands for a run of characters, `_` for one. -/
  | like (wildcards : String)
  | startsWith (beginning : String)
  | endsWith (ending : String)

/-- An entry of a clause. A clause is a list of entries, all of which must hold. -/
inductive Entry where
  /-- The field meets the condition. -/
  | field (name : String) (condition : Condition)
  /-- One of the clauses holds. -/
  | anyOf (clauses : List (List Entry))
  /-- All of the clauses hold. -/
  | allOf (clauses : List (List Entry))

/-- A clause: entries all of which must hold. -/
abbrev Clause := List Entry

/-! ## Sort orders -/

/-- A sort order: fields, the most significant first, each with an indicator of its direction. -/
abbrev SortSpec := Assoc Value

/-! ## Joins -/

/-- How to find the documents that a join attaches. A key that is not given is the primary key,
    where a default exists. -/
structure Lookup where
  /-- The field to attach them as. -/
  attachAs : String
  /-- The table to look in. -/
  child : String
  /-- The field of the child documents to compare. -/
  childKey : Option String
  /-- The field of the parent document to compare. -/
  parentKey : Option String

/-- One join of a descriptor. -/
inductive Join where
  /-- Attach the first document that the parent refers to. -/
  | belongsTo (lookup : Lookup)
  /-- Attach all documents that refer to the parent. -/
  | hasMany (lookup : Lookup)
  /-- Replace the documents that the join before attached by those that they refer to. -/
  | junctionHop (lookup : Lookup)

namespace Join

/-- The lookup of a join. -/
def lookup : Join → Lookup
  | .belongsTo lookup => lookup
  | .hasMany lookup => lookup
  | .junctionHop lookup => lookup

/-- The name of a kind of join. -/
def kindName : Join → String
  | .belongsTo _ => "belongs-to"
  | .hasMany _ => "has-many"
  | .junctionHop _ => "junction-hop"

end Join

/-! ## Descriptors -/

/-- What a query asks of a table. -/
structure Descriptor where
  filter : Option Clause := none
  sort : Option SortSpec := none
  skip : Option UInt64 := none
  /-- Zero is no limit. -/
  limit : Option UInt64 := none
  joins : Option (List Join) := none

namespace Descriptor

/-- The descriptor that asks for every document. -/
def empty : Descriptor := {}

/-- The descriptor without its joins. -/
def withoutJoins (d : Descriptor) : Descriptor :=
  { d with joins := none }

end Descriptor

end DocQuery
