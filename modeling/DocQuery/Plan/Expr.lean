import DocQuery.Value.Basic

set_option autoImplicit false

/-! # Expressions on a row

An expression is evaluated for one row of a table. It reads fields of the row, or of the element
that an enclosing `mapItems` is at, compares and tests values, and looks documents up in other
tables. -/

namespace DocQuery

/-- What a field is read from. -/
inductive Binding where
  /-- The row at hand. -/
  | row
  /-- The item that the enclosing map is at. -/
  | element
deriving DecidableEq

/-- The six comparisons. -/
inductive Comparison where
  | eq
  | ne
  | lt
  | le
  | gt
  | ge
deriving DecidableEq

/-- An expression on a row. -/
inductive Expr where
  /-- A constant. -/
  | datum (value : Value)
  /-- The value of a field. -/
  | field (binding : Binding) (name : String)
  /-- A comparison of two values. -/
  | compare (comparison : Comparison) (left right : Expr)
  /-- Every argument holds. -/
  | and (args : List Expr)
  /-- Some argument holds. -/
  | or (args : List Expr)
  /-- The argument does not hold. -/
  | not (arg : Expr)
  /-- The collection is an array that holds all of the values. -/
  | contains (collection : Expr) (values : List Value)
  /-- The value is in the list. -/
  | oneOf (value : Expr) (list : List Value)
  /-- The subject is a text that the pattern matches. -/
  | matchText (subject : Expr) (pattern : String)
  /-- The first document of a table whose index field equals the key, or null. -/
  | get (table index : String) (key : Expr)
  /-- All documents of a table whose index field equals the key. -/
  | getAll (table index : String) (key : Expr)
  /-- The values of the body for the items of the source, each in turn as the element. -/
  | mapItems (source body : Expr)

namespace Expr

/-- A field of the row. -/
def row (name : String) : Expr :=
  .field .row name

/-- A field of the element. -/
def element (name : String) : Expr :=
  .field .element name

/-- Every one of `args` holds: `true` if there are none, and a single argument is itself. -/
def conjunction : List Expr → Expr
  | [] => .datum (.bool true)
  | [arg] => arg
  | args => .and args

/-- Some one of `args` holds: `false` if there are none, and a single argument is itself. -/
def disjunction : List Expr → Expr
  | [] => .datum (.bool false)
  | [arg] => arg
  | args => .or args

end Expr

end DocQuery
