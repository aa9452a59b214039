import DocQuery.Assoc
import DocQuery.Number.Basic

set_option autoImplicit false

/-! # Document values

Documents, their fields and the constants of a query are values: null, truth values, numbers,
texts, arrays, and objects whose fields keep their order. The fields of an object are meant to have
distinct names; every function that builds an object writes fields through `Assoc.insert`. -/

namespace DocQuery

/-- A document value. -/
inductive Value where
  | null
  | bool (value : Bool)
  | number (value : Number)
  | string (value : String)
  | array (items : List Value)
  | object (fields : List (String × Value))

/-- The kinds of value, in the order in which values of different kinds are sorted. -/
inductive Kind where
  | null
  | boolean
  | number
  | string
  | array
  | object
deriving DecidableEq

namespace Kind

/-- The name of a kind in messages. -/
def name : Kind → String
  | .null => "null"
  | .boolean => "boolean"
  | .number => "number"
  | .string => "string"
  | .array => "array"
  | .object => "object"

/-- The place of a kind in the sort order. -/
def rank : Kind → Nat
  | .null => 0
  | .boolean => 1
  | .number => 2
  | .string => 3
  | .array => 4
  | .object => 5

end Kind

namespace Value

/-- The kind of a value. -/
def kind : Value → Kind
  | .null => .null
  | .bool _ => .boolean
  | .number _ => .number
  | .string _ => .string
  | .array _ => .array
  | .object _ => .object

/-- The value of the field `name`, if `v` is an object that has it. -/
def field? (v : Value) (name : String) : Option Value :=
  match v with
  | .object fields => fields.lookup name
  | _ => none

/-- The value is an object. -/
def isObject : Value → Bool
  | .object _ => true
  | _ => false

/-- The value is null. -/
def isNull : Value → Bool
  | .null => true
  | _ => false

/-- Every value but `null` and `false` counts as true. -/
def isTruthy : Value → Bool
  | .null => false
  | .bool b => b
  | _ => true

/-- The whole number held by an unsigned word. -/
def ofWord (n : UInt64) : Value :=
  .number (.ofWord n)

end Value

end DocQuery
