import DocQuery.Descriptor.Basic
import DocQuery.Json.Printer
import DocQuery.Text.Quoted

set_option autoImplicit false

/-! # What can be wrong with a query

A query fails in one of nine ways, each with its causes. Five of them are faults of the descriptor
and are found before any document is read; the others come up while a plan runs. The wording of a
message is in one place, `QueryError.message`. -/

namespace DocQuery

/-! ## Causes -/

/-- The two keys of a clause that hold a list of clauses. -/
inductive GroupKey where
  | or
  | and
deriving DecidableEq

/-- The key as it is written. -/
def GroupKey.text : GroupKey → String
  | .or => "or"
  | .and => "and"

/-- Why a part of a descriptor has no meaning as a clause or a sort order. -/
inductive ClauseFault where
  | descriptorKind (found : Kind)
  | filterKind (found : Kind)
  | groupKind (group : GroupKey) (found : Kind)
  | groupEmpty (group : GroupKey)
  | memberKind (group : GroupKey) (position : Nat) (found : Kind)
  | conditionEmpty (field : String)
  /-- An order operator was given an array, an object or null. -/
  | operandNotComparable (operator : Operator) (field : String)
  /-- `!` or `contains` was given an object. -/
  | operandObject (operator : Operator) (field : String)
  /-- A text operator was given something else. -/
  | operandNotText (operator : Operator) (field : String)
  | sortKind (found : Kind)
  | sortDirection (word field : String)
  | sortTerm (term : String)

/-- What a key of a written join must hold. -/
inductive JoinShape where
  | text
  | boolean
  | join

/-- Why an item of a list of joins cannot be read. -/
inductive JoinItemFault where
  | missing (key : String)
  | mistyped (found : Value) (expected : JoinShape)
  | tooFew (count : Nat)
  | tooMany (count : Nat)

/-- Why a list of joins has no meaning. -/
inductive JoinFault where
  | listKind (found : Kind)
  | item (position : Nat) (fault : JoinItemFault)
  | bothKinds (position : Nat) (name : String)
  | noKind (position : Nat) (name : String)
  | strayHop (position : Nat) (name : String)
  | noParentKey (lookup : Lookup)
  | noChildKey (lookup : Lookup)

/-- Why a value does not fit the operation it met. -/
inductive TypeFault where
  | noFields (field : String) (found : Value)
  | notAList (found : Value)
  | notADocument (found : Value)

/-- Why a plan cannot be run. -/
inductive ExecutionFault where
  | unboundElement
  | invalidPattern (pattern : String)

/-- An error of a query. -/
inductive QueryError where
  | malformedClause (fault : ClauseFault)
  | unsupportedOperator (token field : String)
  | invalidJoinSequence (fault : JoinFault)
  | invalidPagination (key : String) (found : Value)
  /-- A field was read that the document does not have. -/
  | nonExistence (field : String)
  | typeError (fault : TypeFault)
  | tableNotFound (table : String)
  | execution (fault : ExecutionFault)
  | malformedJson

/-- How running a plan fails. -/
inductive RunError where
  | query (error : QueryError)
  /-- Sorting came to no end, since the rows have no consistent order. -/
  | disorder

/-! ## Wording -/

/-- A name between backquotes. -/
def backquoted (s : String) : String :=
  "`" ++ s ++ "`"

/-- An operator and the field it was applied to. -/
def operatorOnField (operator : Operator) (field : String) : String :=
  backquoted operator.symbol ++ " on field " ++ backquoted field

/-- A fault of a clause or a sort order in words. -/
def ClauseFault.message : ClauseFault → String
  | .descriptorKind found => "descriptor must be an object, got " ++ found.name
  | .filterKind found => backquoted "where" ++ " must be an object, got " ++ found.name
  | .groupKind group found =>
    backquoted group.text ++ " expects an array of clauses, got " ++ found.name
  | .groupEmpty group => backquoted group.text ++ " must not be empty"
  | .memberKind group position found =>
    backquoted (group.text ++ "[" ++ toString position ++ "]") ++ " must be an object, got " ++
      found.name
  | .conditionEmpty field => "empty condition object for field " ++ backquoted field
  | .operandNotComparable operator field =>
    operatorOnField operator field ++ " expects a number, string or boolean"
  | .operandObject operator field => operatorOnField operator field ++ " expects a value or a list"
  | .operandNotText operator field => operatorOnField operator field ++ " expects a string"
  | .sortKind found => backquoted "sort" ++ " must be an object or string, got " ++ found.name
  | .sortDirection word field =>
    "unknown sort direction " ++ backquoted word ++ " for " ++ backquoted field
  | .sortTerm term => "malformed sort term " ++ backquoted term

/-- What was expected, in words. -/
def JoinShape.description : JoinShape → String
  | .text => "a string"
  | .boolean => "a boolean"
  | .join => "struct RawJoin"

/-- A value that was found in place of another, in words. -/
def foundText : Value → String
  | .null => "null"
  | .bool b => "boolean " ++ backquoted (boolText b)
  | .number (.integer i h) => "integer " ++ backquoted (Number.integer i h).text
  | .number (.double d) => "floating point " ++ backquoted (Number.double d).text
  | .string s => "string " ++ quoted s
  | .array _ => "sequence"
  | .object _ => "map"

/-- A fault of one item of a list of joins in words. -/
def JoinItemFault.message : JoinItemFault → String
  | .missing key => "missing field " ++ backquoted key
  | .mistyped found expected =>
    "invalid type: " ++ foundText found ++ ", expected " ++ expected.description
  | .tooFew count =>
    "invalid length " ++ toString count ++ ", expected struct RawJoin with 7 elements"
  | .tooMany count => "invalid length " ++ toString count ++ ", expected fewer elements in array"

/-- A join of a list, by position and alias. -/
def joinAt (position : Nat) (name : String) : String :=
  "join #" ++ toString position ++ " (" ++ backquoted name ++ ")"

/-- A join whose lookup lacks a key. -/
def joinLacks (lookup : Lookup) (key : String) : String :=
  "join " ++ backquoted lookup.attachAs ++ " on " ++ backquoted lookup.child ++ " requires " ++ key

/-- A fault of a list of joins in words. -/
def JoinFault.message : JoinFault → String
  | .listKind found => backquoted "joins" ++ " must be an array, got " ++ found.name
  | .item position fault => "join #" ++ toString position ++ ": " ++ fault.message
  | .bothKinds position name =>
    joinAt position name ++ " sets both " ++ backquoted "model" ++ " and " ++
      backquoted "collection"
  | .noKind position name =>
    joinAt position name ++ " sets none of " ++ backquoted "model" ++ ", " ++
      backquoted "collection" ++ ", " ++ backquoted "junctionTable"
  | .strayHop position name =>
    "junction " ++ joinAt position name ++
      " must directly follow a has-many join with the same alias"
  | .noParentKey lookup => joinLacks lookup "parentKey"
  | .noChildKey lookup => joinLacks lookup "childKey"

/-- A value that does not fit, in words. -/
def TypeFault.message : TypeFault → String
  | .noFields field found =>
    "cannot read field " ++ backquoted field ++ " of non-object " ++ found.compact
  | .notAList found => "cannot map over " ++ found.compact
  | .notADocument found => "cannot merge into non-object " ++ found.compact

/-- A fault of a plan in words. -/
def ExecutionFault.message : ExecutionFault → String
  | .unboundElement => "element referenced outside of map"
  | .invalidPattern pattern => "invalid pattern " ++ backquoted pattern

namespace QueryError

/-- An error in words. -/
def message : QueryError → String
  | .malformedClause fault => "Malformed clause: " ++ fault.message
  | .unsupportedOperator token field =>
    "Unsupported operator: " ++ backquoted token ++ " on field " ++ backquoted field
  | .invalidJoinSequence fault => "Invalid join sequence: " ++ fault.message
  | .invalidPagination key found =>
    "Invalid pagination: " ++ backquoted key ++ " must be a non-negative integer, got " ++
      found.compact
  | .nonExistence field => "No attribute " ++ backquoted field ++ " in object"
  | .typeError fault => "Type error: " ++ fault.message
  | .tableNotFound table => "Table not found: " ++ table
  | .execution fault => "Execution error: " ++ fault.message
  | .malformedJson => "JSON error: the text is not a JSON value"

/-- The descriptor itself is at fault, whatever the documents are. -/
def isCompileError : QueryError → Bool
  | .malformedClause _ => true
  | .unsupportedOperator _ _ => true
  | .invalidJoinSequence _ => true
  | .invalidPagination _ _ => true
  | .malformedJson => true
  | _ => false

end QueryError

end DocQuery
