import DocQuery.Descriptor.Condition

set_option autoImplicit false

/-! # Reading a filter clause

A clause is written as an object. The keys `or` and `and` hold lists of clauses, at least one each;
every other key is the name of a field. Keys are read in order and the first fault is reported. -/

namespace DocQuery.Clause

/-- The group that a key of a clause stands for, if it is not the name of a field. -/
def groupKey? (key : String) : Option GroupKey :=
  if key = "or" then some .or else if key = "and" then some .and else none

/-- The entry for a list of clauses. -/
def groupEntry : GroupKey → List Clause → Entry
  | .or, clauses => .anyOf clauses
  | .and, clauses => .allOf clauses

mutual

/-- Read the entry under a key of a clause. -/
def entryOfValue (key : String) : Value → Except QueryError Entry
  | .array items =>
    match groupKey? key with
    | some group =>
      match items with
      | [] => .error (.malformedClause (.groupEmpty group))
      | first :: rest => do
        let clauses ← membersOfValues group 0 (first :: rest)
        return groupEntry group clauses
    | none => (Condition.ofValue key (.array items)).map (.field key)
  | value =>
    match groupKey? key with
    | some group => .error (.malformedClause (.groupKind group value.kind))
    | none => (Condition.ofValue key value).map (.field key)

/-- Read the entries of a clause. -/
def ofFields : List (String × Value) → Except QueryError Clause
  | [] => .ok []
  | (key, value) :: rest => do
    let entry ← entryOfValue key value
    let entries ← ofFields rest
    return entry :: entries

/-- Read the clauses of a group, the first of which is at `position`. -/
def membersOfValues (group : GroupKey) (position : Nat) :
    List Value → Except QueryError (List Clause)
  | [] => .ok []
  | .object fields :: rest => do
    let clause ← ofFields fields
    let clauses ← membersOfValues group (position + 1) rest
    return clause :: clauses
  | value :: _ => .error (.malformedClause (.memberKind group position value.kind))

end

/-- Read the filter of a descriptor; `null` is no filter. -/
def filterOfValue : Value → Except QueryError (Option Clause)
  | .null => .ok none
  | .object fields => (ofFields fields).map some
  | value => .error (.malformedClause (.filterKind value.kind))

end DocQuery.Clause
