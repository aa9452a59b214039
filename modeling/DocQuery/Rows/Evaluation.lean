import DocQuery.Error
import DocQuery.Pattern.Library
import DocQuery.Plan.Expr
import DocQuery.Value.Order

set_option autoImplicit false

/-! # Evaluation of expressions

`Expr.evaluate` gives the value of an expression for a row. Reading a field that the row does not
have is an error; it counts as false for an argument of `and` and `or` and for a predicate as a
whole, drops an item of a map, and goes through every other expression. -/

namespace DocQuery

variable [PatternLibrary]

/-- Tables by name. -/
abbrev Tables := Assoc (List Value)

/-- What an expression may refer to: the row, and within a map the element. -/
structure Scope where
  row : Value
  element : Option Value := none

/-- The value that a binding stands for. -/
def Scope.resolve (scope : Scope) : Binding → Except QueryError Value
  | .row => .ok scope.row
  | .element =>
    match scope.element with
    | some v => .ok v
    | none => .error (.execution .unboundElement)

/-- The value of the field `name` of `target`. Null has no fields, and other values than objects
    cannot have any. -/
def readField (name : String) : Value → Except QueryError Value
  | .object fields =>
    match fields.lookup name with
    | some v => .ok v
    | none => .error (.nonExistence name)
  | .null => .error (.nonExistence name)
  | target => .error (.typeError (.noFields name target))

/-- The comparison holds. Values that cannot be compared satisfy no order. -/
def Comparison.holds (comparison : Comparison) (left right : Value) : Bool :=
  match comparison with
  | .eq => left.equals right
  | .ne => !left.equals right
  | .lt => left.compare? right == some .lt
  | .le => left.compare? right == some .lt || left.compare? right == some .eq
  | .gt => left.compare? right == some .gt
  | .ge => left.compare? right == some .gt || left.compare? right == some .eq

/-- The collection is an array that holds all of the values. -/
def containsAll (values : List Value) : Value → Bool
  | .array items => values.all (fun v => items.any (·.equals v))
  | _ => false

/-- The value is a text in which the pattern is found. The library must not refuse the pattern,
    whatever the value is. -/
def patternHolds (pattern : String) (subject : Value) : Except QueryError Value :=
  match PatternLibrary.search? pattern with
  | none => .error (.execution (.invalidPattern pattern))
  | some search =>
    match subject with
    | .string s => .ok (.bool (search s))
    | _ => .ok (.bool false)

/-- The row has the index field, and its value equals the key. -/
def hasIndexKey (index : String) (key row : Value) : Bool :=
  match row.field? index with
  | some v => v.equals key
  | none => false

/-- The rows of a table whose index field equals the key. -/
def lookupRows (tables : Tables) (table index : String) (key : Value) :
    Except QueryError (List Value) :=
  match tables.lookup table with
  | none => .error (.tableNotFound table)
  | some rows => .ok (rows.filter (hasIndexKey index key))

/-- The result as a truth value; a missing field makes it false. -/
def holdsIfPresent : Except QueryError Value → Except QueryError Bool
  | .ok v => .ok v.isTruthy
  | .error (.nonExistence _) => .ok false
  | .error e => .error e

/-- The results for the items, without the items that lack a field. -/
def mapPresent (f : Value → Except QueryError Value) :
    List Value → Except QueryError (List Value)
  | [] => .ok []
  | item :: rest =>
    match f item with
    | .ok v => (mapPresent f rest).map (v :: ·)
    | .error (.nonExistence _) => mapPresent f rest
    | .error e => .error e

namespace Expr

mutual

/-- The value of an expression. -/
def evaluate (tables : Tables) : Expr → Scope → Except QueryError Value
  | .datum value, _ => .ok value
  | .field binding name, scope => do
    let target ← scope.resolve binding
    readField name target
  | .compare comparison left right, scope => do
    let l ← left.evaluate tables scope
    let r ← right.evaluate tables scope
    return .bool (comparison.holds l r)
  | .and args, scope => (everyHolds tables args scope).map .bool
  | .or args, scope => (someHolds tables args scope).map .bool
  | .not arg, scope => do
    let v ← arg.evaluate tables scope
    return .bool (!v.isTruthy)
  | .contains collection values, scope => do
    let v ← collection.evaluate tables scope
    return .bool (containsAll values v)
  | .oneOf value list, scope => do
    let v ← value.evaluate tables scope
    return .bool (list.any (·.equals v))
  | .matchText subject pattern, scope => do
    let v ← subject.evaluate tables scope
    patternHolds pattern v
  | .get table index key, scope => do
    let k ← key.evaluate tables scope
    let rows ← lookupRows tables table index k
    return rows.head?.getD .null
  | .getAll table index key, scope => do
    let k ← key.evaluate tables scope
    let rows ← lookupRows tables table index k
    return .array rows
  | .mapItems source body, scope => do
    match ← source.evaluate tables scope with
    | .array items =>
      let values ← mapPresent (fun item => body.evaluate tables ⟨scope.row, some item⟩) items
      return .array values
    | v => throw (.typeError (.notAList v))

/-- Every expression holds. The first one that does not decides. -/
def everyHolds (tables : Tables) : List Expr → Scope → Except QueryError Bool
  | [], _ => .ok true
  | arg :: rest, scope => do
    if ← holdsIfPresent (arg.evaluate tables scope) then everyHolds tables rest scope
    else return false

/-- Some expression holds. The first one that does decides. -/
def someHolds (tables : Tables) : List Expr → Scope → Except QueryError Bool
  | [], _ => .ok false
  | arg :: rest, scope => do
    if ← holdsIfPresent (arg.evaluate tables scope) then return true
    else someHolds tables rest scope

end

/-- The expression holds of the row. -/
def accepts (predicate : Expr) (tables : Tables) (row : Value) : Except QueryError Bool :=
  holdsIfPresent (predicate.evaluate tables ⟨row, none⟩)

end Expr

end DocQuery
