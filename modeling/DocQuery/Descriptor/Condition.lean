import DocQuery.Error

set_option autoImplicit false

/-! # Reading the condition on a field

A condition is written as a value the field must equal, a list of values one of which it must
equal, or an object whose first key is an operator; later keys of that object have no meaning. -/

namespace DocQuery.Condition

/-- The operand of an order operator: a number, a text or a truth value. -/
def comparableOperand (operator : Operator) (field : String) (operand : Value) :
    Except QueryError Value :=
  match operand with
  | .bool _ => .ok operand
  | .number _ => .ok operand
  | .string _ => .ok operand
  | _ => .error (.malformedClause (.operandNotComparable operator field))

/-- The operand of a text operator. -/
def textOperand (operator : Operator) (field : String) (operand : Value) :
    Except QueryError String :=
  match operand with
  | .string s => .ok s
  | _ => .error (.malformedClause (.operandNotText operator field))

/-- The condition of an operator and its operand. -/
def ofOperator (operator : Operator) (field : String) (operand : Value) :
    Except QueryError Condition :=
  match operator with
  | .lessThan => (comparableOperand operator field operand).map .less
  | .lessThanOrEqual => (comparableOperand operator field operand).map .lessOrEqual
  | .greaterThan => (comparableOperand operator field operand).map .greater
  | .greaterThanOrEqual => (comparableOperand operator field operand).map .greaterOrEqual
  | .not =>
    match operand with
    | .array items => .ok (.noneOf items)
    | .object _ => .error (.malformedClause (.operandObject operator field))
    | _ => .ok (.notEqual operand)
  | .contains =>
    match operand with
    | .array items => .ok (.contains items)
    | .object _ => .error (.malformedClause (.operandObject operator field))
    | _ => .ok (.contains [operand])
  | .like => (textOperand operator field operand).map .like
  | .startsWith => (textOperand operator field operand).map .startsWith
  | .endsWith => (textOperand operator field operand).map .endsWith

/-- Read the condition on `field`. -/
def ofValue (field : String) (value : Value) : Except QueryError Condition :=
  match value with
  | .array items => .ok (.oneOf items)
  | .object [] => .error (.malformedClause (.conditionEmpty field))
  | .object ((token, operand) :: _) =>
    match Operator.ofToken? token with
    | none => .error (.unsupportedOperator token field)
    | some operator => ofOperator operator field operand
  | _ => .ok (.equal value)

end DocQuery.Condition
