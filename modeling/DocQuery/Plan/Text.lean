import DocQuery.Json.Printer
import DocQuery.Plan.Basic
import DocQuery.Text.Quoted

set_option autoImplicit false

/-! # Plans as text

`Plan.chain` writes a plan on one line, as a chain of calls from the table on. `Plan.tree` writes
one step a line, the last step first, each step above its input. Constants are written as JSON and
names as quoted text. -/

namespace DocQuery

/-- Parts separated by a comma and a space. -/
def commaList (parts : List String) : String :=
  ", ".intercalate parts

/-- The name of a comparison. -/
def Comparison.call : Comparison → String
  | .eq => "eq"
  | .ne => "ne"
  | .lt => "lt"
  | .le => "le"
  | .gt => "gt"
  | .ge => "ge"

/-- A look-up in a table by an index field, whose key is already text. -/
def lookupCall (table index key : String) : String :=
  "r.table(" ++ quoted table ++ ").getAll(" ++ key ++ ", \x7bindex: " ++ quoted index ++ "\x7d)"

namespace Expr

mutual

/-- The expression as text. -/
def text : Expr → String
  | .datum value => value.compact
  | .field .row name => "r.row(" ++ quoted name ++ ")"
  | .field .element name => "item(" ++ quoted name ++ ")"
  | .compare comparison left right =>
    left.text ++ "." ++ comparison.call ++ "(" ++ right.text ++ ")"
  | .and args => "r.and(" ++ commaList (argTexts args) ++ ")"
  | .or args => "r.or(" ++ commaList (argTexts args) ++ ")"
  | .not arg => arg.text ++ ".not()"
  | .contains collection values =>
    collection.text ++ ".contains(" ++ commaList (values.map Value.compact) ++ ")"
  | .oneOf value list =>
    "r.expr([" ++ commaList (list.map Value.compact) ++ "]).contains(" ++ value.text ++ ")"
  | .matchText subject pattern => subject.text ++ ".match(" ++ quoted pattern ++ ")"
  | .get table index key => lookupCall table index key.text ++ ".nth(0).default(null)"
  | .getAll table index key => lookupCall table index key.text ++ ".coerceTo(\"array\")"
  | .mapItems source body => source.text ++ ".map(item => " ++ body.text ++ ")"

/-- Each expression as text. -/
def argTexts : List Expr → List String
  | [] => []
  | arg :: rest => arg.text :: argTexts rest

end

end Expr

/-- The name of a direction. -/
def Direction.text : Direction → String
  | .ascending => "asc"
  | .descending => "desc"

/-- A sort key as a call. -/
def OrderKey.text (key : OrderKey) : String :=
  "r." ++ key.direction.text ++ "(" ++ quoted key.field ++ ")"

/-- A merged field: its name and its value. -/
def MergeField.text (field : MergeField) : String :=
  quoted field.name ++ ": " ++ field.value.text

/-- A number of rows in decimal. -/
def countText (count : UInt64) : String :=
  toString count.toNat

namespace Plan

/-- The plan on one line. -/
def chain : Plan → String
  | .table name => "r.table(" ++ quoted name ++ ")"
  | .get input index key =>
    input.chain ++ ".getAll(" ++ key.compact ++ ", \x7bindex: " ++ quoted index ++ "\x7d)"
  | .filter input predicate => input.chain ++ ".filter(" ++ predicate.text ++ ")"
  | .orderBy input keys => input.chain ++ ".orderBy(" ++ commaList (keys.map OrderKey.text) ++ ")"
  | .skip input count => input.chain ++ ".skip(" ++ countText count ++ ")"
  | .limit input count => input.chain ++ ".limit(" ++ countText count ++ ")"
  | .merge input fields =>
    input.chain ++ ".merge(\x7b" ++ commaList (fields.map MergeField.text) ++ "\x7d)"

/-- A sort key in a line of the tree. -/
def orderKeyLabel (key : OrderKey) : String :=
  key.field ++ " " ++ key.direction.text

/-- The lines of the tree; each step is indented two spaces more than the one above. -/
def treeLines (indent : String) : Plan → List String
  | .table name => [indent ++ "Table(" ++ name ++ ")"]
  | .get input index key =>
    (indent ++ "Get(" ++ index ++ " = " ++ key.compact ++ ")") :: treeLines (indent ++ "  ") input
  | .filter input predicate =>
    (indent ++ "Filter " ++ predicate.text) :: treeLines (indent ++ "  ") input
  | .orderBy input keys =>
    (indent ++ "OrderBy(" ++ commaList (keys.map orderKeyLabel) ++ ")") ::
      treeLines (indent ++ "  ") input
  | .skip input count =>
    (indent ++ "Skip(" ++ countText count ++ ")") :: treeLines (indent ++ "  ") input
  | .limit input count =>
    (indent ++ "Limit(" ++ countText count ++ ")") :: treeLines (indent ++ "  ") input
  | .merge input fields =>
    (indent ++ "Merge(" ++ commaList (fields.map MergeField.name) ++ ")") ::
      treeLines (indent ++ "  ") input

/-- The plan as a tree. -/
def tree (plan : Plan) : String :=
  "\n".intercalate (treeLines "" plan)

end Plan

end DocQuery
