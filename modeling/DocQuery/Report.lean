import DocQuery.Plan.Json
import DocQuery.Plan.Text

set_option autoImplicit false

/-! # Reports of plans and rows

A report is written in one of four formats. As a table, rows stand in columns of one width each,
one column for every field name that occurs, in order of first occurrence; as lines, each field of
a row stands on a line of its own. The other two are JSON, on one line and on several. -/

namespace DocQuery

/-- The formats of a report. -/
inductive Format where
  | table
  | json
  | jsonPretty
  | line
deriving DecidableEq

namespace Format

/-- The format of the given name, in any letter case. Other names mean JSON on several lines. -/
def ofName (name : String) : Format :=
  let lower := String.ofList (name.toList.map Char.toLower)
  if lower = "json" then .json
  else if lower = "table" then .table
  else if lower = "line" then .line
  else .jsonPretty

/-- The name of a format. -/
def name : Format → String
  | .table => "Table"
  | .json => "Json"
  | .jsonPretty => "JsonPretty"
  | .line => "Line"

end Format

/-! ## Styles -/

/-- The styles that a terminal can show. -/
inductive Style where
  | dimmed
  | cyan
  | boldCyan
  | boldRed

/-- The sequence that switches a style on. -/
def Style.sequence : Style → List Char
  | .dimmed => ['\x1b', '[', '2', 'm']
  | .cyan => ['\x1b', '[', '3', '6', 'm']
  | .boldCyan => ['\x1b', '[', '1', ';', '3', '6', 'm']
  | .boldRed => ['\x1b', '[', '1', ';', '3', '1', 'm']

/-- The sequence that switches every style off. -/
def resetSequence : List Char :=
  ['\x1b', '[', '0', 'm']

/-- Switch the style on again wherever the text itself switches every style off. -/
def restyled (style : Style) : List Char → List Char
  | [] => []
  | '\x1b' :: '[' :: '0' :: 'm' :: rest => resetSequence ++ style.sequence ++ restyled style rest
  | c :: rest => c :: restyled style rest

/-- The text in a style, if colors are on. -/
def styled (color : Bool) (style : Style) (s : String) : String :=
  if color then String.ofList (style.sequence ++ restyled style s.toList ++ resetSequence) else s

/-! ## Cells -/

mutual

/-- A value as it stands in a cell: texts without quotes, and names of fields too. -/
def Value.display : Value → String
  | .null => "null"
  | .bool b => boolText b
  | .number n => n.text
  | .string s => s
  | .array items => "[" ++ commaList (displayItems items) ++ "]"
  | .object fields => "\x7b" ++ commaList (displayFields fields) ++ "\x7d"

/-- Each item as it stands in a cell. -/
def displayItems : List Value → List String
  | [] => []
  | v :: rest => v.display :: displayItems rest

/-- Each field as it stands in a cell. -/
def displayFields : List (String × Value) → List String
  | [] => []
  | (name, v) :: rest => (name ++ ": " ++ v.display) :: displayFields rest

end

/-! ## Tables -/

/-- The names of the fields of a row. -/
def fieldNames : Value → List String
  | .object fields => fields.map Prod.fst
  | _ => []

/-- Add the names that are not there yet. -/
def addColumns (columns names : List String) : List String :=
  names.foldl (fun columns name => if columns.contains name then columns else columns ++ [name])
    columns

/-- The field names that occur in the rows, in order of first occurrence. -/
def tableColumns (rows : List Value) : List String :=
  rows.foldl (fun columns row => addColumns columns (fieldNames row)) []

/-- The text of a row in a column. -/
def cellText (row : Value) (column : String) : String :=
  match row.field? column with
  | some v => v.display
  | none => ""

/-- The number of characters that a column needs. -/
def columnWidth (rows : List Value) (column : String) : Nat :=
  rows.foldl (fun width row => max width (cellText row column).length) column.length

/-- The text with blanks up to `width`, between two more. -/
def padded (width : Nat) (s : String) : String :=
  String.ofList (' ' :: s.toList ++ List.replicate (width - s.length) ' ' ++ [' '])

/-- The line between the parts of a table. -/
def tableRule (widths : List Nat) : String :=
  "+" ++ "+".intercalate (widths.map (fun w => String.ofList (List.replicate (w + 2) '-'))) ++ "+"

/-- A line of a table. -/
def tableLine (cells : List String) : String :=
  "|" ++ "|".intercalate cells ++ "|"

/-- The lines of the table of the rows. -/
def tableLines (color : Bool) (rows : List Value) : List String :=
  let columns := tableColumns rows
  let widths := columns.map (columnWidth rows)
  let rule := tableRule widths
  let header := (columns.zip widths).map (fun (c, w) => styled color .boldCyan (padded w c))
  let line (row : Value) : String :=
    tableLine ((columns.zip widths).map (fun (c, w) => padded w (cellText row c)))
  rule :: tableLine header :: rule :: rows.map line ++ [rule]

/-! ## Lines -/

/-- The line between two rows. -/
def rowSeparator : String :=
  String.ofList (List.replicate 40 '-')

/-- The lines of one row. -/
def rowLines (color : Bool) : Value → List String
  | .object fields => fields.map (fun (name, v) => styled color .cyan name ++ ": " ++ v.display)
  | _ => []

/-- The lines of the rows. -/
def lineReport (color : Bool) : List Value → List String
  | [] => []
  | [row] => rowLines color row
  | row :: rest => rowLines color row ++ rowSeparator :: lineReport color rest

/-! ## Reports -/

/-- A report of rows. -/
def reportRows (format : Format) (color : Bool) (rows : List Value) : String :=
  match format with
  | .json => (Value.array rows).compact
  | .jsonPretty => (Value.array rows).pretty
  | .table =>
    if rows.isEmpty then styled color .dimmed "No documents found."
    else "\n".intercalate (tableLines color rows)
  | .line =>
    if rows.isEmpty then styled color .dimmed "No documents found."
    else "\n".intercalate (lineReport color rows)

/-- A report of a plan: as JSON, or the tree with the chain below it. -/
def reportPlan (format : Format) (color : Bool) (plan : Plan) : String :=
  match format with
  | .json => plan.toValue.compact
  | .jsonPretty => plan.toValue.pretty
  | .table | .line => plan.tree ++ "\n\n" ++ styled color .dimmed plan.chain

/-- A report of an error. -/
def reportError (color : Bool) (message : String) : String :=
  styled color .boldRed "Error:" ++ " " ++ message

end DocQuery
