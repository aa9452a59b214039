import DocQuery.Number.Text
import DocQuery.Text.Hex
import DocQuery.Value.Basic

set_option autoImplicit false

/-! # Values written as JSON

`Value.compact` writes without any space, `Value.pretty` with one item or field a line and two
spaces for each level. In a string only the quote, the backslash and the control characters below
U+0020 are escaped. -/

namespace DocQuery

/-- A character as it stands in a JSON string. -/
def jsonChar (c : Char) : List Char :=
  match c with
  | '"' => ['\\', '"']
  | '\\' => ['\\', '\\']
  | '\x08' => ['\\', 'b']
  | '\x0c' => ['\\', 'f']
  | '\n' => ['\\', 'n']
  | '\r' => ['\\', 'r']
  | '\t' => ['\\', 't']
  | c => if c.toNat < 0x20 then '\\' :: 'u' :: paddedHex 4 c.toNat else [c]

/-- A JSON string. -/
def jsonString (s : String) : String :=
  String.ofList ('"' :: s.toList.flatMap jsonChar ++ ['"'])

/-- The text of a truth value. -/
def boolText (b : Bool) : String :=
  if b then "true" else "false"

namespace Value

/-! ## On one line -/

mutual

/-- The value as JSON without spaces. -/
def compact : Value → String
  | .null => "null"
  | .bool b => boolText b
  | .number n => n.text
  | .string s => jsonString s
  | .array items => "[" ++ ",".intercalate (compactItems items) ++ "]"
  | .object fields => "\x7b" ++ ",".intercalate (compactFields fields) ++ "\x7d"

/-- Each item as JSON without spaces. -/
def compactItems : List Value → List String
  | [] => []
  | v :: rest => v.compact :: compactItems rest

/-- Each field as JSON without spaces: name, colon, value. -/
def compactFields : List (String × Value) → List String
  | [] => []
  | (name, v) :: rest => (jsonString name ++ ":" ++ v.compact) :: compactFields rest

end

/-! ## On several lines -/

/-- The indentation of a level. -/
def indentation (level : Nat) : String :=
  String.ofList (List.replicate (2 * level) ' ')

/-- Put `lines`, which are indented one level deeper than `level`, between two brackets. Without
    lines the brackets stand together. -/
def bracketed (opening closing : String) (level : Nat) (lines : List String) : String :=
  if lines.isEmpty then opening ++ closing
  else
    let separator := ",\n" ++ indentation (level + 1)
    opening ++ "\n" ++ indentation (level + 1) ++ separator.intercalate lines ++ "\n" ++
      indentation level ++ closing

mutual

/-- The value as JSON that starts on a line of the given level. -/
def prettyAt : Value → Nat → String
  | .null, _ => "null"
  | .bool b, _ => boolText b
  | .number n, _ => n.text
  | .string s, _ => jsonString s
  | .array items, level => bracketed "[" "]" level (prettyItems items (level + 1))
  | .object fields, level => bracketed "\x7b" "\x7d" level (prettyFields fields (level + 1))

/-- Each item as JSON on lines of the given level. -/
def prettyItems : List Value → Nat → List String
  | [], _ => []
  | v :: rest, level => v.prettyAt level :: prettyItems rest level

/-- Each field as JSON on lines of the given level. -/
def prettyFields : List (String × Value) → Nat → List String
  | [], _ => []
  | (name, v) :: rest, level =>
    (jsonString name ++ ": " ++ v.prettyAt level) :: prettyFields rest level

end

/-- The value as JSON on several lines. -/
def pretty (v : Value) : String :=
  v.prettyAt 0

end Value

end DocQuery
