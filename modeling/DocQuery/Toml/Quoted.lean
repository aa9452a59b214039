import DocQuery.Text.Hex

set_option autoImplicit false

/-! # Strings of a settings file, written

A string is written in the plainest form that can hold it: in double quotes if nothing needs an
escape, then in single quotes, then over several lines with three double or three single quotes, and
only if none of these will do with escapes. -/

namespace DocQuery.Toml

/-- A control character other than a tab or a line feed. -/
def isControl (c : Char) : Bool :=
  (c.toNat < 0x20 || c.toNat = 0x7f) && c != '\t' && c != '\n'

/-- The length of the longest run of `c`; `current` is the length of the run at hand. -/
def longestRun (c : Char) (current longest : Nat) : List Char → Nat
  | [] => longest
  | d :: rest =>
    if d = c then longestRun c (current + 1) (max longest (current + 1)) rest
    else longestRun c 0 longest rest

/-- The ways to write a string. -/
inductive StringForm where
  /-- Between double quotes. -/
  | basic
  /-- Between single quotes, without escapes. -/
  | literal
  /-- Between three double quotes. -/
  | basicLines
  /-- Between three single quotes, without escapes. -/
  | literalLines
deriving DecidableEq

/-- The form to write a string in. -/
def StringForm.of (chars : List Char) : StringForm :=
  let control := chars.any isControl
  let breaks := chars.contains '\n'
  let backslash := chars.contains '\\'
  let doubles := longestRun '"' 0 0 chars
  let singles := longestRun '\'' 0 0 chars
  if ¬ control ∧ ¬ backslash ∧ doubles = 0 ∧ ¬ breaks then .basic
  else if ¬ control ∧ singles = 0 ∧ ¬ breaks then .literal
  else if ¬ control ∧ ¬ backslash ∧ doubles ≤ 2 then .basicLines
  else if ¬ control ∧ singles ≤ 2 then .literalLines
  else if breaks then .basicLines
  else .basic

/-- A character other than a double quote inside double quotes; a line feed is kept where the form
    has several lines. -/
def escapedChar (keepBreaks : Bool) (c : Char) : List Char :=
  match c with
  | '\x08' => ['\\', 'b']
  | '\t' => ['\\', 't']
  | '\n' => if keepBreaks then ['\n'] else ['\\', 'n']
  | '\x0c' => ['\\', 'f']
  | '\r' => ['\\', 'r']
  | '\\' => ['\\', '\\']
  | c =>
    if isControl c then '\\' :: 'u' :: (paddedHex 4 c.toNat).map Char.toUpper else [c]

/-- The characters of a string inside double quotes. A run of more than `allowed` double quotes is
    broken by an escape; `run` is the length of the run at hand. -/
def escapedChars (keepBreaks : Bool) (allowed run : Nat) : List Char → List Char
  | [] => []
  | c :: rest =>
    if c = '"' then
      if run < allowed then '"' :: escapedChars keepBreaks allowed (run + 1) rest
      else '\\' :: '"' :: escapedChars keepBreaks allowed 0 rest
    else
      let escaped := escapedChar keepBreaks c
      escaped ++ escapedChars keepBreaks allowed 0 rest

/-- A string as it is written. Forms of several lines start on a new line if the string has a line
    feed. -/
def quotedText (s : String) : String :=
  let chars := s.toList
  let newLine := if chars.contains '\n' then ['\n'] else []
  String.ofList <|
    match StringForm.of chars with
    | .basic => '"' :: escapedChars false 0 0 chars ++ ['"']
    | .literal => '\'' :: chars ++ ['\'']
    | .basicLines =>
      ['"', '"', '"'] ++ newLine ++ escapedChars true 2 0 chars ++ ['"', '"', '"']
    | .literalLines => ['\'', '\'', '\''] ++ newLine ++ chars ++ ['\'', '\'', '\'']

end DocQuery.Toml
