import DocQuery.Toml.Scalar

set_option autoImplicit false

/-! # Reading a settings file

The file is read character by character: blank lines and comments, headers in brackets, and keys
with their values. Arrays and inline tables may be nested to a fixed depth. The functions that go
round in a loop take the length of the text as fuel: each turn takes at least one character. -/

namespace DocQuery.Toml

/-- Arrays and inline tables may not be nested this deep, and a dotted key may not have so many
    parts. -/
def depthLimit : Nat := 80

/-! ## Blanks and comments -/

/-- A space or a tab. -/
def isWhite (c : Char) : Bool :=
  c = ' ' ∨ c = '\t'

/-- Drop spaces and tabs. -/
def dropWhite (chars : List Char) : List Char :=
  chars.dropWhile isWhite

/-- A character that may stand in a comment or in a literal string: no control character but the
    tab. -/
def isPlain (c : Char) : Bool :=
  c = '\t' ∨ (0x20 ≤ c.toNat ∧ c.toNat ≠ 0x7f)

/-- What follows a line break in front of the text. -/
def dropLineBreak? : List Char → Option (List Char)
  | '\n' :: rest => some rest
  | '\r' :: '\n' :: rest => some rest
  | _ => none

/-- Drop a comment, if there is one. -/
def dropComment : List Char → List Char
  | '#' :: rest => rest.dropWhile isPlain
  | chars => chars

/-- What follows the end of a line: blanks, a comment and a line break, or the end of the text. -/
def endLine? (chars : List Char) : Option (List Char) :=
  match dropComment (dropWhite chars) with
  | [] => some []
  | rest => dropLineBreak? rest

/-- Drop blanks, comments and line breaks. -/
def dropGap : Nat → List Char → List Char
  | 0, chars => chars
  | fuel + 1, chars =>
    let rest := dropComment (dropWhite chars)
    match dropLineBreak? rest with
    | some later => dropGap fuel later
    | none => rest

/-! ## Strings -/

/-- The character that a one-letter escape stands for. -/
def simpleEscape? : Char → Option Char
  | 'b' => some '\x08'
  | 't' => some '\t'
  | 'n' => some '\n'
  | 'f' => some '\x0c'
  | 'r' => some '\r'
  | '"' => some '"'
  | '\\' => some '\\'
  | _ => none

/-- Read an escape after its backslash. Returns the character and what follows. -/
def readEscape : List Char → Option (Char × List Char)
  | 'u' :: a :: b :: c :: d :: rest =>
    ((natOfHex? [a, b, c, d]).bind charOfCode?).map (·, rest)
  | 'U' :: a :: b :: c :: d :: e :: f :: g :: h :: rest =>
    ((natOfHex? [a, b, c, d, e, f, g, h]).bind charOfCode?).map (·, rest)
  | e :: rest => (simpleEscape? e).map (·, rest)
  | [] => none

/-- Read the rest of a string on one line, with escapes, after its opening quote; `read` holds the
    characters so far, last one first. -/
def readBasic (read : List Char) : Nat → List Char → Option (String × List Char)
  | 0, _ => none
  | _ + 1, [] => none
  | fuel + 1, '\\' :: rest =>
    (readEscape rest).bind (fun (c, rest) => readBasic (c :: read) fuel rest)
  | fuel + 1, c :: rest =>
    if c = '"' then some (String.ofList read.reverse, rest)
    else if isPlain c then readBasic (c :: read) fuel rest
    else none

/-- Read the rest of a string on one line without escapes, after its opening quote. -/
def readLiteral (chars : List Char) : Option (String × List Char) :=
  let text := chars.takeWhile (fun c => c ≠ '\'' ∧ isPlain c)
  match chars.dropWhile (fun c => c ≠ '\'' ∧ isPlain c) with
  | c :: rest => if c = '\'' then some (String.ofList text, rest) else none
  | [] => none

/-- What a run of quotes inside a string of several lines means: one or two are text; three to five
    end the string, and those before the last three are text. -/
def quoteRun (length : Nat) : Option (Nat × Bool) :=
  if length < 3 then some (length, false)
  else if length < 6 then some (length - 3, true)
  else none

/-- Drop blanks and line breaks. -/
def dropBlankLines : Nat → List Char → List Char
  | 0, chars => chars
  | fuel + 1, chars =>
    match dropLineBreak? (dropWhite chars) with
    | some later => dropBlankLines fuel later
    | none => dropWhite chars

/-- Read the rest of a string of several lines after its opening quotes. `quote` is the quote, and
    `escapes` tells whether a backslash has a meaning: an escape, or at the end of a line that the
    blanks up to the next text are no text. Line breaks are read as line feeds. -/
def readLines (quote : Char) (escapes : Bool) (read : List Char) :
    Nat → List Char → Option (String × List Char)
  | 0, _ => none
  | _ + 1, [] => none
  | fuel + 1, c :: rest =>
    if c = quote then
      let run := (c :: rest).takeWhile (· = quote)
      let later := (c :: rest).dropWhile (· = quote)
      match quoteRun run.length with
      | none => none
      | some (kept, ends) =>
        let read := List.replicate kept quote ++ read
        if ends then some (String.ofList read.reverse, later)
        else readLines quote escapes read fuel later
    else if escapes ∧ c = '\\' then
      match dropLineBreak? (dropWhite rest) with
      | some later => readLines quote escapes read fuel (dropBlankLines later.length later)
      | none =>
        (readEscape rest).bind (fun (c, rest) => readLines quote escapes (c :: read) fuel rest)
    else
      match dropLineBreak? (c :: rest) with
      | some later => readLines quote escapes ('\n' :: read) fuel later
      | none => if isPlain c then readLines quote escapes (c :: read) fuel rest else none

/-- Read a string of several lines after its opening quotes; a line break right after them is no
    text. -/
def readLinesFrom (quote : Char) (escapes : Bool) (chars : List Char) :
    Option (String × List Char) :=
  readLines quote escapes [] (chars.length + 1) ((dropLineBreak? chars).getD chars)

/-- Read a string on one line. -/
def readOneLine : List Char → Option (String × List Char)
  | '"' :: rest => readBasic [] (rest.length + 1) rest
  | '\'' :: rest => readLiteral rest
  | _ => none

/-- Read a string. -/
def readString : List Char → Option (String × List Char)
  | '"' :: '"' :: '"' :: rest => readLinesFrom '"' true rest
  | '\'' :: '\'' :: '\'' :: rest => readLinesFrom '\'' false rest
  | chars => readOneLine chars

/-! ## Keys -/

/-- Characters of a key that is not quoted. -/
def isBareKeyChar (c : Char) : Bool :=
  c.isAlphanum || c = '_' || c = '-'

/-- Read one part of a key. -/
def readKeyPart (chars : List Char) : Option (String × List Char) :=
  match readOneLine chars with
  | some part => some part
  | none =>
    let name := chars.takeWhile isBareKeyChar
    if name = [] then none else some (String.ofList name, chars.dropWhile isBareKeyChar)

/-- Read the parts of a key between dots, with the blanks around them. -/
def readKeyParts : Nat → List Char → Option (List String × List Char)
  | 0, _ => none
  | fuel + 1, chars => do
    let (part, rest) ← readKeyPart (dropWhite chars)
    match dropWhite rest with
    | '.' :: rest =>
      let (parts, rest) ← readKeyParts fuel rest
      return (part :: parts, rest)
    | rest => return ([part], rest)

/-- Read a key: the parts before the last, the last part, and what follows. -/
def readKey (chars : List Char) : Option (List String × String × List Char) := do
  let (parts, rest) ← readKeyParts (chars.length + 1) chars
  if depthLimit ≤ parts.length then none
  else
    let key ← parts.getLast?
    return (parts.dropLast, key, rest)

/-! ## Values -/

mutual

/-- Read a value inside `depth` arrays and inline tables. -/
def readValue : Nat → Nat → List Char → Option (Value × List Char)
  | 0, _, _ => none
  | _ + 1, _, [] => none
  | fuel + 1, depth, c :: rest =>
    if c = '"' ∨ c = '\'' then (readString (c :: rest)).map (fun (s, rest) => (.string s, rest))
    else if c = '[' then
      if depth + 1 < depthLimit then
        (readItems fuel (depth + 1) rest).map (fun (items, rest) => (.array items, rest))
      else none
    else if c = '\x7b' then
      if depth + 1 < depthLimit then readInlineTable fuel (depth + 1) rest
      else none
    else readScalar (c :: rest)

/-- Read the items of an array up to its end; a comma may follow the last one. -/
def readItems : Nat → Nat → List Char → Option (List Value × List Char)
  | 0, _, _ => none
  | fuel + 1, depth, chars =>
    match dropGap chars.length chars with
    | ']' :: rest => some ([], rest)
    | chars => do
      let (item, rest) ← readValue fuel depth chars
      match dropGap rest.length rest with
      | ']' :: rest => return ([item], rest)
      | ',' :: rest =>
        let (items, rest) ← readItems fuel depth rest
        return (item :: items, rest)
      | _ => none

/-- Read the rest of an inline table after its opening brace. -/
def readInlineTable : Nat → Nat → List Char → Option (Value × List Char)
  | 0, _, _ => none
  | fuel + 1, depth, chars =>
    match dropWhite chars with
    | '\x7d' :: rest => some (.table [], rest)
    | chars => do
      let (entries, rest) ← readPairs fuel depth [] chars
      return (.table (entryValues entries), rest)

/-- Read the pairs of an inline table up to its end and add them to `entries`. No comma may follow
    the last one. -/
def readPairs : Nat → Nat → Assoc Node → List Char → Option (Assoc Node × List Char)
  | 0, _, _, _ => none
  | fuel + 1, depth, entries, chars => do
    let (path, key, rest) ← readKey chars
    match rest with
    | '=' :: rest =>
      let (value, rest) ← readValue fuel depth (dropWhite rest)
      let entries ← addDotted path key value entries
      match dropWhite rest with
      | '\x7d' :: rest => return (entries, rest)
      | ',' :: rest => readPairs fuel depth entries rest
      | _ => none
    | _ => none

end

/-! ## Lines -/

/-- The file as read so far: its tables, and the header of the section at hand. -/
structure Progress where
  root : Assoc Node := []
  header : List String := []

/-- Read a header after its opening bracket, and the rest of its line. -/
def readHeader (progress : Progress) (chars : List Char) : Option (Progress × List Char) := do
  let (path, key, rest) ← readKey chars
  match rest with
  | ']' :: rest =>
    let root ← openTable path key progress.root
    return (⟨root, path ++ [key]⟩, ← endLine? rest)
  | _ => none

/-- Read the header of an item of an array of tables after its opening brackets, and the rest of its
    line. -/
def readItemHeader (progress : Progress) (chars : List Char) : Option (Progress × List Char) := do
  let (path, key, rest) ← readKey chars
  match rest with
  | ']' :: ']' :: rest =>
    let root ← openItem path key progress.root
    return (⟨root, path ++ [key]⟩, ← endLine? rest)
  | _ => none

/-- Read a key with its value, and the rest of its line. -/
def readPair (progress : Progress) (chars : List Char) : Option (Progress × List Char) := do
  let (path, key, rest) ← readKey chars
  match rest with
  | '=' :: rest =>
    let (value, rest) ← readValue (rest.length + 1) 0 (dropWhite rest)
    let root ← addToSection progress.header path key value progress.root
    return (⟨root, progress.header⟩, ← endLine? rest)
  | _ => none

/-- Read lines to the end of the text. -/
def readSections (progress : Progress) : Nat → List Char → Option Progress
  | fuel, chars =>
    match dropGap chars.length chars, fuel with
    | [], _ => some progress
    | _ :: _, 0 => none
    | '[' :: '[' :: rest, fuel + 1 =>
      (readItemHeader progress rest).bind (fun (progress, rest) => readSections progress fuel rest)
    | '[' :: rest, fuel + 1 =>
      (readHeader progress rest).bind (fun (progress, rest) => readSections progress fuel rest)
    | rest, fuel + 1 =>
      (readPair progress rest).bind (fun (progress, rest) => readSections progress fuel rest)

/-- Read a settings file. A byte order mark in front of it has no meaning. -/
def parse? (text : String) : Option (Assoc Value) :=
  let chars := match text.toList with
    | '\ufeff' :: rest => rest
    | chars => chars
  (readSections {} (chars.length + 1) chars).map (fun progress => entryValues progress.root)

end DocQuery.Toml
