set_option autoImplicit false

/-! # Text patterns

A pattern is a sequence of atoms: a character that stands for itself, a wildcard for one character,
a wildcard for a run, and the two anchors. `Pattern.ofText?` reads the written form, and
`Pattern.occursIn` says what it is to have a match at some place of a text. Both wildcards stop at
line feeds; the anchors are the ends of the whole text only. -/

namespace DocQuery

/-- One element of a pattern. -/
inductive Atom where
  /-- This character. -/
  | char (c : Char)
  /-- One character other than a line feed. -/
  | any
  /-- A run of characters other than line feeds, possibly empty. -/
  | anyRun
  /-- The start of the text. -/
  | start
  /-- The end of the text. -/
  | finish
deriving DecidableEq

namespace Pattern

/-! ## The written form -/

/-- Characters with a meaning of their own in the written form; they stand for themselves only
    after a backslash. -/
def isSpecial (c : Char) : Bool :=
  ['\\', '.', '+', '*', '?', '(', ')', '|', '[', ']', '\x7b', '\x7d', '^', '$', '#', '&', '-',
    '~'].contains c

/-- Characters that may be escaped by a backslash. -/
def isEscapable (c : Char) : Bool :=
  c.toNat < 128 && !c.isAlphanum && c != '<' && c != '>'

/-- Characters that start a construct which patterns do not have: they are refused where they stand
    without a backslash. -/
def isRefused (c : Char) : Bool :=
  ['+', '*', '?', '(', ')', '|', '[', '\x7b', '\\'].contains c

/-- Read the written form of a pattern. -/
def ofChars? : List Char → Option (List Atom)
  | [] => some []
  | '\\' :: c :: rest =>
    if isEscapable c then (ofChars? rest).map (.char c :: ·) else none
  | '.' :: '*' :: rest => (ofChars? rest).map (.anyRun :: ·)
  | '.' :: rest => (ofChars? rest).map (.any :: ·)
  | '^' :: rest => (ofChars? rest).map (.start :: ·)
  | '$' :: rest => (ofChars? rest).map (.finish :: ·)
  | c :: rest => if isRefused c then none else (ofChars? rest).map (.char c :: ·)

/-- Read the written form of a pattern. -/
def ofText? (text : String) : Option (List Atom) :=
  ofChars? text.toList

/-! ## Matching -/

/-- Skip a run of characters other than line feeds, of any length, so that `rest` accepts what is
    left. -/
def skipRun (rest : Bool → List Char → Bool) (atStart : Bool) : List Char → Bool
  | [] => rest atStart []
  | c :: cs => rest atStart (c :: cs) || (c != '\n' && skipRun rest false cs)

/-- The atoms match a beginning of `text`; `atStart` tells that nothing stands before it. -/
def matchesHere : List Atom → Bool → List Char → Bool
  | [], _, _ => true
  | .char a :: atoms, _, text =>
    match text with
    | [] => false
    | c :: rest => c == a && matchesHere atoms false rest
  | .any :: atoms, _, text =>
    match text with
    | [] => false
    | c :: rest => c != '\n' && matchesHere atoms false rest
  | .anyRun :: atoms, atStart, text => skipRun (matchesHere atoms) atStart text
  | .start :: atoms, atStart, text => atStart && matchesHere atoms atStart text
  | .finish :: atoms, atStart, text => text.isEmpty && matchesHere atoms atStart text

/-- The atoms match at `text` or at some later place. -/
def occursFrom (atoms : List Atom) (atStart : Bool) : List Char → Bool
  | [] => matchesHere atoms atStart []
  | c :: rest => matchesHere atoms atStart (c :: rest) || occursFrom atoms false rest

/-- The atoms match somewhere in `text`. -/
def occursIn (atoms : List Atom) (text : String) : Bool :=
  occursFrom atoms true text.toList

end Pattern

end DocQuery
