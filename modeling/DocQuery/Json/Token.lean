import DocQuery.Number.Text
import DocQuery.Text.Hex
import DocQuery.Value.Basic

set_option autoImplicit false

/-! # JSON tokens

A JSON text is cut into brackets, separators and scalar values before its structure is read. The
cut fails on anything that is no token: a bare word, a malformed number, a string with a raw
control character, a bad escape or half a surrogate pair. -/

namespace DocQuery.Json

/-- A token of a JSON text. -/
inductive Token where
  | beginArray
  | endArray
  | beginObject
  | endObject
  | colon
  | comma
  | scalar (value : Value)

/-- Characters that may stand between tokens. -/
def isSpace (c : Char) : Bool :=
  c = ' ' ∨ c = '\t' ∨ c = '\n' ∨ c = '\r'

/-- Characters of which numbers are made. -/
def isNumberChar (c : Char) : Bool :=
  c.isDigit ∨ c = '+' ∨ c = '-' ∨ c = '.' ∨ c = 'e' ∨ c = 'E'

/-! ## Strings -/

/-- The character that a one-letter escape stands for. -/
def simpleEscape? : Char → Option Char
  | '"' => some '"'
  | '\\' => some '\\'
  | '/' => some '/'
  | 'b' => some '\x08'
  | 'f' => some '\x0c'
  | 'n' => some '\n'
  | 'r' => some '\r'
  | 't' => some '\t'
  | _ => none

/-- The character that the two halves of a surrogate pair stand for. -/
def pairedChar? (high low : Nat) : Option Char :=
  if 0xDC00 ≤ low ∧ low < 0xE000 then
    charOfCode? (0x10000 + (high - 0xD800) * 0x400 + (low - 0xDC00))
  else none

/-- Read the rest of a string after its opening quote; `read` holds the characters so far, last one
    first, and `high` the first half of a surrogate pair whose second half must come next. Returns
    the string and what follows its closing quote. -/
def readString (read : List Char) (high : Option Nat) : List Char → Option (String × List Char)
  | [] => none
  | '\\' :: 'u' :: a :: b :: c :: d :: rest => do
    let code ← natOfHex? [a, b, c, d]
    match high with
    | some first => readString ((← pairedChar? first code) :: read) none rest
    | none =>
      if 0xD800 ≤ code ∧ code < 0xDC00 then readString read (some code) rest
      else readString ((← charOfCode? code) :: read) none rest
  | '\\' :: e :: rest =>
    if high.isSome then none
    else (simpleEscape? e).bind (fun c => readString (c :: read) none rest)
  | c :: rest =>
    if high.isSome ∨ c = '\\' ∨ c.toNat < 0x20 then none
    else if c = '"' then some (String.ofList read.reverse, rest)
    else readString (c :: read) none rest

/-! ## Tokens -/

/-- The bare words and the values they stand for. -/
def word? (letters : List Char) : Option Value :=
  if letters = ['t', 'r', 'u', 'e'] then some (.bool true)
  else if letters = ['f', 'a', 'l', 's', 'e'] then some (.bool false)
  else if letters = ['n', 'u', 'l', 'l'] then some .null
  else none

/-- The first token of a text that starts with `c`, and what follows it. -/
def firstToken? (c : Char) (rest : List Char) : Option (Token × List Char) :=
  match c with
  | '[' => some (.beginArray, rest)
  | ']' => some (.endArray, rest)
  | '\x7b' => some (.beginObject, rest)
  | '\x7d' => some (.endObject, rest)
  | ':' => some (.colon, rest)
  | ',' => some (.comma, rest)
  | '"' => (readString [] none rest).map (fun (s, rest) => (.scalar (.string s), rest))
  | c =>
    if isNumberChar c then
      (Number.ofChars? (c :: rest.takeWhile isNumberChar)).map
        (fun n => (.scalar (.number n), rest.dropWhile isNumberChar))
    else
      (word? (c :: rest.takeWhile Char.isAlpha)).map
        (fun v => (.scalar v, rest.dropWhile Char.isAlpha))

/-- The tokens of a text; `read` holds the tokens so far, last one first. Every token takes at least
    one character, so the length of the text is fuel enough. -/
def tokensFrom (read : List Token) : Nat → List Char → Option (List Token)
  | _, [] => some read.reverse
  | 0, _ :: _ => none
  | fuel + 1, c :: rest =>
    if isSpace c then tokensFrom read fuel rest
    else (firstToken? c rest).bind (fun (token, rest) => tokensFrom (token :: read) fuel rest)

/-- The tokens of a text. -/
def tokens? (text : List Char) : Option (List Token) :=
  tokensFrom [] text.length text

end DocQuery.Json
