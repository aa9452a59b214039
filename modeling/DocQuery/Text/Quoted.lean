import DocQuery.Text.Hex
import DocQuery.Text.Unprintable

set_option autoImplicit false

/-! # Quoted text

A text between double quotes in which the reader can see every character: quotes and backslashes
are escaped, and so are the characters that have no visible form or that would join the one before
them. -/

namespace DocQuery

/-- A character as it stands in quoted text. -/
def quotedChar (c : Char) : List Char :=
  match c with
  | '"' => ['\\', '"']
  | '\\' => ['\\', '\\']
  | '\n' => ['\\', 'n']
  | '\r' => ['\\', 'r']
  | '\t' => ['\\', 't']
  | '\x00' => ['\\', '0']
  | c =>
    if isUnprintable c ∨ isGraphemeExtender c then
      '\\' :: 'u' :: '\x7b' :: hexDigits c.toNat ++ ['\x7d']
    else [c]

/-- The text in quotes. -/
def quoted (s : String) : String :=
  String.ofList ('"' :: s.toList.flatMap quotedChar ++ ['"'])

end DocQuery
