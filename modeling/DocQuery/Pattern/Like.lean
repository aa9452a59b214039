import DocQuery.Pattern.Basic

set_option autoImplicit false

/-! # Written forms of the three text conditions

A text is taken literally by escaping its special characters. A wildcard text, in which `%` stands
for a run of characters and `_` for one character, becomes a pattern that is anchored at both ends;
a beginning or an end becomes one that is anchored at one end. -/

namespace DocQuery.Pattern

/-- The written form of a character that stands for itself. -/
def literalChar (c : Char) : List Char :=
  if isSpecial c then ['\\', c] else [c]

/-- The written form of a text that stands for itself. -/
def literal (text : String) : List Char :=
  text.toList.flatMap literalChar

/-- The written form of a character of a wildcard text. -/
def wildcardChar (c : Char) : List Char :=
  if c = '%' then ['.', '*'] else if c = '_' then ['.'] else literalChar c

/-- The pattern for texts that match the wildcard text as a whole. -/
def ofWildcards (text : String) : String :=
  String.ofList ('^' :: text.toList.flatMap wildcardChar ++ ['$'])

/-- The pattern for texts that begin with the given one. -/
def ofBeginning (text : String) : String :=
  String.ofList ('^' :: literal text)

/-- The pattern for texts that end with the given one. -/
def ofEnd (text : String) : String :=
  String.ofList (literal text ++ ['$'])

end DocQuery.Pattern
