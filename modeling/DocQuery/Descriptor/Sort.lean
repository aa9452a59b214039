import DocQuery.Error
import DocQuery.Text.Blank

set_option autoImplicit false

/-! # Reading a sort order

A sort order is written as an object from fields to indicators, or as a text of terms between
commas, each a field with an optional `asc` or `desc` in any letter case. The indicator of an
ascending field is the number one; any other value means descending. -/

namespace DocQuery.SortSpec

/-- The indicator that the direction word `word` stands for. -/
def indicatorOfWord? (word : List Char) : Option Value :=
  let lower := word.map Char.toLower
  if lower = ['a', 's', 'c'] then some (.number (.integer 1 (by decide)))
  else if lower = ['d', 'e', 's', 'c'] then some (.number (.integer (-1) (by decide)))
  else none

/-- Read one term of a sort text, trimmed and not empty. A wrong direction word is reported before
    a superfluous one. -/
def termOfChars (term : List Char) : Except QueryError (String × Value) :=
  match words term with
  | [] => .ok ("", .number (.integer 1 (by decide)))
  | [field] => .ok (String.ofList field, .number (.integer 1 (by decide)))
  | field :: word :: more =>
    match indicatorOfWord? word with
    | none => .error (.malformedClause (.sortDirection (String.ofList word) (String.ofList field)))
    | some indicator =>
      if more.isEmpty then .ok (String.ofList field, indicator)
      else .error (.malformedClause (.sortTerm (String.ofList term)))

/-- The terms of a sort text: what stands between commas, trimmed, without what is empty then. -/
def terms (text : String) : List (List Char) :=
  ((pieces (· = ',') text.toList).map trimBlank).filter (· ≠ [])

/-- Read a sort text; one without terms is no sort order. -/
def ofText (text : String) : Except QueryError (Option SortSpec) := do
  let entries ← (terms text).mapM termOfChars
  return if entries.isEmpty then none else some (Assoc.ofList entries)

/-- Read the sort order of a descriptor; `null` is none. -/
def ofValue : Value → Except QueryError (Option SortSpec)
  | .null => .ok none
  | .object fields => .ok (some fields)
  | .string text => ofText text
  | value => .error (.malformedClause (.sortKind value.kind))

end DocQuery.SortSpec
