import DocQuery.Store.Error

set_option autoImplicit false

/-! # Names of tables and databases

A name is made of ASCII letters and digits, underscores and hyphens, at least one. The name of a
database has at most 64 bytes. -/

namespace DocQuery

/-- The character may stand in a name. -/
def isNameChar (c : Char) : Bool :=
  c.isAlphanum || c == '_' || c == '-'

/-- The text is a name. -/
def IsName (s : String) : Prop :=
  s ≠ "" ∧ ∀ c ∈ s.toList, isNameChar c = true

instance (s : String) : Decidable (IsName s) :=
  decidable_of_iff (s ≠ "" ∧ s.toList.all isNameChar = true)
    (and_congr_right (fun _ => List.all_eq_true))

/-- The name of a table. -/
structure TableName where
  text : String
  isName : IsName text

/-- The largest size of the name of a database, in bytes. -/
def databaseNameLimit : Nat := 64

/-- The name of a database. -/
structure DatabaseName where
  text : String
  isName : IsName text
  fits : text.utf8ByteSize ≤ databaseNameLimit

/-- The table name that `s` is. -/
def TableName.ofText (s : String) : Except StoreError TableName :=
  if s = "" then .error (.validation .tableNameEmpty)
  else if h : IsName s then .ok ⟨s, h⟩
  else .error (.validation (.tableNameCharacters s))

/-- The database name that `s` is. Its size is checked before its characters. -/
def DatabaseName.ofText (s : String) : Except StoreError DatabaseName :=
  if s = "" then .error (.validation .databaseNameEmpty)
  else if fits : s.utf8ByteSize ≤ databaseNameLimit then
    if h : IsName s then .ok ⟨s, h, fits⟩
    else .error (.validation (.databaseNameCharacters s))
  else .error (.validation .databaseNameLong)

end DocQuery
