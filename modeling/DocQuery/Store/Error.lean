import DocQuery.Error

set_option autoImplicit false

/-! # What can be wrong with an operation on a database

Operations on the tables of a database fail for reasons of their own; an operation that runs a query
may fail for a reason of the query as well. -/

namespace DocQuery

/-- Why an argument is refused. -/
inductive ValidationFault where
  | tableNameEmpty
  | tableNameCharacters (name : String)
  | databaseNameEmpty
  | databaseNameLong
  | databaseNameCharacters (name : String)
  | loadedNonObject (position : Nat) (db table : String) (found : Value)
  | documentNonObject (found : Value)
  | patchNonObject (found : Value)
  | primaryKeyChange (primaryKey : String)

/-- Why a connection cannot be used. -/
inductive ConnectionFault where
  | noIdentity
  | closed (identity : String)
  | handleClosed (db : String)

/-- An error of a database or a connection. -/
inductive StoreError where
  | tableNotFound (db table : String)
  | tableExists (db table : String)
  | duplicateKey (primaryKey : String) (key : Value) (table : String)
  | validation (fault : ValidationFault)
  | connection (fault : ConnectionFault)
  /-- The task that was to find documents broke down while it sorted them. -/
  | taskFailed

/-- An error of an operation on a table. -/
inductive TableError where
  | store (error : StoreError)
  | query (error : QueryError)

/-- A plan that fails, in an operation on a table. -/
def TableError.ofRun : RunError → TableError
  | .query error => .query error
  | .disorder => .store .taskFailed

/-! ## Wording -/

/-- A name with characters that names may not have, in words. -/
def nameCharactersText (what name : String) : String :=
  what ++ " name " ++ backquoted name ++ " may only contain alphanumerics, '_' and '-'"

/-- Why an argument is refused, in words. -/
def ValidationFault.message : ValidationFault → String
  | .tableNameEmpty => "Table name cannot be empty"
  | .tableNameCharacters name => nameCharactersText "Table" name
  | .databaseNameEmpty => "Database name cannot be empty"
  | .databaseNameLong => "Database name cannot exceed 64 characters"
  | .databaseNameCharacters name => nameCharactersText "Database" name
  | .loadedNonObject position db table found =>
    "document #" ++ toString position ++ " in " ++ db ++ "." ++ table ++ " is not an object: " ++
      found.compact
  | .documentNonObject found => "expected a document object, got " ++ found.compact
  | .patchNonObject found => "update patch must be an object, got " ++ found.compact
  | .primaryKeyChange primaryKey =>
    "primary key " ++ backquoted primaryKey ++ " cannot be changed"

/-- Why a connection cannot be used, in words. -/
def ConnectionFault.message : ConnectionFault → String
  | .noIdentity => "connection is missing an identity"
  | .closed identity => "connection " ++ backquoted identity ++ " is closed"
  | .handleClosed db => "connection to " ++ backquoted db ++ " is closed"

/-- An error of a database in words. The number of the task that failed is left out. -/
def StoreError.message : StoreError → String
  | .tableNotFound db table => "Table not found: " ++ db ++ "." ++ table
  | .tableExists db table => "Table already exists: " ++ db ++ "." ++ table
  | .duplicateKey primaryKey key table =>
    "Duplicate primary key: " ++ primaryKey ++ " = " ++ key.compact ++ " in " ++ table
  | .validation fault => "Validation error: " ++ fault.message
  | .connection fault => "Connection error: " ++ fault.message
  | .taskFailed =>
    "Internal error: task panicked with message " ++
      "\"user-provided comparison function does not correctly implement a total order\""

/-- An error of an operation on a table in words. -/
def TableError.message : TableError → String
  | .store error => error.message
  | .query error => error.message

/-- The descriptor given to the operation is at fault. -/
def TableError.isCompileError : TableError → Bool
  | .store _ => false
  | .query error => error.isCompileError

end DocQuery
