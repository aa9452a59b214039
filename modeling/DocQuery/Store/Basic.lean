import DocQuery.Rows.Evaluation
import DocQuery.Store.Action
import DocQuery.Store.Name

set_option autoImplicit false

/-! # Databases

A database has a name and tables; a table is a list of rows in the order in which they were added.
The edits of a database are actions, in `Store.Edit`; the functions of the same names in `Store`
give the database as it is after an edit that succeeds. -/

namespace DocQuery

/-- A database. -/
structure Store where
  db : DatabaseName
  tables : Tables

namespace Store

/-- The database of the given name, without tables. -/
def new (db : String) : Except StoreError Store :=
  (DatabaseName.ofText db).map (fun name => ⟨name, []⟩)

/-- There is a table of that name. -/
def hasTable (store : Store) (name : String) : Bool :=
  store.tables.hasKey name

/-- The names of the tables, sorted. -/
def tableNames (store : Store) : List String :=
  store.tables.keys.mergeSort (fun a b => a ≤ b)

/-- The position and value of the first row that is not an object, counting from `position`. -/
def firstNonObject? (position : Nat) : List Value → Option (Nat × Value)
  | [] => none
  | row :: rest =>
    if row.isObject then firstNonObject? (position + 1) rest else some (position, row)

/-- Check tables that are to be loaded: their names, and that every row is an object. -/
def checkLoad (store : Store) : List (String × List Value) → Except StoreError Unit
  | [] => .ok ()
  | (name, rows) :: rest => do
    let _ ← TableName.ofText name
    match firstNonObject? 0 rows with
    | some (position, row) =>
      throw (.validation (.loadedNonObject position store.db.text name row))
    | none => store.checkLoad rest

/-- Write the rows of a table. -/
def setRows (store : Store) (table : String) (rows : List Value) : Store :=
  { store with tables := store.tables.insert table rows }

/-! ## Edits -/

namespace Edit

/-- Add a table without rows. -/
def createTable (name : String) : Action Store StoreError Unit := do
  let tableName ← TableName.ofText name
  let store ← get
  if store.hasTable tableName.text then
    throw (.tableExists store.db.text tableName.text)
  set (store.setRows tableName.text [])

/-- Add a table without rows if there is none of that name. Tells whether one was added. -/
def ensureTable (name : String) : Action Store StoreError Bool :=
  tryCatch (do createTable name; return true) fun
    | .tableExists _ _ => return false
    | e => throw e

/-- Remove a table and its rows. -/
def dropTable (name : String) : Action Store StoreError Unit := do
  let store ← get
  if store.hasTable name then set { store with tables := store.tables.remove name }
  else throw (.tableNotFound store.db.text name)

/-- Write the rows of tables, table by table. -/
def writeTables : List (String × List Value) → Action Store StoreError Unit
  | [] => return ()
  | (name, rows) :: rest => do
    modify (·.setRows name rows)
    writeTables rest

/-- Add tables with their rows, replacing tables of the same names. All of them are checked before
    the first one is written. -/
def load (data : List (String × List Value)) : Action Store StoreError Unit := do
  Action.reading (·.checkLoad data)
  writeTables data

end Edit

variable (store : Store)

/-- The database with one more table, which has no rows. -/
def createTable (name : String) : Except StoreError Store :=
  ((Edit.createTable name).attempt store).map Prod.snd

/-- The database with a table of that name; also whether it is a new one. -/
def ensureTable (name : String) : Except StoreError (Bool × Store) :=
  (Edit.ensureTable name).attempt store

/-- The database without a table. -/
def dropTable (name : String) : Except StoreError Store :=
  ((Edit.dropTable name).attempt store).map Prod.snd

/-- The database with the tables loaded. -/
def load (data : List (String × List Value)) : Except StoreError Store :=
  ((Edit.load data).attempt store).map Prod.snd

end Store

end DocQuery
