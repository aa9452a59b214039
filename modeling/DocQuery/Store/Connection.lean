import DocQuery.Config.Basic
import DocQuery.Store.Basic
import DocQuery.Text.Quoted

set_option autoImplicit false

/-! # Connections

A connection owns a database and hands out its tables. Once it is closed, every use of it and of
the tables it handed out is refused. -/

namespace DocQuery

/-- Where generated keys come from: the keys in order, and how many have been used. -/
structure KeySupply where
  key : Nat → String
  used : Nat := 0

/-- A connection to a database. -/
structure Connection where
  identity : String
  options : PlanOptions
  store : Store
  keys : KeySupply
  closed : Bool := false

namespace Connection

/-- Create the tables that are not there. -/
def ensureTables : List String → Action Store StoreError Unit
  | [] => return ()
  | name :: rest => do
    let _ ← Store.Edit.ensureTable name
    ensureTables rest

/-- Open a connection and create the tables that the settings list. -/
def connect (settings : ConnectionSettings) (options : PlanOptions) (keys : Nat → String) :
    Except StoreError Connection := do
  if settings.identity.isEmpty then throw (.connection .noIdentity)
  let store ← Store.new settings.db
  let ((), store) ← (ensureTables settings.tables).attempt store
  return { identity := settings.identity, options, store, keys := ⟨keys, 0⟩ }

/-- The name of the database. -/
def db (c : Connection) : String :=
  c.store.db.text

/-- Refuse a closed connection. -/
def checkOpen (c : Connection) : Except StoreError Unit :=
  if c.closed then .error (.connection (.closed c.identity)) else .ok ()

/-- Check that a table can be handed out: there must be one of that name. -/
def table (c : Connection) (name : String) : Except StoreError Unit := do
  c.checkOpen
  if c.store.hasTable name then return ()
  else throw (.tableNotFound c.db name)

/-- Close the connection, for good. -/
def close (c : Connection) : Connection :=
  { c with closed := true }

/-- A table of the connection, described for a log. -/
def describeTable (c : Connection) (name : String) : String :=
  "Table \x7b db: " ++ quoted c.db ++ ", name: " ++ quoted name ++ " \x7d"

/-! ## Actions -/

/-- An edit of the database, which is refused on a closed connection. -/
def editing (edit : Action Store StoreError Unit) : Action Connection StoreError Unit := do
  Action.reading checkOpen
  edit.focus store (fun c store => { c with store })

/-- Create a table. -/
def createTable (name : String) : Action Connection StoreError Unit :=
  editing (Store.Edit.createTable name)

/-- Remove a table. -/
def dropTable (name : String) : Action Connection StoreError Unit :=
  editing (Store.Edit.dropTable name)

/-- Add tables with their rows, replacing tables of the same names. -/
def load (data : List (String × List Value)) : Action Connection StoreError Unit :=
  editing (Store.Edit.load data)

end Connection

end DocQuery
