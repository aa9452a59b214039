import DocQuery.Plan.Compile
import DocQuery.Rows.Execution
import DocQuery.Store.Connection

set_option autoImplicit false

/-! # Operations on a table

Documents are created, found, counted, updated and destroyed through a connection. Updating and
destroying first run a query, without its joins, and then go back to the rows by primary key. A
table that was handed out before may be gone by now. -/

namespace DocQuery.Connection

variable (c : Connection) (table : String)

/-- Refuse a table of a closed connection. -/
def checkHandle : Except TableError Unit :=
  if c.closed then .error (.store (.connection (.handleClosed c.db))) else .ok ()

theorem checkHandle_of_open {c : Connection} (h : c.closed = false) : c.checkHandle = .ok () := by
  simp [checkHandle, h]

/-- The plan for a descriptor on the table. -/
def plan (d : Descriptor) : Except QueryError Plan :=
  Plan.compile c.options (.table table) d

/-- The rows of the table. -/
def rows : Except TableError (List Value) :=
  match c.store.tables.lookup table with
  | some rows => .ok rows
  | none => .error (.store (.tableNotFound c.db table))

variable [PatternLibrary]

/-- The rows that a descriptor selects. -/
def select (d : Descriptor) : Except TableError (List Value) := do
  let _ ← c.rows table
  let plan ← (c.plan table d).mapError .query
  (plan.run c.store.tables).mapError .ofRun

/-- The connection after the rows of the table are written. -/
def withRows (rows : List Value) : Connection :=
  { c with store := c.store.setRows table rows }

/-! ## Creating -/

/-- A document with a primary key; one that has none is given the next key of the supply, in its
    last field. -/
def prepare (primaryKey : String) (keys : KeySupply) :
    Value → Except TableError (Value × KeySupply)
  | .object fields =>
    if Assoc.hasKey fields primaryKey then .ok (.object fields, keys)
    else
      .ok (.object (Assoc.insert fields primaryKey (.string (keys.key keys.used))),
        { keys with used := keys.used + 1 })
  | found => .error (.store (.validation (.documentNonObject found)))

/-- Documents with a primary key each. -/
def prepareAll (primaryKey : String) (keys : KeySupply) :
    List Value → Except TableError (List Value × KeySupply)
  | [] => .ok ([], keys)
  | doc :: rest => do
    let (stored, keys) ← prepare primaryKey keys doc
    let (others, keys) ← prepareAll primaryKey keys rest
    return (stored :: others, keys)

/-- The primary key of a document. -/
def keyOf (primaryKey : String) (doc : Value) : Value :=
  (doc.field? primaryKey).getD .null

/-- The key of the first document whose key a row, or a document before it, has. -/
def firstClash? (primaryKey : String) (rows : List Value) : List Value → Option Value
  | [] => none
  | doc :: rest =>
    let key := keyOf primaryKey doc
    if rows.any (hasIndexKey primaryKey key) then some key
    else firstClash? primaryKey (rows ++ [doc]) rest

/-- Store documents, all or none. Returns them as they are stored. -/
def insert (docs : List Value) : Action Connection TableError (List Value) := do
  let c ← get
  let (stored, keys) ← prepareAll c.options.primaryKey c.keys docs
  let rows ← c.rows table
  match firstClash? c.options.primaryKey rows stored with
  | some key => throw (.store (.duplicateKey c.options.primaryKey key table))
  | none =>
    set { c.withRows table (rows ++ stored) with keys }
    return stored

/-- Store a document. Returns it as it is stored. -/
def create (doc : Value) : Action Connection TableError Value := do
  Action.reading checkHandle
  let stored ← insert table [doc]
  return stored.head?.getD .null

/-- Store documents, all or none. Storing none is no use of the connection. -/
def createEach (docs : List Value) : Action Connection TableError (List Value) :=
  if docs.isEmpty then return []
  else do
    Action.reading checkHandle
    insert table docs

/-! ## Reading -/

/-- The documents that a descriptor selects, with their joins. -/
def find (d : Descriptor) : Except TableError (List Value) := do
  c.checkHandle
  c.select table d

/-- The documents that a descriptor selects, with their joins: finding is all that joining takes. -/
def join (d : Descriptor) : Except TableError (List Value) :=
  c.find table d

/-- The number of documents that a descriptor selects. -/
def count (d : Descriptor) : Except TableError Nat := do
  c.checkHandle
  let rows ← c.select table d.withoutJoins
  return rows.length

/-! ## Changing -/

/-- The primary keys of the documents that a descriptor selects; a document without one is left
    out. -/
def selectedKeys (d : Descriptor) : Except TableError (List Value) := do
  let rows ← c.select table d.withoutJoins
  return rows.filterMap (·.field? c.options.primaryKey)

/-- Write the fields of `patch` into the first row that has the key. Returns the row as it is then,
    and all rows. -/
def patchFirst? (primaryKey : String) (patch : Assoc Value) (key : Value) :
    List Value → Option (Value × List Value)
  | [] => none
  | .object fields :: rest =>
    if hasIndexKey primaryKey key (.object fields) then
      let patched := Value.object (Assoc.insertAll fields patch)
      some (patched, patched :: rest)
    else
      (patchFirst? primaryKey patch key rest).map
        (fun (patched, rows) => (patched, .object fields :: rows))
  | row :: rest =>
    (patchFirst? primaryKey patch key rest).map (fun (patched, rows) => (patched, row :: rows))

/-- Patch a row for each key in turn. Returns the patched rows in the order of the keys, and all
    rows. -/
def patchAll (primaryKey : String) (patch : Assoc Value) (rows : List Value) :
    List Value → List Value × List Value
  | [] => ([], rows)
  | key :: keys =>
    match patchFirst? primaryKey patch key rows with
    | some (patched, rows) =>
      let (others, rows) := patchAll primaryKey patch rows keys
      (patched :: others, rows)
    | none => patchAll primaryKey patch rows keys

/-- The patch gives a primary key that one of the keys does not equal. -/
def changesKey (primaryKey : String) (patch : Assoc Value) (keys : List Value) : Bool :=
  match patch.lookup primaryKey with
  | some key => keys.any (fun k => !k.equals key)
  | none => false

/-- Write the fields of `patch` into every document that a descriptor selects. A patch may not
    change a primary key. -/
def update (d : Descriptor) (patch : Value) : Action Connection TableError (List Value) := do
  Action.reading checkHandle
  match patch with
  | .object fields =>
    let c ← get
    let keys ← c.selectedKeys table d
    if changesKey c.options.primaryKey fields keys then
      throw (.store (.validation (.primaryKeyChange c.options.primaryKey)))
    let rows ← c.rows table
    let (patched, rows) := patchAll c.options.primaryKey fields rows keys
    set (c.withRows table rows)
    return patched
  | found => throw (.store (.validation (.patchNonObject found)))

/-- The row has a primary key that equals one of the keys. -/
def hasKeyIn (primaryKey : String) (keys : List Value) (row : Value) : Bool :=
  match row.field? primaryKey with
  | some key => keys.any (key.equals ·)
  | none => false

/-- Remove every document that a descriptor selects. Returns their primary keys. -/
def destroy (d : Descriptor) : Action Connection TableError (List Value) := do
  Action.reading checkHandle
  let c ← get
  let keys ← c.selectedKeys table d
  let rows ← c.rows table
  set (c.withRows table (rows.filter (fun row => !hasKeyIn c.options.primaryKey keys row)))
  return keys

end DocQuery.Connection
