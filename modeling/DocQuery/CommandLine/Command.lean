import DocQuery.Config.Toml
import DocQuery.Descriptor.Reader
import DocQuery.Store.Table
import DocQuery.Text.Blank

set_option autoImplicit false

/-! # The two commands

`compilePlan` makes the plan for a descriptor, `runQuery` finds documents in tables that are read
from a file. Reading files and the standard input is left to an environment over any monad, so that
the commands are functions like any others. -/

namespace DocQuery

/-- What the commands need from outside. -/
structure Environment (m : Type → Type) where
  fileText : String → m (Except FileError String)
  inputText : m String

/-- Why a file of tables has no meaning. -/
inductive FixtureFault where
  | tableKind (table : String) (found : Value)
  | notAnObject

/-- Why a command fails. -/
inductive CommandError where
  | file (error : FileError)
  | malformedJson
  | query (error : QueryError)
  | store (error : StoreError)
  | table (error : TableError)
  | fixtures (fault : FixtureFault)

/-- Why a file of tables has no meaning, in words. -/
def FixtureFault.message : FixtureFault → String
  | .tableKind table found =>
    "fixture table " ++ backquoted table ++ " must be an array, got " ++ found.compact
  | .notAnObject => "fixtures must be an object of table name to rows"

/-- Why a command fails, in words. -/
def CommandError.message : CommandError → String
  | .file error => "IO error: " ++ error.message
  | .malformedJson => "Invalid JSON: the text is not a JSON value"
  | .query error => error.message
  | .store error => error.message
  | .table error => error.message
  | .fixtures fault => fault.message

/-- The rows of each table in a file of tables. -/
def fixtureTables : List (String × Value) → Except CommandError (List (String × List Value))
  | [] => .ok []
  | (name, .array rows) :: rest => (fixtureTables rest).map ((name, rows) :: ·)
  | (name, found) :: _ => .error (.fixtures (.tableKind name found))

/-- The tables of a file of tables: an object from names to rows. -/
def fixturesOfText (text : String) : Except CommandError (List (String × List Value)) :=
  match Json.parse? text with
  | none => .error .malformedJson
  | some (.object fields) => fixtureTables fields
  | some _ => .error (.fixtures .notAnObject)

/-- A source that is the descriptor itself, not the name of a file: it starts with a brace. -/
def isInline (source : String) : Bool :=
  match trimBlankStart source.toList with
  | c :: _ => c = '\x7b'
  | [] => false

section
variable [PatternLibrary] {m : Type → Type} [Monad m] (env : Environment m)

/-- The text that a source stands for: `-` is the standard input, what starts with a brace is the
    text itself, and all else names a file. -/
def sourceText (source : String) : m (Except FileError String) := do
  if source = "-" then return .ok (← env.inputText)
  else if isInline source then return .ok source
  else env.fileText source

/-- The descriptor of a source. -/
def readDescriptor (source : String) : m (Except CommandError Descriptor) := do
  match ← sourceText env source with
  | .error e => return .error (.file e)
  | .ok text => return (Descriptor.ofText text).mapError .query

/-- The plan for the descriptor of a source, with another primary key than the settings give if
    there is one. -/
def compilePlan (config : Config) (source table : String) (primaryKey : Option String) :
    m (Except CommandError Plan) := do
  match ← readDescriptor env source with
  | .error e => return .error e
  | .ok d =>
    let options := config.planOptions
    let options := { options with primaryKey := primaryKey.getD options.primaryKey }
    return (Plan.compile options (.table table) d).mapError .query

/-- The documents that a descriptor selects in the given tables. Nothing is stored, so no key is
    ever generated. -/
def findIn (config : Config) (tables : List (String × List Value)) (table : String)
    (d : Descriptor) : Except CommandError (List Value) := do
  let c ← (Connection.connect config.connection config.planOptions (fun _ => "")).mapError .store
  let ((), c) ← ((Connection.load tables).attempt c).mapError .store
  (c.table table).mapError .store
  (c.find table d).mapError .table

/-- The documents that the descriptor of a source selects in the tables of a file. The descriptor is
    read first. -/
def runQuery (config : Config) (source fixtures table : String) :
    m (Except CommandError (List Value)) := do
  match ← readDescriptor env source with
  | .error e => return .error e
  | .ok d =>
    match ← env.fileText fixtures with
    | .error e => return .error (.file e)
    | .ok text => return (fixturesOfText text).bind (fun tables => findIn config tables table d)

end

end DocQuery
