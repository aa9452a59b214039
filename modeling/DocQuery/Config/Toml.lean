import DocQuery.Config.Basic
import DocQuery.Json.Printer
import DocQuery.Toml.Quoted
import DocQuery.Toml.Reader

set_option autoImplicit false

/-! # Settings in a file

Settings are read from a file with up to three sections, each a table whose keys have no meaning if
they are not settings. A section may also be an array with the settings in their order, or a date,
which has none of them. What is not there has its default. Settings are written with every section
and key. -/

namespace DocQuery

/-! ## Reading -/

/-- The settings of a section, in the order of `names`: by name in a table, by place in an array. A
    date stands for a section without settings. -/
def sectionValues? (names : List String) : Toml.Value → Option (List (Option Toml.Value))
  | .table entries => some (names.map (fun name => entries.lookup name))
  | .array items => some ((List.range names.length).map (items[·]?))
  | .date => some (names.map (fun _ => none))
  | _ => none

/-- The setting that `read` makes of a value, or its default where there is none. -/
def settingOf {α : Type} (read : Toml.Value → Option α) (default : α) :
    Option Toml.Value → Option α
  | none => some default
  | some value => read value

/-- A text. -/
def textSetting? : Toml.Value → Option String
  | .string s => some s
  | _ => none

/-- A truth value. -/
def flagSetting? : Toml.Value → Option Bool
  | .boolean b => some b
  | _ => none

/-- A port number. -/
def portSetting? : Toml.Value → Option UInt16
  | .integer i => if 0 ≤ i ∧ i < 2 ^ 16 then some (UInt16.ofNat i.toNat) else none
  | _ => none

/-- A list of texts. -/
def textsSetting? : Toml.Value → Option (List String)
  | .array items => items.mapM textSetting?
  | _ => none

/-- The settings of the section `connection`. -/
def ConnectionSettings.ofToml? (value : Toml.Value) : Option ConnectionSettings := do
  match ← sectionValues? ["identity", "host", "port", "db", "tables"] value with
  | [identity, host, port, db, tables] =>
    let defaults : ConnectionSettings := {}
    return {
      identity := ← settingOf textSetting? defaults.identity identity
      host := ← settingOf textSetting? defaults.host host
      port := ← settingOf portSetting? defaults.port port
      db := ← settingOf textSetting? defaults.db db
      tables := ← settingOf textsSetting? defaults.tables tables }
  | _ => none

/-- The settings of the section `compiler`. -/
def CompilerSettings.ofToml? (value : Toml.Value) : Option CompilerSettings := do
  match ← sectionValues? ["primary_key", "key_lookup"] value with
  | [primaryKey, keyLookup] =>
    let defaults : CompilerSettings := {}
    return {
      primaryKey := ← settingOf textSetting? defaults.primaryKey primaryKey
      keyLookup := ← settingOf flagSetting? defaults.keyLookup keyLookup }
  | _ => none

/-- The settings of the section `log`. -/
def LogSettings.ofToml? (value : Toml.Value) : Option LogSettings := do
  match ← sectionValues? ["level"] value with
  | [level] => return { level := ← settingOf textSetting? "info" level }
  | _ => none

namespace Config

/-- The settings of a file's content. -/
def ofEntries? (entries : Assoc Toml.Value) : Option Config := do
  return {
    connection := ← settingOf ConnectionSettings.ofToml? {} (entries.lookup "connection")
    compiler := ← settingOf CompilerSettings.ofToml? {} (entries.lookup "compiler")
    log := ← settingOf LogSettings.ofToml? {} (entries.lookup "log") }

/-- Read settings and check them. -/
def ofText (text : String) : Except ConfigError Config :=
  match (Toml.parse? text).bind ofEntries? with
  | some config => config.validate
  | none => .error .malformed

/-! ## Writing -/

/-- A list of texts: on one line if it has at most one, else one a line. -/
def listText (items : List String) : String :=
  if items.length ≤ 1 then "[" ++ ", ".intercalate (items.map Toml.quotedText) ++ "]"
  else
    "[\n" ++ String.join (items.map (fun item => "    " ++ Toml.quotedText item ++ ",\n")) ++ "]"

/-- A line that gives a setting. -/
def settingLine (name value : String) : String :=
  name ++ " = " ++ value ++ "\n"

/-- The settings as a file. -/
def text (config : Config) : String :=
  "[connection]\n" ++
    settingLine "identity" (Toml.quotedText config.connection.identity) ++
    settingLine "host" (Toml.quotedText config.connection.host) ++
    settingLine "port" (toString config.connection.port.toNat) ++
    settingLine "db" (Toml.quotedText config.connection.db) ++
    settingLine "tables" (listText config.connection.tables) ++
    "\n[compiler]\n" ++
    settingLine "primary_key" (Toml.quotedText config.compiler.primaryKey) ++
    settingLine "key_lookup" (boolText config.compiler.keyLookup) ++
    "\n[log]\n" ++
    settingLine "level" (Toml.quotedText config.log.level)

end Config

end DocQuery
