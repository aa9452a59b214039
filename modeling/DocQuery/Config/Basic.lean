import DocQuery.Plan.Compile

set_option autoImplicit false

/-! # Settings

The settings say how a connection is opened, how plans are made and what is logged. Every setting
has a default. Only two of them may not be empty: the name of the primary key and the name of the
database. -/

namespace DocQuery

/-- How a connection is opened. -/
structure ConnectionSettings where
  identity : String := "default"
  host : String := "localhost"
  port : UInt16 := 28015
  db : String := "test"
  /-- Tables that are created when they are not there. -/
  tables : List String := []

/-- How plans are made. -/
structure CompilerSettings where
  primaryKey : String := "id"
  keyLookup : Bool := true

/-- What is logged. -/
structure LogSettings where
  level : String := "info"

/-- All settings. -/
structure Config where
  connection : ConnectionSettings := {}
  compiler : CompilerSettings := {}
  log : LogSettings := {}

/-- Why a file cannot be read. -/
inductive FileError where
  | notFound
  | notADirectory
  | isADirectory
  | nameTooLong
  | nulInName
  | other (text : String)

/-- Why settings cannot be used. -/
inductive ConfigError where
  | file (error : FileError)
  | malformed
  | emptyPrimaryKey
  | emptyDatabase

/-- A file error in the words of the operating system. -/
def FileError.message : FileError → String
  | .notFound => "No such file or directory (os error 2)"
  | .notADirectory => "Not a directory (os error 20)"
  | .isADirectory => "Is a directory (os error 21)"
  | .nameTooLong => "File name too long (os error 36)"
  | .nulInName => "file name contained an unexpected NUL byte"
  | .other text => text

/-- An error of the settings in words. -/
def ConfigError.message : ConfigError → String
  | .file error => "IO error: " ++ error.message
  | .malformed => "Config error: Failed to parse config: the text is not a settings file"
  | .emptyPrimaryKey => "Config error: primary_key cannot be empty"
  | .emptyDatabase => "Config error: db cannot be empty"

namespace Config

/-- Accept settings whose names are not empty; the primary key is checked first. -/
def validate (config : Config) : Except ConfigError Config :=
  if config.compiler.primaryKey.isEmpty then .error .emptyPrimaryKey
  else if config.connection.db.isEmpty then .error .emptyDatabase
  else .ok config

/-- The settings that plans depend on. -/
def planOptions (config : Config) : PlanOptions :=
  ⟨config.compiler.primaryKey, config.compiler.keyLookup⟩

end Config

end DocQuery
