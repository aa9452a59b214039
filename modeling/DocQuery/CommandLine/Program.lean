import DocQuery.CommandLine.Arguments
import DocQuery.CommandLine.Command
import DocQuery.Report

set_option autoImplicit false

/-! # The program

The program reads its arguments, then the settings, then carries out the command and reports the
result. It exits with 0 when there is a result, with 1 when something failed and with 2 when the
arguments make no sense. -/

namespace DocQuery

/-- What the program leaves behind. -/
structure Outcome where
  code : UInt32
  /-- What goes to the standard output. -/
  output : String
  /-- What goes to the standard error. -/
  complaint : String

/-- The line that names the version. -/
def versionLine : String := "rethinkline 0.1.0\n"

/-- How to call the program. -/
def usageText : String :=
  "Usage: [OPTIONS] <COMMAND>\n\n" ++
    "Commands:\n" ++
    "  compile <INPUT> [-t <TABLE>] [--primary-key <FIELD>] [--json]\n" ++
    "  run <INPUT> --fixtures <FILE> -t <TABLE>\n\n" ++
    "Options:\n" ++
    "  -c, --config <FILE>\n" ++
    "      --log-level <LEVEL>\n" ++
    "      --format <FORMAT>\n" ++
    "      --no-color\n" ++
    "  -h, --help\n" ++
    "  -V, --version\n"

/-- The outcome when there is no command to carry out. -/
def Refusal.outcome : Refusal → Outcome
  | .usage => ⟨2, "", usageText⟩
  | .help => ⟨0, usageText, ""⟩
  | .version => ⟨0, versionLine, ""⟩

/-- The format of the report: a plan is a tree and rows are JSON unless an option says otherwise. -/
def Arguments.Invocation.format (invocation : Arguments.Invocation) : Format :=
  match invocation.command, invocation.options.format with
  | .compile _ _ _ true, _ => .jsonPretty
  | _, some name => .ofName name
  | .compile _ _ _ false, none => .table
  | .run _ _ _, none => .jsonPretty

section
variable [PatternLibrary] {m : Type → Type} [Monad m] (env : Environment m)

/-- The settings of a file, or the defaults where no file is named. -/
def readConfig : Option String → m (Except ConfigError Config)
  | none => return .ok {}
  | some path => do
    match ← env.fileText path with
    | .error e => return .error (.file e)
    | .ok text => return Config.ofText text

/-- Carry out a command and report the result. -/
def report (config : Config) (invocation : Arguments.Invocation) (color : Bool) :
    m (Except CommandError String) := do
  let format := invocation.format
  match invocation.command with
  | .compile input table primaryKey _ =>
    return (← compilePlan env config input table primaryKey).map (reportPlan format color)
  | .run input fixtures table =>
    return (← runQuery env config input fixtures table).map (reportRows format color)

/-- Run the program. `terminal` tells whether colors can be shown. -/
def runProgram (terminal : Bool) (args : List String) : m Outcome := do
  match Arguments.parse args with
  | .error refusal => return refusal.outcome
  | .ok invocation =>
    match ← readConfig env invocation.options.config with
    | .error e => return ⟨1, "", reportError false e.message ++ "\n"⟩
    | .ok config =>
      let color := terminal && !invocation.options.noColor
      match ← report env config invocation color with
      | .ok text => return ⟨0, text ++ "\n", ""⟩
      | .error e => return ⟨1, "", reportError color e.message ++ "\n"⟩

end

end DocQuery
