set_option autoImplicit false

/-! # Command-line arguments

General options stand before the name of a command, the options of the command after it. An option
with a value takes it from the same argument or from the next one; no option may be given twice.
Arguments are read from the left, and the first fault, or the first request for help or for the
version, decides. -/

namespace DocQuery

/-- An option that may be given. -/
structure OptionSpec where
  /-- Its name after two hyphens. -/
  name : String
  /-- Its letter after one hyphen. -/
  letter : Option Char := none
  hasValue : Bool := true
  /-- The value names a file and may not be empty. -/
  isPath : Bool := false

/-- Why the arguments do not name a command to carry out. -/
inductive Refusal where
  | usage
  | help
  | version

/-- An argument that was read. -/
inductive Argument where
  | option (name : String) (value : String)
  | word (text : String)

namespace Arguments

/-! ## Reading options -/

/-- Record an option. Help and version are requests that end the reading. -/
def record (spec : OptionSpec) (value : String) (read : List Argument) :
    Except Refusal (List Argument) :=
  let repeated := read.any (fun
    | .option name _ => name = spec.name
    | .word _ => false)
  if spec.name = "help" then .error .help
  else if spec.name = "version" then .error .version
  else if repeated ∨ (spec.isPath ∧ value = "") then .error .usage
  else .ok (read ++ [.option spec.name value])

/-- The text may be the value of the option before it: it does not look like an option. -/
def isValue (arg : String) : Bool :=
  match arg.toList with
  | '-' :: _ :: _ => false
  | _ => true

/-- What one argument turns out to be. -/
inductive Shape where
  /-- Not an option. -/
  | word
  /-- The mark after which nothing is an option. -/
  | endOfOptions
  /-- Options without values, and at last one that is complete. -/
  | complete (flags : List OptionSpec) (last : OptionSpec) (value : String)
  /-- Options without values, and at last one whose value is the next argument. -/
  | pending (flags : List OptionSpec) (last : OptionSpec)
  /-- Options without values, then something that is no option. -/
  | unknown (flags : List OptionSpec)

/-- The shape of an argument of one hyphen and letters; `flags` are the options so far. A value may
    follow its letter directly or after an equals sign. -/
def shapeOfLetters (specs : List OptionSpec) (flags : List OptionSpec) : List Char → Shape
  | [] => .unknown flags
  | letter :: rest =>
    match specs.find? (fun spec => spec.letter = some letter) with
    | none => .unknown flags
    | some spec =>
      if spec.hasValue then
        match rest with
        | [] => .pending flags spec
        | '=' :: value => .complete flags spec (String.ofList value)
        | value => .complete flags spec (String.ofList value)
      else
        match rest with
        | [] => .complete flags spec ""
        | rest => shapeOfLetters specs (flags ++ [spec]) rest

/-- The shape of an argument of two hyphens and a name, with a value after an equals sign if there
    is one. -/
def shapeOfName (specs : List OptionSpec) (chars : List Char) : Shape :=
  let name := String.ofList (chars.takeWhile (· ≠ '='))
  match specs.find? (fun spec => spec.name = name), chars.dropWhile (· ≠ '=') with
  | none, _ => .unknown []
  | some spec, [] => if spec.hasValue then .pending [] spec else .complete [] spec ""
  | some spec, _ :: value =>
    if spec.hasValue then .complete [] spec (String.ofList value) else .unknown []

/-- The shape of an argument. -/
def shapeOf (specs : List OptionSpec) (arg : String) : Shape :=
  match arg.toList with
  | '-' :: '-' :: [] => .endOfOptions
  | '-' :: '-' :: name => shapeOfName specs name
  | '-' :: letter :: rest => shapeOfLetters specs [] (letter :: rest)
  | _ => .word

/-- The words, in order. -/
def words (read : List Argument) : List String :=
  read.filterMap (fun
    | .word text => some text
    | .option _ _ => none)

/-- Record options without values. -/
def recordFlags (flags : List OptionSpec) (read : List Argument) :
    Except Refusal (List Argument) :=
  flags.foldlM (fun read spec => record spec "" read) read

/-- Read arguments. With `stopAtWord` the first word ends the reading; without it a second word is
    refused. Returns what was read and what was not. -/
def scan (specs : List OptionSpec) (stopAtWord : Bool) (read : List Argument) :
    List String → Except Refusal (List Argument × List String)
  | [] => .ok (read, [])
  | arg :: rest =>
    match shapeOf specs arg with
    | .word =>
      if stopAtWord then .ok (read, arg :: rest)
      else if (words read).isEmpty then scan specs stopAtWord (read ++ [.word arg]) rest
      else .error .usage
    | .endOfOptions =>
      if stopAtWord then (if rest = [] then .ok (read, []) else .error .usage)
      else .ok (read ++ rest.map .word, [])
    | .complete flags last value => do
      let read ← recordFlags flags read
      let read ← record last value read
      scan specs stopAtWord read rest
    | .pending flags last => do
      let read ← recordFlags flags read
      match rest with
      | [] => throw .usage
      | value :: rest =>
        if isValue value then
          let read ← record last value read
          scan specs stopAtWord read rest
        else throw .usage
    | .unknown flags => do
      let _ ← recordFlags flags read
      throw .usage

/-- The value of an option. -/
def value? (read : List Argument) (name : String) : Option String :=
  read.findSome? (fun
    | .option n value => if n = name then some value else none
    | .word _ => none)

/-! ## Commands -/

/-- A command with its arguments. -/
inductive Command where
  | compile (input table : String) (primaryKey : Option String) (json : Bool)
  | run (input fixtures table : String)

/-- The options that are not of one command alone. -/
structure GeneralOptions where
  config : Option String
  logLevel : Option String
  format : Option String
  noColor : Bool

/-- What to carry out. -/
structure Invocation where
  options : GeneralOptions
  command : Command

/-- The request for help. -/
def helpSpec : OptionSpec :=
  { name := "help", letter := some 'h', hasValue := false }

/-- The general options. -/
def generalSpecs : List OptionSpec :=
  [{ name := "config", letter := some 'c', isPath := true },
    { name := "log-level" },
    { name := "format" },
    { name := "no-color", hasValue := false },
    helpSpec,
    { name := "version", letter := some 'V', hasValue := false }]

/-- The options of the command `compile`. -/
def compileSpecs : List OptionSpec :=
  [{ name := "table", letter := some 't' },
    { name := "primary-key" },
    { name := "json", hasValue := false },
    helpSpec]

/-- The options of the command `run`. -/
def runSpecs : List OptionSpec :=
  [{ name := "fixtures", isPath := true },
    { name := "table", letter := some 't' },
    helpSpec]

/-- The table that a plan starts at when none is named. -/
def defaultTable : String := "documents"

/-- Read the arguments of the command `compile`. -/
def parseCompile (args : List String) : Except Refusal Command := do
  let (read, _) ← scan compileSpecs false [] args
  match words read with
  | [input] =>
    return .compile input ((value? read "table").getD defaultTable) (value? read "primary-key")
      (value? read "json").isSome
  | _ => throw .usage

/-- Read the arguments of the command `run`. -/
def parseRun (args : List String) : Except Refusal Command := do
  let (read, _) ← scan runSpecs false [] args
  match words read, value? read "fixtures", value? read "table" with
  | [input], some fixtures, some table => return .run input fixtures table
  | _, _, _ => throw .usage

/-- Read the arguments of the command `help`: at most the name of a command. -/
def parseHelp : List String → Refusal
  | [] => .help
  | [name] => if name = "compile" ∨ name = "run" ∨ name = "help" then .help else .usage
  | _ => .usage

/-- Read a command. -/
def parseCommand : List String → Except Refusal Command
  | [] => .error .usage
  | name :: args =>
    if name = "compile" then parseCompile args
    else if name = "run" then parseRun args
    else if name = "help" then .error (parseHelp args)
    else .error .usage

/-- Read all arguments. -/
def parse (args : List String) : Except Refusal Invocation := do
  let (read, rest) ← scan generalSpecs true [] args
  let command ← parseCommand rest
  return {
    options := {
      config := value? read "config"
      logLevel := value? read "log-level"
      format := value? read "format"
      noColor := (value? read "no-color").isSome }
    command }

end Arguments

end DocQuery
