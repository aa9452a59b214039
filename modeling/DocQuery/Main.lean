import DocQuery.CommandLine.Program

set_option autoImplicit false

/-! # The executable -/

open DocQuery

/-- A file error of the operating system. -/
def fileErrorOf : IO.Error → FileError
  | .noFileOrDirectory .. => .notFound
  | .inappropriateType .. => .isADirectory
  | e => .other (toString e)

/-- Files and the standard input of the process. -/
def processEnvironment : Environment IO where
  fileText path := do
    try
      return .ok (← IO.FS.readFile path)
    catch e =>
      return .error (fileErrorOf e)
  inputText := do (← IO.getStdin).readToEnd

def main (args : List String) : IO UInt32 := do
  let out ← IO.getStdout
  let outcome ← runProgram processEnvironment (← out.isTty) args
  out.putStr outcome.output
  out.flush
  (← IO.getStderr).putStr outcome.complaint
  return outcome.code
