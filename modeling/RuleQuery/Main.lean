/-
# The program

The outermost layer: it takes the arguments and the environment, reads the files that the command
may need, and prints what the command leaves behind.
-/

import RuleQuery.Command.Run

open RuleQuery.Command

/-- What comes of reading a path. -/
def readPath (path : String) : IO (Except FileFault String) := do
  try
    match String.fromUTF8? (← IO.FS.readBinFile path) with
    | some text => return .ok text
    | none => return .error .notText
  catch
    | .noFileOrDirectory .. => return .error .notFound
    | .inappropriateType _ code _ =>
      return .error (if code = 21 then .isADirectory else .notADirectory)
    | .invalidArgument _ code _ =>
      return .error (if code = 36 then .nameTooLong else .other (toString code))
    | .permissionDenied .. => return .error .forbidden
    | e => return .error (.other (toString e))

def main (args : List String) : IO UInt32 := do
  let directory := configDirectory? (← IO.getEnv "XDG_CONFIG_HOME") (← IO.getEnv "HOME")
  let environment ← IO.getEnv "RULESQL_SETTINGS"
  let paths := match Request.read? environment args with
    | some request => request.paths directory
    | none => []
  let found ← paths.mapM fun path => return (path, ← readPath path)
  let files : Files := fun path =>
    match found.find? fun file => file.1 == path with
    | some file => file.2
    | none => .error .notFound
  let outcome := run files directory environment args
  IO.print outcome.stdout
  IO.eprint outcome.stderr
  return outcome.exit.toUInt32
