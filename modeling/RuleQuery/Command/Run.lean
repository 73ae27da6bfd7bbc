/-
# Running a command

A command is a function of the settings, the files and its own arguments to what it prints. A
command fails as a whole, before anything is printed.
-/

import RuleQuery.Command.Arguments
import RuleQuery.Command.Files
import RuleQuery.Document.Configuration
import RuleQuery.Settings.Reader
import RuleQuery.Sql.Check
import RuleQuery.Sql.Compile

namespace RuleQuery.Command

/-- What a run of the program leaves behind. -/
structure Outcome where
  exit : Nat
  stdout : String
  stderr : String
  deriving DecidableEq, Repr

/-- Why a command fails. -/
inductive Failure
  | settings (cause : RuleError)
  | unreadable (path : String) (cause : FileFault)
  | invalidConfiguration (path : String) (cause : RuleError)
  | rule (cause : RuleError)
  | notAPair (text : String)
  | missingParameters (names : List String)
  deriving DecidableEq, Repr

def Failure.message : Failure → String
  | .settings cause => "Failed to load settings: " ++ cause.message
  | .unreadable path cause => "Failed to read " ++ path ++ ": " ++ cause.message
  | .invalidConfiguration path cause => "Invalid configuration in " ++ path ++ ": " ++ cause.message
  | .rule cause => cause.message
  | .notAPair text => "Expected name=value, got '" ++ text ++ "'"
  | .missingParameters names => "Missing required parameters: " ++ String.intercalate ", " names

/-! ## Settings and configurations from files -/

/-- The settings file looked for in the working directory. -/
def localSettingsFile : String := "rulesql.toml"

/-- The settings file looked for in the user's configuration directory. -/
def userSettingsFile (directory : String) : String := directory ++ "/rulesql/config.toml"

/--
The user's configuration directory: the one named, if it is named from the root on, or else the one
in the home directory.
-/
def configDirectory? (named home : Option String) : Option String :=
  (named.filter fun path => path.toList.head? == some '/').or (home.map (· ++ "/.config"))

/-- The settings files looked for when none is named. -/
def settingsFiles (configDirectory : Option String) : List String :=
  localSettingsFile :: (configDirectory.map userSettingsFile).toList

/-- The settings of a file. -/
def readSettings (files : Files) (path : String) : Except RuleError Settings :=
  match files path with
  | .ok text => Settings.ofText (some path) text
  | .error fault => .error (.io fault.message)

/-- The settings of the file named, or else of the first file found, or else the default ones. -/
def loadSettings (files : Files) (configDirectory named : Option String) :
    Except RuleError Settings :=
  match named with
  | some path =>
    if files.has path then readSettings files path else .error (.settings (.notFound path))
  | none =>
    match (settingsFiles configDirectory).find? files.has with
    | some path => readSettings files path
    | none => .ok .default

/-- The configuration of a file. -/
def loadConfiguration (files : Files) (path : String) : Except Failure Configuration :=
  match files path with
  | .error fault => .error (.unreadable path fault)
  | .ok text => (Configuration.ofText text).mapError (.invalidConfiguration path)

/-! ## Parameters from the command line -/

/-- The literal that a text for an undeclared parameter is taken for. -/
def inferLiteral (text : String) : Literal :=
  match Number.readInt64? text with
  | some n => .int n
  | none =>
    match Number.readBinary64? text with
    | some x => .float x
    | none =>
      if text = "true" then .bool true
      else if text = "false" then .bool false
      else .string text

/-- The texts before and after the first equals sign. -/
def splitPair? (s : String) : Option (String × String) :=
  let cs := s.toList
  match cs.dropWhile (· ≠ '=') with
  | [] => none
  | _ :: v => some (String.ofList (cs.takeWhile (· ≠ '=')), String.ofList v)

/-- The binding that a text gives: by the declaration of its name, or else by its looks. -/
def bindPair (c : Configuration) (pair : String) : Except Failure (String × Literal) :=
  match splitPair? pair with
  | none => .error (.notAPair pair)
  | some (name, text) =>
    let name := Text.trim name
    match c.parameters.find? name with
    | some p =>
      match p.bind name text with
      | .ok l => .ok (name, l)
      | .error defect => .error (.rule (.structural defect))
    | none => .ok (name, inferLiteral text)

/-- The bindings that texts give, added to those before. -/
def bindPairsFrom (c : Configuration) (bindings : Bindings) : List String → Except Failure Bindings
  | [] => .ok bindings
  | pair :: pairs => do
    let (name, l) ← bindPair c pair
    bindPairsFrom c (bindings.insert name l) pairs

/-- The bindings that texts give. -/
def bindPairs (c : Configuration) (pairs : List String) : Except Failure Bindings :=
  bindPairsFrom c .empty pairs

/-! ## The commands -/

/-- Lines, each with its end. -/
def lines (ls : List String) : String :=
  String.join (ls.map fun l => l ++ "\n")

/-- The query of a configuration with the bindings that texts give. -/
def compileQuery (settings : Settings) (files : Files) (path : String) (pairs : List String) :
    Except Failure CompiledQuery := do
  let c ← loadConfiguration files path
  let bindings ← bindPairs c pairs
  match c.missingParameters bindings with
  | [] => (c.compile settings bindings).mapError .rule
  | names => .error (.missingParameters names)

/-- What is printed for a query. -/
def printQuery (format : OutputFormat) (q : CompiledQuery) : Outcome :=
  match format with
  | .sql =>
    let note := if q.isFullyBound then []
      else ["⚠ unbound placeholders: " ++ String.intercalate ", " q.unresolved]
    ⟨0, lines [q.sql], lines note⟩
  | .json =>
    let v : Json := .object [("sql", .string q.sql), ("unresolved", .ofStrings q.unresolved)]
    ⟨0, lines [v.pretty], ""⟩

/-- What is printed for a check. -/
def printReport (r : Sql.Report) : Outcome :=
  let heading := if r.isValid then "✓ Valid SQL" else "✗ Invalid SQL"
  ⟨if r.isValid then 0 else 1,
    lines (heading :: r.faults.map (fun f => "  error: " ++ f.message)
      ++ r.warnings.map fun w => "  warning: " ++ w.message), ""⟩

/-- Check a statement, or the one in the file named after an at sign. -/
def runCheck (settings : Settings) (files : Files) (input : String) : Except Failure Outcome := do
  let sql ← match input.toList with
    | '@' :: path =>
      let path := String.ofList path
      (files path).mapError (.unreadable path)
    | _ => .ok input
  return printReport (Sql.Report.of settings.maxLength sql)

/-- The line that describes a parameter. -/
def parameterLine (name : String) (p : Parameter) : String :=
  let default := match p.default with
    | some l => " (default " ++ l.sql ++ ")"
    | none => ""
  "    " ++ name ++ " " ++ p.kind.name ++ " " ++ (if p.required then "required" else "optional")
    ++ default

/-- The description of a configuration, up to its validity. -/
def description (path : String) (c : Configuration) : List String :=
  let parameters := c.parameters.entries.map fun e => parameterLine e.1 e.2
  ["Rule Configuration", "", "File: " ++ path, "  Tables:"]
    ++ c.tables.map ("    • " ++ ·)
    ++ (if parameters.isEmpty then [] else "  Parameters:" :: parameters)
    ++ (if c.placeholders.isEmpty then []
        else ["  Placeholders: " ++ String.intercalate ", " c.placeholders])
    ++ [""]

/-- Describe a configuration, with its statement if it is valid. -/
def runExplain (settings : Settings) (files : Files) (path : String) : Except Failure Outcome := do
  let c ← loadConfiguration files path
  match c.compile settings .empty with
  | .ok q =>
    return ⟨0, lines (description path c
      ++ ["✓ Valid configuration", "", "Generated SQL:", "  " ++ q.sql]), ""⟩
  | .error e =>
    return ⟨1, lines (description path c ++ ["✗ Invalid configuration: " ++ e.message]), ""⟩

/-- Carry out a task. -/
def runTask (settings : Settings) (files : Files) : Task → Except Failure Outcome
  | .compile path params format => (compileQuery settings files path params).map (printQuery format)
  | .check sql => runCheck settings files sql
  | .explain path => runExplain settings files path

/-- Carry out an invocation. -/
def Invocation.run (files : Files) (configDirectory : Option String) (invocation : Invocation) :
    Outcome :=
  let outcome := do
    let settings ←
      (loadSettings files configDirectory invocation.settings).mapError Failure.settings
    runTask settings files invocation.task
  match outcome with
  | .ok outcome => outcome
  | .error failure => ⟨1, "", lines ["Error: " ++ failure.message]⟩

/-- The name and the version of the program. -/
def versionText : String := "rulesql 0.1.0"

/-- Run the program. A usage error has an exit code of its own and prints nothing. -/
def run (files : Files) (configDirectory environment : Option String) (args : List String) :
    Outcome :=
  match Request.read? environment args with
  | some .version => ⟨0, lines [versionText], ""⟩
  | some (.invoke invocation) => invocation.run files configDirectory
  | none => ⟨2, "", ""⟩

/-! ## What has to be read -/

/-- The paths that an invocation may read. -/
def Invocation.paths (configDirectory : Option String) (invocation : Invocation) : List String :=
  let operand := match invocation.task with
    | .compile path _ _ | .explain path => [path]
    | .check sql =>
      match sql.toList with
      | '@' :: path => [String.ofList path]
      | _ => []
  match invocation.settings with
  | some path => path :: operand
  | none => settingsFiles configDirectory ++ operand

/-- The paths that a request may read. -/
def Request.paths (configDirectory : Option String) : Request → List String
  | .version => []
  | .invoke invocation => invocation.paths configDirectory

end RuleQuery.Command
