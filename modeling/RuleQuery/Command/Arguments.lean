/-
# Command line arguments

A command line is a command with its own options and one operand. Options for the settings file and
for verbosity may stand before or after the command, once at each of these levels. An option is long
or short; its value follows in the same argument or in the next one, and in the next one it may not
look like an option. Two hyphens end the options. Before the command one may also ask for the
version of the program, and what stands after that is not looked at. What does not fit is a usage
error, of which nothing more is said.
-/

namespace RuleQuery.Command

/-- How a compiled query is printed. -/
inductive OutputFormat
  | sql | json
  deriving DecidableEq, Repr, Inhabited

/-- What is to be done. -/
inductive Task
  | compile (path : String) (params : List String) (format : OutputFormat)
  | check (sql : String)
  | explain (path : String)
  deriving DecidableEq, Repr

/-- A task and the settings file named for it. -/
structure Invocation where
  settings : Option String
  task : Task
  deriving DecidableEq, Repr

/-- What a command line asks for. -/
inductive Request
  | version
  | invoke (invocation : Invocation)
  deriving DecidableEq, Repr

/-- The names of the commands, which are also the levels at which options may stand. -/
inductive Level
  | top | compile | check | explain
  deriving DecidableEq, Repr

def Level.ofCommand? : String → Option Level
  | "compile" => some .compile
  | "check" => some .check
  | "explain" => some .explain
  | _ => none

/-- The options. -/
inductive Switch
  | settings | verbose | version | param | format
  deriving DecidableEq, Repr

def Switch.takesValue : Switch → Bool
  | .verbose | .version => false
  | _ => true

/-- The option with a long name. -/
def Switch.ofLong? (level : Level) : String → Option Switch
  | "settings" => some .settings
  | "verbose" => some .verbose
  | "version" => if level = .top then some .version else none
  | "param" => if level = .compile then some .param else none
  | "format" => if level = .compile then some .format else none
  | _ => none

/-- The option with a letter. -/
def Switch.ofShort? (level : Level) : Char → Option Switch
  | 'v' => some .verbose
  | 'V' => if level = .top then some .version else none
  | 'p' => if level = .compile then some .param else none
  | 'f' => if level = .compile then some .format else none
  | _ => none

/-- What has been given at one level. -/
structure Given where
  settings : Option String
  verbose : Bool
  version : Bool
  params : List String
  format : Option OutputFormat
  operands : List String

/-- Nothing has been given. -/
def Given.nothing : Given := ⟨none, false, false, [], none, []⟩

/-- Take an option with its value. All but parameters may be given once only. -/
def Given.take? (g : Given) (switch : Switch) (v : String) : Option Given :=
  match switch with
  | .settings =>
    if g.settings.isSome || v.isEmpty then none else some { g with settings := some v }
  | .verbose => if g.verbose then none else some { g with verbose := true }
  | .version => some { g with version := true }
  | .param => some { g with params := g.params ++ [v] }
  | .format =>
    if g.format.isSome then none
    else match v with
      | "sql" => some { g with format := some .sql }
      | "json" => some { g with format := some .json }
      | _ => none

/-- Take a run of letters after one hyphen; the option still in want of a value comes back. -/
def Given.takeLetters? (level : Level) (g : Given) : List Char → Option (Given × Option Switch)
  | [] => some (g, none)
  | c :: cs => do
    let switch ← Switch.ofShort? level c
    if switch.takesValue then
      match cs with
      | [] => return (g, some switch)
      | '=' :: cs => return (← g.take? switch (String.ofList cs), none)
      | cs => return (← g.take? switch (String.ofList cs), none)
    else
      let g ← g.take? switch ""
      if g.version then return (g, none) else g.takeLetters? level cs

/-- Take the text after two hyphens, with the value after an equals sign if there is one. -/
def Given.takeLong? (level : Level) (g : Given) (cs : List Char) :
    Option (Given × Option Switch) := do
  let switch ← Switch.ofLong? level (String.ofList (cs.takeWhile (· ≠ '=')))
  match cs.dropWhile (· ≠ '=') with
  | [] => if switch.takesValue then return (g, some switch) else return (← g.take? switch "", none)
  | _ :: v =>
    if switch.takesValue then return (← g.take? switch (String.ofList v), none) else none

/-- What an argument looks like. -/
inductive Shape
  | operand
  | endOfOptions
  | long (cs : List Char)
  | letters (cs : List Char)

def Shape.of (arg : String) : Shape :=
  match arg.toList with
  | ['-', '-'] => .endOfOptions
  | '-' :: '-' :: cs => .long cs
  | '-' :: c :: cs => .letters (c :: cs)
  | _ => .operand

/-- Whether an argument looks like an option; a lone hyphen does not. -/
def isOption (arg : String) : Bool :=
  match Shape.of arg with
  | .operand => false
  | _ => true

/-- Take the value of an option, if it is in want of one, from the arguments that follow. -/
def Given.takeNext? : Given × Option Switch → List String → Option (Given × Nat)
  | (g, none), _ => some (g, 0)
  | (_, some _), [] => none
  | (g, some switch), v :: _ =>
    if isOption v then none else (g.take? switch v).map fun g => (g, 1)

/-- Take the arguments of a command; `fuel` bounds their number. -/
def Given.takeAll? (level : Level) : (fuel : Nat) → Given → List String → Option Given
  | 0, _, _ => none
  | _, g, [] => some g
  | fuel + 1, g, arg :: rest =>
    match Shape.of arg with
    | .operand => takeAll? level fuel { g with operands := g.operands ++ [arg] } rest
    | .endOfOptions => some { g with operands := g.operands ++ rest }
    | .long cs => do
      let (g, used) ← takeNext? (← g.takeLong? level cs) rest
      takeAll? level fuel g (rest.drop used)
    | .letters cs => do
      let (g, used) ← takeNext? (← g.takeLetters? level cs) rest
      takeAll? level fuel g (rest.drop used)

/-- The task of a command, which has exactly one operand. A path is not empty. -/
def Given.task? (level : Level) (g : Given) : Option Task :=
  match level, g.operands with
  | .compile, [path] =>
    if path.isEmpty then none else some (.compile path g.params (g.format.getD .sql))
  | .check, [sql] => some (.check sql)
  | .explain, [path] => if path.isEmpty then none else some (.explain path)
  | _, _ => none

/--
The invocation that the options before a command and those after it give. The level of the command
counts first, then the one before it, then the environment. Either level without a settings file
turns to the environment, which may not name an empty one.
-/
def Given.invocation? (environment : Option String) (level : Level) (outer own : Given) :
    Option Invocation := do
  let task ← own.task? level
  if environment = some "" && (outer.settings.isNone || own.settings.isNone) then none
  else return ⟨(own.settings.or outer.settings).or environment, task⟩

/-- Read a command line from the options before the command on; `fuel` bounds its length. -/
def readFrom? (environment : Option String) : (fuel : Nat) → Given → List String → Option Request
  | 0, _, _ => none
  | fuel + 1, g, args =>
    if g.version then some .version
    else match args with
      | [] => none
      | arg :: rest =>
        match Shape.of arg with
        | .operand => do
          let level ← Level.ofCommand? arg
          let own ← Given.takeAll? level (rest.length + 1) .nothing rest
          return .invoke (← Given.invocation? environment level g own)
        | .endOfOptions => none
        | .long cs => do
          let (g, used) ← Given.takeNext? (← g.takeLong? .top cs) rest
          readFrom? environment fuel g (rest.drop used)
        | .letters cs => do
          let (g, used) ← Given.takeNext? (← g.takeLetters? .top cs) rest
          readFrom? environment fuel g (rest.drop used)

/-- Read a command line, where the environment may name a settings file. -/
def Request.read? (environment : Option String) (args : List String) : Option Request :=
  readFrom? environment (args.length + 1) .nothing args

end RuleQuery.Command
