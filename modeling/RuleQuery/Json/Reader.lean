/-
# Reading JSON text

Tokens are read one at a time by a machine with a stack. The stack holds the arrays and objects that
are open, the innermost on top, each with what it holds so far; the stage says what may come next.
A value that is complete is put into the container on top of the stack, and is the result when
there is none. The nesting of a document is limited.
-/

import RuleQuery.Json.Token

namespace RuleQuery.Json

/-- An open container. An object whose next value is being read knows the key of that value. -/
inductive Frame
  | array (items : List Json)
  | object (entries : List (String × Json))
  | member (entries : List (String × Json)) (key : String)

/-- What may come next. -/
inductive Stage
  | value
  | valueOrClose
  | keyOrClose
  | key
  | colon
  | separator
  | done (result : Json)

/-- The state of the machine. -/
structure Machine where
  stack : List Frame
  stage : Stage

namespace Machine

/-- Nothing has been read. -/
def start : Machine := ⟨[], .value⟩

/-- Put a complete value where it belongs. -/
def place (v : Json) : List Frame → Option Machine
  | [] => some ⟨[], .done v⟩
  | .array items :: stack => some ⟨.array (items ++ [v]) :: stack, .separator⟩
  | .member entries key :: stack =>
    some ⟨.object (insertEntry key v entries) :: stack, .separator⟩
  | .object _ :: _ => none

/-- Read a token where a value may come. -/
def readValue (limit : Nat) (stack : List Frame) : Token → Option Machine
  | .null => place .null stack
  | .bool b => place (.bool b) stack
  | .int n => place (.int n) stack
  | .float x => place (.float x) stack
  | .string s => place (.string s) stack
  | .openArray =>
    if stack.length < limit then some ⟨.array [] :: stack, .valueOrClose⟩ else none
  | .openObject =>
    if stack.length < limit then some ⟨.object [] :: stack, .keyOrClose⟩ else none
  | _ => none

/-- Read a token where a key may come. -/
def readKey (stack : List Frame) : Token → Option Machine
  | .string key =>
    match stack with
    | .object entries :: stack => some ⟨.member entries key :: stack, .colon⟩
    | _ => none
  | _ => none

/-- Read a token after a value inside a container. -/
def readSeparator (stack : List Frame) (token : Token) : Option Machine :=
  match stack, token with
  | .array _ :: _, .comma => some ⟨stack, .value⟩
  | .array items :: rest, .closeArray => place (.array items) rest
  | .object _ :: _, .comma => some ⟨stack, .key⟩
  | .object entries :: rest, .closeObject => place (.object entries) rest
  | _, _ => none

/-- Read one token, in a document of at most `limit` nested containers. -/
def step (limit : Nat) (m : Machine) (token : Token) : Option Machine :=
  match m.stage with
  | .value => readValue limit m.stack token
  | .valueOrClose =>
    if token = .closeArray then readSeparator m.stack token else readValue limit m.stack token
  | .keyOrClose =>
    if token = .closeObject then readSeparator m.stack token else readKey m.stack token
  | .key => readKey m.stack token
  | .colon => if token = .colon then some ⟨m.stack, .value⟩ else none
  | .separator => readSeparator m.stack token
  | .done _ => none

/-- Read tokens one after another. -/
def run (limit : Nat) (m : Machine) : List Token → Option Machine
  | [] => some m
  | token :: tokens => (m.step limit token).bind fun m => m.run limit tokens

/-- The document, once it is complete. -/
def result? (m : Machine) : Option Json :=
  match m.stage with
  | .done v => some v
  | _ => none

end Machine

/-- The number of containers that may be nested in each other. -/
def depthLimit : Nat := 127

/-- Read a text as a document with at most `limit` nested containers. -/
def readWithin? (limit : Nat) (s : String) : Option Json := do
  let tokens ← Token.read? s.toList
  let m ← Machine.start.run limit tokens
  m.result?

/-- Read a text as a document. -/
def read? (s : String) : Option Json := readWithin? depthLimit s

end RuleQuery.Json
