/-
# Settings files

Settings files are written in TOML. A document is read line by line into a tree of tables. How a
table came to be decides what may still be added to it: a table named by a header may not be named
by one again, a table that only stands on the way to another may, a table made by a dotted key can
be extended by dotted keys only, and an inline table is complete where it is written. A number or a
time is checked for its form; of those, only integers keep their value. Keys and values are refused
when they are nested too deep.
-/

import RuleQuery.Number.Digits
import RuleQuery.Number.Reader

namespace RuleQuery.Toml

open RuleQuery.Number

/-- How a table came to be. -/
inductive Origin
  | header | implied | dotted | inline
  deriving DecidableEq, Repr

/-- A value of a document. Fractional numbers, and dates and times, are kept without their value. -/
inductive Value
  | string (value : String)
  | integer (value : Int)
  | boolean (value : Bool)
  | fractional
  | moment
  | array (items : List Value)
  | table (origin : Origin) (entries : List (String × Value))
  | tables (items : List (List (String × Value)))
  deriving Inhabited

abbrev Entries := List (String × Value)

/-! ## Building tables -/

/-- The value under a key. -/
def find? (key : String) (entries : Entries) : Option Value :=
  (entries.find? fun e => e.1 == key).map Prod.snd

/-- Put a value in the place of the one under a key, or add it. -/
def put (key : String) (v : Value) (entries : Entries) : Entries :=
  (entries.filter fun e => e.1 != key) ++ [(key, v)]

/--
Put a value under a dotted key. The tables on the way may be made by dotted keys, implied by a
header or the newest of an array of tables; but the table that gets the value is made by a dotted
key.
-/
def assign? (v : Value) : List String → Entries → Option Entries
  | [], _ => none
  | [key], entries => if (find? key entries).isSome then none else some (put key v entries)
  | key :: path, entries =>
    match find? key entries with
    | none => (assign? v path []).map fun es => put key (.table .dotted es) entries
    | some (.table .dotted es) =>
      (assign? v path es).map fun es => put key (.table .dotted es) entries
    | some (.table .implied es) =>
      if path.length < 2 then none
      else (assign? v path es).map fun es => put key (.table .implied es) entries
    | some (.tables items) =>
      match items.getLast? with
      | none => none
      | some es =>
        if path.length < 2 then none
        else (assign? v path es).map fun es => put key (.tables (items.dropLast ++ [es])) entries
    | some _ => none

/-- Change the entries that a path of headers leads to, making the tables on the way. -/
def descend? (change : Entries → Option Entries) : List String → Entries → Option Entries
  | [], entries => change entries
  | key :: path, entries =>
    match find? key entries with
    | none => (descend? change path []).map fun es => put key (.table .implied es) entries
    | some (.table .inline _) => none
    | some (.table origin es) =>
      (descend? change path es).map fun es => put key (.table origin es) entries
    | some (.tables items) =>
      match items.getLast? with
      | none => none
      | some es =>
        (descend? change path es).map fun es => put key (.tables (items.dropLast ++ [es])) entries
    | some _ => none

/-- Open the table of a header. -/
def openTable? (key : String) (entries : Entries) : Option Entries :=
  match find? key entries with
  | none => some (put key (.table .header []) entries)
  | some (.table .implied es) => some (put key (.table .header es) entries)
  | some _ => none

/-- Open the next table of an array of tables. -/
def openItem? (key : String) (entries : Entries) : Option Entries :=
  match find? key entries with
  | none => some (put key (.tables [[]]) entries)
  | some (.tables items) => some (put key (.tables (items ++ [[]])) entries)
  | some _ => none

/-! ## Reading values -/

/-- What reads something at the front of a text. -/
abbrev Scan (α : Type) := List Char → Option (α × List Char)

/-- Drop the spaces and tabs in front. -/
def skipSpaces (cs : List Char) : List Char :=
  cs.dropWhile fun c => c == ' ' || c == '\t'

/-- Drop the spaces, tabs and line ends in front. -/
def skipBlankLines : List Char → List Char
  | [] => []
  | '\r' :: '\n' :: cs => skipBlankLines cs
  | c :: cs => if c == ' ' || c == '\t' || c == '\n' then skipBlankLines cs else c :: cs

/-- A control character other than a tab. -/
def isControl (c : Char) : Bool :=
  (c.toNat < 0x20 && c != '\t') || c.toNat == 0x7F

/-- Drop a comment, up to the end of its line; other control characters are refused. -/
def skipComment? : List Char → Option (List Char)
  | '#' :: cs =>
    let rest := cs.dropWhile fun c => !isControl c
    match rest with
    | [] | '\n' :: _ | '\r' :: '\n' :: _ => some rest
    | _ => none
  | cs => some cs

/-- Drop what may stand at the end of a line, and the end itself. -/
def endLine? (cs : List Char) : Option (List Char) :=
  match skipComment? (skipSpaces cs) with
  | some [] => some []
  | some ('\n' :: rest) | some ('\r' :: '\n' :: rest) => some rest
  | _ => none

/-- Drop spaces, comments and line ends between the items of an array; `fuel` bounds their lines. -/
def skipLines? : (fuel : Nat) → List Char → Option (List Char)
  | 0, _ => none
  | fuel + 1, cs =>
    match skipComment? (skipSpaces cs) with
    | some ('\n' :: rest) | some ('\r' :: '\n' :: rest) => skipLines? fuel rest
    | r => r

/-- The value of a run of hexadecimal digits. -/
def hexValue? (cs : List Char) : Option Nat :=
  cs.foldlM (fun n c =>
    if c.isDigit then some (16 * n + (c.toNat - '0'.toNat))
    else if 'a' ≤ c && c ≤ 'f' then some (16 * n + (c.toNat - 'a'.toNat + 10))
    else if 'A' ≤ c && c ≤ 'F' then some (16 * n + (c.toNat - 'A'.toNat + 10))
    else none) 0

/-- The character with a given number of hexadecimal digits. -/
def hexChar? (size : Nat) (cs : List Char) : Option (Char × List Char) := do
  if cs.length < size then none
  else
    let n ← hexValue? (cs.take size)
    if n < 0xD800 || (0xE000 ≤ n && n < 0x110000) then some (Char.ofNat n, cs.drop size) else none

/-- The character of an escape, after its backslash. -/
def escape? : Scan Char
  | 'b' :: cs => some ('\x08', cs)
  | 't' :: cs => some ('\t', cs)
  | 'n' :: cs => some ('\n', cs)
  | 'f' :: cs => some ('\x0c', cs)
  | 'r' :: cs => some ('\r', cs)
  | '"' :: cs => some ('"', cs)
  | '\\' :: cs => some ('\\', cs)
  | 'u' :: cs => hexChar? 4 cs
  | 'U' :: cs => hexChar? 8 cs
  | _ => none

/-- The rest of a string on one line, after its opening quote. Only double quotes have escapes. -/
def lineString? (quote : Char) : (fuel : Nat) → Scan (List Char)
  | 0, _ => none
  | _, [] => none
  | fuel + 1, c :: cs =>
    if c = quote then some ([], cs)
    else if c = '\\' && quote = '"' then do
      let (d, rest) ← escape? cs
      let (ds, rest) ← lineString? quote fuel rest
      return (d :: ds, rest)
    else if isControl c then none
    else (lineString? quote fuel cs).map fun (ds, rest) => (c :: ds, rest)

/-- The rest of a string on several lines, after its three opening quotes. -/
def blockString? (quote : Char) : (fuel : Nat) → Scan (List Char)
  | 0, _ => none
  | _, [] => none
  | fuel + 1, c :: cs =>
    if c = quote && cs.take 2 = [quote, quote] then
      -- Up to two quotes may stand before the closing three.
      let more := (cs.drop 2).takeWhile (· = quote)
      if more.length ≤ 2 then some (more, cs.drop (2 + more.length)) else none
    else if c = '\\' && quote = '"' then
      let trailing := skipSpaces cs
      match trailing with
      | '\n' :: rest | '\r' :: '\n' :: rest =>
        blockString? quote fuel (skipBlankLines rest)
      | _ => do
        let (d, rest) ← escape? cs
        let (ds, rest) ← blockString? quote fuel rest
        return (d :: ds, rest)
    else if c = '\r' && cs.head? ≠ some '\n' then none
    else if isControl c && c ≠ '\n' && c ≠ '\r' then none
    else (blockString? quote fuel cs).map fun (ds, rest) => (c :: ds, rest)

/-- A string of any of the four kinds. -/
def string? (cs : List Char) : Option (String × List Char) :=
  let fuel := cs.length + 1
  let body := match cs with
    | '"' :: '"' :: '"' :: '\r' :: '\n' :: rest => blockString? '"' fuel rest
    | '"' :: '"' :: '"' :: '\n' :: rest => blockString? '"' fuel rest
    | '"' :: '"' :: '"' :: rest => blockString? '"' fuel rest
    | '\'' :: '\'' :: '\'' :: '\r' :: '\n' :: rest => blockString? '\'' fuel rest
    | '\'' :: '\'' :: '\'' :: '\n' :: rest => blockString? '\'' fuel rest
    | '\'' :: '\'' :: '\'' :: rest => blockString? '\'' fuel rest
    | '"' :: rest => lineString? '"' fuel rest
    | '\'' :: rest => lineString? '\'' fuel rest
    | _ => none
  body.map fun (ds, rest) => (String.ofList ds, rest)

/-- One part of a key: a bare word, or a string on one line. -/
def keyPart? (cs : List Char) : Option (String × List Char) :=
  match cs with
  | '"' :: rest =>
    (lineString? '"' (cs.length + 1) rest).map fun (ds, rest) => (String.ofList ds, rest)
  | '\'' :: rest =>
    (lineString? '\'' (cs.length + 1) rest).map fun (ds, rest) => (String.ofList ds, rest)
  | _ =>
    let isBare (c : Char) : Bool := c.isAlphanum || c == '_' || c == '-'
    let word := cs.takeWhile isBare
    if word.isEmpty then none else some (String.ofList word, cs.dropWhile isBare)

/-- The greatest number of parts of a key, and of arrays and inline tables around a value. -/
def depthLimit : Nat := 79

/-- A key of at most `depth` parts, which are separated by points. -/
def keyWithin? : (depth : Nat) → Scan (List String)
  | 0, _ => none
  | depth + 1, cs => do
    let (part, rest) ← keyPart? (skipSpaces cs)
    match skipSpaces rest with
    | '.' :: rest =>
      let (parts, rest) ← keyWithin? depth rest
      return (part :: parts, rest)
    | rest => return ([part], rest)

/-- A key. -/
def key? : Scan (List String) := keyWithin? depthLimit

/-- Whether every underscore stands between two digits of a run that is not empty. -/
def isGrouped (isDigit : Char → Bool) : List Char → Bool
  | [] => false
  | [c] => isDigit c
  | c :: '_' :: d :: cs => isDigit c && isGrouped isDigit (d :: cs)
  | c :: cs => isDigit c && isGrouped isDigit cs

/-- A run of digits without its underscores. -/
def ungrouped (cs : List Char) : List Char := cs.filter (· ≠ '_')

/-- Decimal digits, grouped, without a zero in front of others. -/
def isDecimal (cs : List Char) : Bool :=
  isGrouped Char.isDigit cs && (cs.head? ≠ some '0' || cs.length = 1)

/-- A fractional number, after its sign. -/
def isFractional (cs : List Char) : Bool :=
  let (mantissa, power) := cs.span fun c => c ≠ 'e' && c ≠ 'E'
  let (whole, places) := mantissa.span (· ≠ '.')
  let powerOk := match power with
    | [] => true
    | _ :: ds => isGrouped Char.isDigit (takeSign ds).2
  let placesOk := match places with
    | [] => !power.isEmpty
    | _ :: ds => isGrouped Char.isDigit ds
  isDecimal whole && placesOk && powerOk

/-- Whether a fractional number is too large for the format. There is no such bound below zero. -/
def overflows (cs : List Char) : Bool :=
  readBinary64? (String.ofList (ungrouped cs)) = some (Binary64.infinity false)

/-- A number that has to have a given number of digits and a greatest value. -/
def fieldOf? (size most : Nat) (cs : List Char) : Option (Nat × List Char) :=
  let ds := cs.take size
  if ds.length = size && ds.all Char.isDigit && value ds ≤ most then some (value ds, cs.drop size)
  else none

/-- What follows a given character. -/
def after? (c : Char) : List Char → Option (List Char)
  | [] => none
  | d :: cs => if c = d then some cs else none

/-- What follows a time of day. -/
def afterTime? (cs : List Char) : Option (List Char) := do
  let (_, cs) ← fieldOf? 2 23 cs
  let (_, cs) ← fieldOf? 2 59 (← after? ':' cs)
  let (_, cs) ← fieldOf? 2 60 (← after? ':' cs)
  match cs with
  | '.' :: rest =>
    let ds := rest.takeWhile Char.isDigit
    if ds.isEmpty then none else some (rest.drop ds.length)
  | _ => some cs

/-- What follows an offset, if there is one. -/
def afterOffset? (cs : List Char) : Option (List Char) :=
  match cs with
  | 'Z' :: rest | 'z' :: rest => some rest
  | '+' :: rest | '-' :: rest => do
    let (_, cs) ← fieldOf? 2 23 rest
    let (_, cs) ← fieldOf? 2 59 (← after? ':' cs)
    return cs
  | _ => some cs

/-- What follows a date. -/
def afterDate? (cs : List Char) : Option (List Char) := do
  let (year, cs) ← fieldOf? 4 9999 cs
  let (month, cs) ← fieldOf? 2 12 (← after? '-' cs)
  let (day, cs) ← fieldOf? 2 31 (← after? '-' cs)
  let leap := year % 4 = 0 && (year % 100 ≠ 0 || year % 400 = 0)
  let most := match month with
    | 2 => if leap then 29 else 28
    | 4 | 6 | 9 | 11 => 30
    | _ => 31
  if month = 0 || day = 0 || most < day then none else some cs

/-- What follows a date with an optional time and offset, or a time of day. -/
def afterMoment? (cs : List Char) : Option (List Char) :=
  match cs[2]? with
  | some ':' => afterTime? cs
  | _ =>
    match afterDate? cs with
    | none => none
    | some rest =>
      match rest with
      | c :: d :: more =>
        if (c = 'T' || c = 't' || c = ' ') && d.isDigit then
          (afterTime? (d :: more)).bind afterOffset?
        else some rest
      | _ => some rest

/-- A value that is a single word: a truth value or a number. -/
def word? (cs : List Char) : Option Value :=
  let (negative, body) := takeSign cs
  let ofBase (isDigit : Char → Bool) (base : Nat) (ds : List Char) : Option Value :=
    if isGrouped isDigit ds then
      (hexValue? (ungrouped ds)).bind fun _ =>
        let n := (ungrouped ds).foldl (fun n c => base * n + (hexValue? [c]).getD 0) 0
        if isInt64 n then some (.integer n) else none
    else none
  match cs with
  | ['t', 'r', 'u', 'e'] => some (.boolean true)
  | ['f', 'a', 'l', 's', 'e'] => some (.boolean false)
  | '0' :: 'x' :: ds => ofBase (fun c => (hexValue? [c]).isSome) 16 ds
  | '0' :: 'o' :: ds => ofBase (fun c => '0' ≤ c && c ≤ '7') 8 ds
  | '0' :: 'b' :: ds => ofBase (fun c => c = '0' || c = '1') 2 ds
  | _ =>
    if body = ['i', 'n', 'f'] || body = ['n', 'a', 'n'] then some .fractional
    else if isDecimal body then
      let n : Int := if negative then -(value (ungrouped body) : Int) else value (ungrouped body)
      if isInt64 n then some (.integer n) else none
    else if isFractional body && !overflows cs then some .fractional
    else none

/-- A truth value, a number or a time. -/
def plain? (cs : List Char) : Option (Value × List Char) :=
  let isMoment := (cs.take 4).all Char.isDigit && cs[4]? = some '-' ||
    (cs.take 2).all Char.isDigit && cs[2]? = some ':'
  if isMoment then (afterMoment? cs).map fun rest => (.moment, rest)
  else
    let isPart (c : Char) : Bool := c.isAlphanum || c == '_' || c == '+' || c == '-' || c == '.'
    (word? (cs.takeWhile isPart)).map fun v => (v, cs.dropWhile isPart)

/-- A string, a truth value, a number or a time. -/
def scalar? (cs : List Char) : Option (Value × List Char) :=
  match cs with
  | '"' :: _ | '\'' :: _ => (string? cs).map fun (s, rest) => (.string s, rest)
  | _ => plain? cs

/-- The rest of an array, after its bracket or a comma; `fuel` bounds the number of its items. -/
def items? (read : Scan Value) : (fuel : Nat) → Scan (List Value)
  | 0, _ => none
  | fuel + 1, cs => do
    match ← skipLines? (cs.length + 1) cs with
    | ']' :: rest => return ([], rest)
    | cs =>
      let (v, rest) ← read cs
      match ← skipLines? (rest.length + 1) rest with
      | ',' :: rest =>
        let (vs, rest) ← items? read fuel rest
        return (v :: vs, rest)
      | ']' :: rest => return ([v], rest)
      | _ => none

/--
The rest of an inline table, after its brace or a comma, added to the entries before; `fuel` bounds
the number of its members.
-/
def members? (read : Scan Value) : (fuel : Nat) → Entries → Scan Entries
  | 0, _, _ => none
  | fuel + 1, entries, cs => do
    let (path, rest) ← key? cs
    let rest ← after? '=' rest
    let (v, rest) ← read (skipSpaces rest)
    let entries ← assign? v path entries
    match skipSpaces rest with
    | ',' :: rest => members? read fuel entries rest
    | '\x7d' :: rest => return (entries, rest)
    | _ => none

/-- A value with at most `depth` arrays and inline tables in each other. -/
def valueWithin? : (depth : Nat) → Scan Value
  | 0, cs => scalar? cs
  | depth + 1, cs =>
    match cs with
    | '[' :: rest =>
      (items? (valueWithin? depth) cs.length rest).map fun (vs, rest) => (.array vs, rest)
    | '\x7b' :: rest =>
      match skipSpaces rest with
      | '\x7d' :: rest => some (.table .inline [], rest)
      | rest =>
        (members? (valueWithin? depth) cs.length [] rest).map fun (es, rest) =>
          (.table .inline es, rest)
    | _ => scalar? cs

/-- A value. -/
def value? : Scan Value := valueWithin? depthLimit

/-! ## Reading a document -/

/-- The document read so far, and the path of the header in force. -/
structure Reading where
  root : Entries
  path : List String

/-- Read a header, after its first bracket. -/
def header? (r : Reading) (cs : List Char) : Option (Reading × List Char) := do
  let (many, cs) := match cs with
    | '[' :: cs => (true, cs)
    | cs => (false, cs)
  let (path, rest) ← key? cs
  let rest ← after? ']' rest
  let rest ← if many then after? ']' rest else some rest
  let last ← path.getLast?
  let open? := if many then openItem? last else openTable? last
  let root ← descend? open? path.dropLast r.root
  return (⟨root, path⟩, rest)

/-- Read a key and its value. -/
def keyLine? (r : Reading) (cs : List Char) : Option (Reading × List Char) := do
  let (path, rest) ← key? cs
  let rest ← after? '=' rest
  let (v, rest) ← value? (skipSpaces rest)
  let root ← descend? (assign? v path) r.path r.root
  return (⟨root, r.path⟩, rest)

/-- Read line after line; `fuel` bounds their number. -/
def lines? : (fuel : Nat) → Reading → List Char → Option Reading
  | 0, _, _ => none
  | fuel + 1, r, cs =>
    match skipSpaces cs with
    | [] => some r
    | '[' :: rest => do
      let (r, rest) ← header? r rest
      lines? fuel r (← endLine? rest)
    | c :: rest =>
      if c = '#' || c = '\n' || c = '\r' then do
        lines? fuel r (← endLine? (c :: rest))
      else do
        let (r, rest) ← keyLine? r (c :: rest)
        lines? fuel r (← endLine? rest)

/-- Read a document; a byte order mark may stand in front. -/
def read? (s : String) : Option Entries :=
  let cs := match s.toList with
    | '\uFEFF' :: cs => cs
    | cs => cs
  (lines? (cs.length + 1) ⟨[], []⟩ cs).map Reading.root

end RuleQuery.Toml
