/-
# Function calls

A call names a function and has arguments, which are literals, columns or calls again. An argument
that is a call keeps the function and the arguments of that call, so that `Argument` is a tree of
its own and `Call` is its root without the other two cases. `Call.make` checks the names that would
go into SQL as they are.
-/

import RuleQuery.Error

namespace RuleQuery

/-- An argument of a function. -/
inductive Argument
  | literal (value : Literal)
  | column (name : String)
  | call (function : String) (arguments : List Argument)

/-- A function applied to arguments. -/
structure Call where
  function : String
  arguments : List Argument

namespace Argument

instance : Inhabited Argument := ⟨.literal .null⟩

mutual

/-- Equality of arguments is decided along the tree. -/
def decEq : (a b : Argument) → Decidable (a = b)
  | .literal a, .literal b => if h : a = b then .isTrue (by rw [h]) else .isFalse (by simp [h])
  | .column a, .column b => if h : a = b then .isTrue (by rw [h]) else .isFalse (by simp [h])
  | .call f as, .call g bs =>
    if h : f = g then
      match decEqList as bs with
      | .isTrue h' => .isTrue (by rw [h, h'])
      | .isFalse h' => .isFalse (by simp [h'])
    else .isFalse (by simp [h])
  | .literal _, .column _ | .literal _, .call .. | .column _, .literal _
  | .column _, .call .. | .call .., .literal _ | .call .., .column _ => .isFalse (by simp)

def decEqList : (as bs : List Argument) → Decidable (as = bs)
  | [], [] => .isTrue rfl
  | [], _ :: _ | _ :: _, [] => .isFalse (by simp)
  | a :: as, b :: bs =>
    match decEq a b, decEqList as bs with
    | .isTrue h, .isTrue h' => .isTrue (by rw [h, h'])
    | .isFalse h, _ => .isFalse (by simp [h])
    | _, .isFalse h => .isFalse (by simp [h])

end

instance : DecidableEq Argument := decEq

mutual

/-- The parameters named in an argument, with repeats, from left to right. -/
def placeholders : Argument → List String
  | .literal l => l.placeholder?.toList
  | .column _ => []
  | .call _ args => placeholdersOf args

def placeholdersOf : List Argument → List String
  | [] => []
  | a :: as => a.placeholders ++ placeholdersOf as

end

/-- The functions that combine many rows into one value. -/
def aggregates : List String :=
  ["SUM", "AVG", "MIN", "MAX", "COUNT", "COUNT_DISTINCT", "STDDEV", "STDDEV_POP", "STDDEV_SAMP",
    "VARIANCE", "VAR_POP", "VAR_SAMP", "MEDIAN", "MODE", "PERCENTILE_CONT", "PERCENTILE_DISC"]

/-- Whether a function is an aggregate, in any case of its letters. -/
def isAggregateName (function : String) : Bool :=
  aggregates.contains (Text.upperAscii function)

mutual

/-- Whether there is an aggregate anywhere in an argument. -/
def hasAggregate : Argument → Bool
  | .literal _ | .column _ => false
  | .call f args => isAggregateName f || anyAggregate args

def anyAggregate : List Argument → Bool
  | [] => false
  | a :: as => a.hasAggregate || anyAggregate as

end

end Argument

namespace Call

instance : Inhabited Call := ⟨"", []⟩

deriving instance DecidableEq for Call

/-- The first column among the arguments that is not a column reference. -/
def badColumn? (args : List Argument) : Option String :=
  args.findSome? fun
    | .column name => if Name.isColumnReference name then none else some name
    | _ => none

/-- A call with a usable function name, at least one argument and usable columns. -/
def make (function : String) (args : List Argument) : Except Defect Call :=
  if Text.isBlankText function then .error .emptyFunctionName
  else if !Name.isIdentifier function then .error (.invalidFunctionName function)
  else if args.isEmpty then .error (.noArguments function)
  else match badColumn? args with
    | some name => .error (.invalidColumn name)
    | none => .ok ⟨function, args⟩

/-- A call as an argument of another one. -/
def toArgument (c : Call) : Argument := .call c.function c.arguments

def isAggregate (c : Call) : Bool := Argument.isAggregateName c.function

/-- Whether the call is an aggregate or holds one. -/
def hasAggregate (c : Call) : Bool := c.toArgument.hasAggregate

/-- The parameters named in a call, with repeats, from left to right. -/
def placeholders (c : Call) : List String := c.toArgument.placeholders

end Call

end RuleQuery
