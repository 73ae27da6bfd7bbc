/-
# What can go wrong

Errors are causes, and their wording is a function of the cause. A document that does not have the
expected shape gives a `Mismatch` at a place in the document; a node that breaks a rule of its own
gives a `Defect`; names that do not fit together give a `ReferenceFault`; a rule that breaks a
business rule gives an `InvariantFault`. `RuleError` joins these with the refusals of the lifecycle
and of the settings.
-/

import RuleQuery.Literal
import RuleQuery.Operator
import RuleQuery.Parameter.Kind
import RuleQuery.Rule.Status

namespace RuleQuery

/-- The six kinds of value that a document can hold. -/
inductive DocumentKind
  | null | boolean | number | string | array | object
  deriving DecidableEq, Repr

def DocumentKind.name : DocumentKind → String
  | .null => "null"
  | .boolean => "boolean"
  | .number => "number"
  | .string => "string"
  | .array => "array"
  | .object => "object"

/-- A step from a value of a document to a value inside it. -/
inductive Step
  | key (name : String)
  | index (i : Nat)
  deriving DecidableEq, Repr

def Step.text : Step → String
  | .key name => "." ++ name
  | .index i => "[" ++ Number.integerText i ++ "]"

/-- The text of a place, starting from the text of the place where the steps start. -/
def locationText (base : String) (steps : List Step) : String :=
  steps.foldl (fun path step => path ++ step.text) base

/-- How a value of a document fails to be what is expected in its place. -/
inductive Mismatch
  | expected (what : String) (found : DocumentKind)
  | unknownKey (key : String)
  | missingKey (key : String)
  | ambiguousTag
  | invalidDate (text : String)
  | invalidTimestamp (text : String)
  | unknownOperator (text : String)
  | unknownConnective (text : String)
  | unknownJoinKind (text : String)
  | unknownParameterKind (text : String)
  | nestedList
  | listElement (found : DocumentKind)
  | wrongDefault (kind : ParameterKind) (text : String)
  | invalidText
  deriving DecidableEq, Repr

def Mismatch.message : Mismatch → String
  | .expected what found => "expected " ++ what ++ ", got " ++ found.name
  | .unknownKey key => "unknown key '" ++ key ++ "'"
  | .missingKey key => "missing required key '" ++ key ++ "'"
  | .ambiguousTag => "tagged literal must have exactly one of 'date', 'timestamp' or 'string'"
  | .invalidDate text => "invalid date '" ++ text ++ "', expected YYYY-MM-DD"
  | .invalidTimestamp text =>
    "invalid timestamp '" ++ text ++ "', expected YYYY-MM-DDTHH:MM:SS with an optional offset"
  | .unknownOperator text => "unknown operator '" ++ text ++ "'"
  | .unknownConnective text => "unknown logical operator '" ++ text ++ "'"
  | .unknownJoinKind text => "unknown join type '" ++ text ++ "'"
  | .unknownParameterKind text => "unknown parameter type '" ++ text ++ "'"
  | .nestedList => "nested lists are not allowed"
  | .listElement found => "list elements must be literals, got " ++ found.name
  | .wrongDefault kind text => "expected a " ++ kind.name ++ " value, got '" ++ text ++ "'"
  | .invalidText => "not a JSON document"

/-- How a node breaks a rule of its own. -/
inductive Defect
  | emptyFunctionName
  | invalidFunctionName (name : String)
  | noArguments (function : String)
  | invalidColumn (name : String)
  | invalidField (name : String)
  | unexpectedValue (op : Comparison)
  | missingList (op : Comparison)
  | unlikeBounds (low high : LiteralKind)
  | nullBounds
  | notTwoBounds
  | unexpectedList (op : Comparison)
  | emptyGroup
  | missingConnective
  | emptyTableName
  | invalidTableName (name : String)
  | invalidAlias (name : String)
  | blankJoinCondition
  | blankSelectField
  | emptySelect
  | wrongValue (parameter : String) (kind : ParameterKind) (text : String)
  | unlistedValue (parameter : String) (values : List String)
  | noSelectFields
  | noMainTable
  | blankGrouping
  | blankOrdering
  | aggregateInWhere (function : String)
  deriving DecidableEq, Repr

def Defect.message : Defect → String
  | .emptyFunctionName => "Function name cannot be empty"
  | .invalidFunctionName name => "Invalid function name: " ++ name
  | .noArguments function => "Expression " ++ function ++ " must have at least one argument"
  | .invalidColumn name => "Invalid column reference: " ++ name
  | .invalidField name => "Invalid field name: " ++ name
  | .unexpectedValue op => op.symbol ++ " cannot have a value"
  | .missingList op => op.symbol ++ " requires a non-empty list"
  | .unlikeBounds low high =>
    "BETWEEN values must have the same type (got " ++ low.name ++ " and " ++ high.name ++ ")"
  | .nullBounds => "BETWEEN bounds cannot be NULL"
  | .notTwoBounds => "BETWEEN requires exactly 2 values"
  | .unexpectedList op => op.symbol ++ " does not accept a list value"
  | .emptyGroup => "BooleanGroup must have at least one condition"
  | .missingConnective => "Logical operator required for multiple conditions"
  | .emptyTableName => "Table name cannot be empty"
  | .invalidTableName name => "Invalid table name: " ++ name
  | .invalidAlias name => "Invalid alias: " ++ name
  | .blankJoinCondition => "JoinClause requires a valid ON condition"
  | .blankSelectField => "SelectField expression cannot be empty"
  | .emptySelect => "SelectClause must have at least one field"
  | .wrongValue parameter kind text =>
    "Parameter '" ++ parameter ++ "' expects a " ++ kind.name ++ " value, got '" ++ text ++ "'"
  | .unlistedValue parameter values =>
    "Parameter '" ++ parameter ++ "' must be one of: " ++ String.intercalate ", " values
  | .noSelectFields => "RuleConfiguration must have at least one select field"
  | .noMainTable => "RuleConfiguration must specify a main table"
  | .blankGrouping => "GROUP BY entries cannot be empty"
  | .blankOrdering => "ORDER BY entries cannot be empty"
  | .aggregateInWhere function =>
    "Aggregate function " ++ function ++ " is not allowed in WHERE; use HAVING"

/-- How the names of a configuration fail to fit together. -/
inductive ReferenceFault
  | repeatedAlias (name : String)
  | undeclaredParameter (name : String) (suggestion : Option String)
  deriving DecidableEq, Repr

def ReferenceFault.suggestion : ReferenceFault → Option String
  | .repeatedAlias _ => none
  | .undeclaredParameter _ suggestion => suggestion

/-- A message with a hint at the name that was probably meant. -/
def withHint (message : String) : Option String → String
  | none => message
  | some name => message ++ ". Did you mean '" ++ name ++ "'?"

def ReferenceFault.message : ReferenceFault → String
  | .repeatedAlias name => "Alias '" ++ name ++ "' is declared more than once"
  | .undeclaredParameter name suggestion =>
    withHint ("Parameter '" ++ name ++ "' is referenced but not declared") suggestion

/-- How a rule breaks a business rule. -/
inductive InvariantFault
  | unnamed
  | noSection
  | prepaidBalance
  | noTables
  | undeclaredTable (name : String)
  deriving DecidableEq, Repr

def InvariantFault.message : InvariantFault → String
  | .unnamed => "A rule must have a name"
  | .noSection => "A rule must be associated with a section"
  | .prepaidBalance => "Prepaid profile can only have main balance"
  | .noTables => "A rule must specify at least one database table"
  | .undeclaredTable name =>
    "Table '" ++ name ++ "' used in configuration but not listed in declared tables"

/-- Why settings could not be loaded. A malformed document may have a file it comes from. -/
inductive SettingsFault
  | notFound (path : String)
  | malformed (path : Option String)
  deriving DecidableEq, Repr

def SettingsFault.message : SettingsFault → String
  | .notFound path => "Settings file not found: " ++ path
  | .malformed none => "TOML parse error"
  | .malformed (some path) => path ++ ": TOML parse error"

/-- The stable names of the classes of error, and the sentence each of them opens with. -/
inductive ErrorKind
  | document | structural | referential | transition | invariant | settings | io
  deriving DecidableEq, Repr

namespace ErrorKind

def code : ErrorKind → String
  | .document => "DESERIALIZATION_ERROR"
  | .structural => "STRUCTURAL_ERROR"
  | .referential => "REFERENTIAL_ERROR"
  | .transition => "INVALID_TRANSITION"
  | .invariant => "BUSINESS_INVARIANT_ERROR"
  | .settings => "CONFIG_ERROR"
  | .io => "IO_ERROR"

/-- The opening of an error's text. A document error goes on with the place it is at. -/
def heading : ErrorKind → String
  | .document => "Deserialization error at "
  | .structural => "Structural error: "
  | .referential => "Referential error: "
  | .transition => "Invalid transition: "
  | .invariant => "Business invariant violated: "
  | .settings => "Configuration error: "
  | .io => "IO error: "

/-- The sentence of a document error. -/
def located (path message : String) : String :=
  ErrorKind.document.heading ++ path ++ ": " ++ message

/-- The sentence of a refused move. -/
def move (source target : String) : String :=
  ErrorKind.transition.heading ++ source ++ " -> " ++ target

end ErrorKind

/-- An error of any class. -/
inductive RuleError
  | document (path : String) (cause : Mismatch)
  | structural (cause : Defect)
  | referential (cause : ReferenceFault)
  | transition (source target : Status)
  | invariant (cause : InvariantFault)
  | settings (cause : SettingsFault)
  | io (text : String)
  deriving DecidableEq, Repr

namespace RuleError

def kind : RuleError → ErrorKind
  | .document .. => .document
  | .structural _ => .structural
  | .referential _ => .referential
  | .transition .. => .transition
  | .invariant _ => .invariant
  | .settings _ => .settings
  | .io _ => .io

/-- The text of an error. -/
def message : RuleError → String
  | .document path cause => ErrorKind.located path cause.message
  | .structural cause => ErrorKind.structural.heading ++ cause.message
  | .referential cause => ErrorKind.referential.heading ++ cause.message
  | .transition source target => ErrorKind.move source.name target.name
  | .invariant cause => ErrorKind.invariant.heading ++ cause.message
  | .settings cause => ErrorKind.settings.heading ++ cause.message
  | .io text => ErrorKind.io.heading ++ text

/-- The name that an error suggests. -/
def suggestion : RuleError → Option String
  | .referential cause => cause.suggestion
  | _ => none

end RuleError

end RuleQuery
