import RuleQuery.Main
import RuleQuery.Proofs.Injection.Alike
import RuleQuery.Proofs.Where.Unambiguous
import RuleQuery.Rule.Record
import RuleQuery.Proofs.Injection.Fragment
import RuleQuery.Proofs.Injection.Weave
import RuleQuery.Proofs.Injection.Neutral
import RuleQuery.Proofs.Injection.Statement
import RuleQuery.Proofs.Document.Calendar
import RuleQuery.Proofs.Document.Tree
import RuleQuery.Proofs.Document.ReadBack
import RuleQuery.Proofs.Document.RoundTrip
import RuleQuery.Proofs.Rendering
import RuleQuery.Proofs.Validity
import RuleQuery.Proofs.Filling
import RuleQuery.Proofs.Rule.Mutation
import RuleQuery.Proofs.Rule.Reload
import RuleQuery.Proofs.Rule.Lifecycle
import RuleQuery.Proofs.Rule.Journal
import RuleQuery.Proofs.Document.Location
import RuleQuery.Proofs.Document.Strictness
import RuleQuery.Proofs.Document.Missing
import RuleQuery.Proofs.Placeholders
import RuleQuery.Proofs.SecondPhase
import RuleQuery.Proofs.Report.TrailingComment
import RuleQuery.Proofs.WellFormed
import RuleQuery.Proofs.Report.Compiled
import RuleQuery.Proofs.Json.Cutting
import RuleQuery.Proofs.Json.ReadBack
import RuleQuery.Proofs.Document.Text
import RuleQuery.Proofs.Validity.Occurrence
import RuleQuery.Proofs.Validity.Verdict
import RuleQuery.Proofs.Where.Single
import RuleQuery.Proofs.Parameter.Default
import RuleQuery.Proofs.Parameter.Value
import RuleQuery.Proofs.Parameter.Spelling
import RuleQuery.Proofs.Report.TableList
import RuleQuery.Proofs.Lexeme.Choice
import RuleQuery.Proofs.Report.Quotes
import RuleQuery.Proofs.Report.Nesting
import RuleQuery.Proofs.Lexeme.LetterCase
import RuleQuery.Proofs.Report.LetterCase
import RuleQuery.Proofs.Rule.Editing
import RuleQuery.Proofs.EditDistance
import RuleQuery.Proofs.Quotation
import RuleQuery.Proofs.Validity.Suggestion
import RuleQuery.Proofs.Command.Bindings
import RuleQuery.Proofs.Parameter.RawText
import RuleQuery.Proofs.Lexeme.Spacing
import RuleQuery.Proofs.Injection.Assembly
