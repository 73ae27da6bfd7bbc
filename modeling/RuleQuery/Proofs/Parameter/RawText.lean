/-
# Values given as raw texts

A value can be bound as a literal, or as a raw text that is read by the kind of its parameter. For
strings, integers, truth values, dates and timestamps both ways lead to the same statement: the raw
text is the SQL text of the literal without its quotes, and its kind reads it as that literal.

Only texts have quotes, so it is enough to know what stands between them, and that a number or a
truth value is left alone. A timestamp is written to the second, so that it has to be a whole one.
-/

import RuleQuery.Proofs.Command.Bindings
import RuleQuery.Proofs.Document.Calendar
import RuleQuery.Proofs.Injection.Fragment
import RuleQuery.Proofs.Quotation

namespace RuleQuery

namespace Literal

/-- The kind of a literal. NULL has none, and a double is not asked for one. -/
def kindOf? : Literal → Option ParameterKind
  | .bool _ => some .boolean
  | .int _ => some .integer
  | .string _ => some .string
  | .date _ => some .date
  | .timestamp _ => some .datetime
  | .null | .float _ => none

/-- The SQL text without its quotes. -/
def rawText (l : Literal) : String := String.ofList (unquoted l.sql.toList)

/-- What stands between the quotes is left. -/
theorem rawText_of_quoted {l : Literal} {cs : List Char} (sql : l.sql = quoted cs) :
    l.rawText = String.ofList cs := by
  rw [rawText, sql, unquoted_quoted]

/-- A text without quotes is left as it is. -/
theorem rawText_of_not_isText {l : Literal} (plain : l.isText = false) : l.rawText = l.sql := by
  rw [rawText, unquoted_of_not_mem (solid_sql plain).inert.noQuote, String.ofList_toList]

/-- The raw text is read as the literal that it was taken from. -/
theorem readValue?_rawText {l : Literal} {kind : ParameterKind} (own : l.kindOf? = some kind)
    (whole : ∀ t, l = .timestamp t → t.IsWhole) : kind.readValue? l.rawText = some l := by
  cases l with
  | null | float => cases own
  | bool b =>
      cases own
      rw [rawText_of_not_isText rfl]
      cases b <;> rfl
  | int n =>
      cases own
      have read : Number.readInt64? (Literal.int n).sql = some n := Number.readInt64?_integerText n
      rw [rawText_of_not_isText rfl, ParameterKind.readValue?, read]
      rfl
  | string s =>
      cases own
      rw [rawText_of_quoted rfl, String.ofList_toList]
      rfl
  | date d =>
      cases own
      rw [rawText_of_quoted rfl, ParameterKind.readValue?, Calendar.readDate?_text]
      rfl
  | timestamp t =>
      cases own
      rw [rawText_of_quoted rfl, ParameterKind.readValue?, Calendar.readTimestamp?_text_blank,
        Calendar.Timestamp.restored_of_isWhole (whole t rfl)]
      rfl

open Command in
/--
A string, an integer, a truth value, a date or a whole timestamp is read back from its SQL text
without the quotes by the kind of its sort. Bound through that text, a parameter of the kind gives
the query that it gives when it is bound to the literal.
-/
theorem parse_rawText {l : Literal} {kind : ParameterKind} (own : l.kindOf? = some kind)
    (whole : ∀ t, l = .timestamp t → t.IsWhole) :
    (∀ name, kind.parse name l.rawText = .ok l) ∧
    ∀ (c : Configuration) (name pair : String) (p : Parameter), c.parameters.find? name = some p →
      p.kind = kind → (∀ values, p.values = some values → l.rawText ∈ values) →
      Assigns pair name l.rawText → ∀ (start : Bindings) (settings : Settings),
        ∃ bindings, bindPairsFrom c start [pair] = .ok bindings ∧
          c.compile settings bindings = c.compile settings (start.insert name l) := by
  have read : kind.readValue? l.rawText = some l := readValue?_rawText own whole
  refine ⟨fun name => ParameterKind.parse_eq_ok_iff.mpr read, ?_⟩
  rintro c name pair p found rfl listed assigns start settings
  have bound : bindPair c pair = .ok (name, l) :=
    bindPair_eq_ok_iff.mpr ⟨l.rawText, assigns, .declared found listed read⟩
  exact ⟨start.insert name l, by rw [bindPairsFrom_cons, bound]; rfl, rfl⟩

/-- A leap second on the leap day of the year zero. -/
def leapSecond : Literal := .timestamp ⟨⟨0, 2, 29, by decide⟩, 23, 59, 59, 1000000000, by decide⟩

/-- Transactions since a moment that has to be given. -/
def sinceMoment : Configuration :=
  ((Configuration.start ⟨[⟨.raw "id", none⟩]⟩ ⟨"transactions", none⟩).withWhere
    (.condition ⟨.column "created_at", .greaterEqual,
      .scalar (.string (Name.placeholder "since"))⟩)).withParameter "since" (.ofRequired .datetime)

/-- The leap second is bound through its text as it is directly. -/
theorem parse_rawText_leapSecond :
    leapSecond.kindOf? = some .datetime ∧ leapSecond.rawText = "0000-02-29 23:59:60" ∧
      ParameterKind.datetime.parse "since" leapSecond.rawText = .ok leapSecond ∧
      ∃ bindings, Command.bindPairs sinceMoment ["since=0000-02-29 23:59:60"] = .ok bindings ∧
        sinceMoment.compile .default bindings =
          sinceMoment.compile .default (NameMap.empty.insert "since" leapSecond) := by
  have own : leapSecond.kindOf? = some .datetime := rfl
  have whole : ∀ t, leapSecond = .timestamp t → t.IsWhole := by
    rintro _ ⟨⟩
    exact .inr ⟨rfl, rfl⟩
  have assigns : Command.Assigns "since=0000-02-29 23:59:60" "since" leapSecond.rawText :=
    ⟨"since", by decide, rfl, rfl⟩
  obtain ⟨read, given⟩ := parse_rawText own whole
  exact ⟨own, rfl, read "since",
    given sinceMoment "since" _ (.ofRequired .datetime) rfl rfl nofun assigns .empty .default⟩

end Literal

end RuleQuery
