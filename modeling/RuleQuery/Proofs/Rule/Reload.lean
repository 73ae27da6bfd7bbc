/-
# Storing a rule and loading it again

A rule is stored with its configuration as a document, and loading it decodes the document. What is
lost on the way is the part of a second of a timestamp, which no SQL text shows, and the default of
a parameter that is NULL or that the kind of the parameter reads differently. The first of these is
loaded as no default, so the parameter is left open where NULL stood before. The second changes the
statement with the default, or is refused, and then the rule cannot be loaded at all.

`Parameter.DefaultKept` is the condition under which neither happens. It is exact: a rule is
compiled to the same after it has been stored and loaded, with any bindings, if and only if every
declared default is kept, where a parameter that stands nowhere in the statement has less to fear.
That this much is needed shows when every other parameter is bound, so that no other default can
make up for a difference.
-/

import RuleQuery.Proofs.Document.ReadBack
import RuleQuery.Proofs.Filling
import RuleQuery.Proofs.Rendering
import RuleQuery.Proofs.Rule.Mutation
import RuleQuery.Proofs.Validity
import RuleQuery.Rule.Record

namespace RuleQuery

open Sql (Environment)

/-- The part of a second of a timestamp shows neither in SQL nor in a parameter. -/
theorem Literal.faithful_restored : Literal.Faithful Literal.restored where
  sql l := by
    cases l with
    | timestamp t => rw [restored, sql, sql, Calendar.Timestamp.text_restored]
    | _ => rfl
  placeholder? l := by
    cases l <;> rfl

/-! ## Defaults -/

namespace Parameter

/--
The default of a parameter is kept: none is, NULL only if the parameter is not used, and a text if
the parameter holds texts, or else if it can be read as a value that is written alike in SQL. All
other literals are kept.
-/
def DefaultKept (p : Parameter) (used : Prop) : Prop :=
  match p.default with
  | some .null => ¬ used
  | some (.string s) =>
    p.kind.isTextual = true ∨
      ∃ l, p.kind.readValue? s = some l ∧ (used → l.sql = (Literal.string s).sql)
  | _ => True

/-- A text is kept if it can be read, to something that is written alike where it is used. -/
theorem defaultKept_iff_of_string {p : Parameter} {s : String}
    (given : p.default = some (.string s)) (used : Prop) :
    p.DefaultKept used ↔
      p.Rereads ∧ (used → p.reloaded.default.map Literal.sql = p.default.map Literal.sql) := by
  have present := rereadDefault_of_present given (by rintro ⟨⟩)
  by_cases textual : p.kind.isTextual = true
  · rw [reread, if_pos textual] at present
    obtain ⟨rereads, same⟩ := rereads_of_rereadDefault present
    simp [DefaultKept, given, textual, rereads, same]
  · rw [reread, if_neg textual] at present
    cases value : p.kind.readValue? s with
    | none =>
        rw [value] at present
        have refused : ¬ p.Rereads := by
          rintro ⟨default, read⟩
          rw [present] at read
          cases read
        simp [DefaultKept, given, textual, value, refused]
    | some l =>
        rw [value] at present
        obtain ⟨rereads, same⟩ := rereads_of_rereadDefault present
        simp [DefaultKept, given, textual, value, rereads, same]

/-- A default is kept if it can be read, to something that is written alike where it is used. -/
theorem defaultKept_iff (p : Parameter) (used : Prop) :
    p.DefaultKept used ↔
      p.Rereads ∧ (used → p.reloaded.default.map Literal.sql = p.default.map Literal.sql) := by
  cases given : p.default with
  | none =>
      have read : p.rereadDefault = .ok none := by rw [rereadDefault, given]
      obtain ⟨rereads, same⟩ := rereads_of_rereadDefault read
      simp [DefaultKept, given, rereads, same]
  | some l =>
      rw [← given]
      cases l with
      | null =>
          have read : p.rereadDefault = .ok none := by rw [rereadDefault, given]
          obtain ⟨rereads, same⟩ := rereads_of_rereadDefault read
          simp [DefaultKept, given, rereads, same]
      | string s => exact defaultKept_iff_of_string given used
      | _ =>
          have read := rereadDefault_of_present given (by rintro ⟨⟩)
          rw [reread_of_not_string p.kind (by rintro _ ⟨⟩)] at read
          obtain ⟨rereads, same⟩ := rereads_of_rereadDefault read
          simp [DefaultKept, given, rereads, same, Literal.faithful_restored.sql]

end Parameter

/-! ## Configurations -/

namespace Configuration

/-- The configuration that is loaded again, if every default can be read. -/
def reloaded (c : Configuration) : Configuration :=
  { c.mapLiterals Literal.restored with
    parameters := c.parameters.mapValues Parameter.reloaded }

theorem Writable.finiteDefaults {c : Configuration} (writable : c.Writable) :
    Declarations.FiniteDefaults c.parameters.entries := by
  intro e mem l given
  exact writable.finite l (List.mem_append_right _ (List.mem_filterMap.mpr ⟨e, mem, given⟩))

/-- Loading a configuration comes down to loading its declarations. -/
theorem Writable.decode_encode {c : Configuration} (writable : c.Writable) :
    decode c.encode = (Decoded.within (.key "parameters")
      (Declarations.decode (Declarations.encode c.parameters))).map
        fun parameters => { c.mapLiterals Literal.restored with parameters } :=
  Configuration.decode_encode writable.built.parts fun l mem =>
    writable.finite l (List.mem_append_left _ mem)

/-- A configuration whose defaults can be read is loaded. -/
theorem Writable.ofDocument_encode {c : Configuration} (writable : c.Writable)
    (rereads : ∀ e ∈ c.parameters.entries, e.2.Rereads) :
    ofDocument c.encode = .ok c.reloaded := by
  rw [ofDocument, writable.decode_encode,
    Declarations.decode_encode_of_rereads writable.finiteDefaults rereads]
  rfl

/-- A configuration is loaded only if its defaults can be read. -/
theorem Writable.rereads {c d : Configuration} (writable : c.Writable)
    (loaded : ofDocument c.encode = .ok d) : ∀ e ∈ c.parameters.entries, e.2.Rereads := by
  rw [ofDocument, writable.decode_encode] at loaded
  cases read : Declarations.decode (Declarations.encode c.parameters) with
  | error failure =>
      rw [read] at loaded
      cases loaded
  | ok m => exact Declarations.rereads_of_decodeEntries writable.finiteDefaults read

theorem validate_reloaded (c : Configuration) : c.reloaded.validate = c.validate :=
  validate_mapLiterals Literal.faithful_restored.placeholder? c (NameMap.keys_mapValues _ _)

/-- What a configuration that is loaded again is compiled to. -/
theorem compile_reloaded {c : Configuration} (valid : c.validate = .ok ()) (settings : Settings)
    (bindings : Bindings) :
    c.reloaded.compile settings bindings =
      .ok ⟨(c.template settings.separator).fill (c.reloaded.environment bindings),
        firstSeen ((c.template settings.separator).openNames
          (c.reloaded.environment bindings))⟩ := by
  have template : c.reloaded.template settings.separator =
      (c.template settings.separator).mapSlots Literal.restored := c.template_mapLiterals _
  rw [compile_of_valid (c.validate_reloaded.trans valid), template,
    Sql.Template.fill_mapSlots Literal.faithful_restored,
    Sql.Template.openNames_mapSlots Literal.faithful_restored]

/-- Bindings come before defaults, also before those that are loaded again. -/
theorem environment_reloaded (c : Configuration) (bindings : Bindings) (name : String) :
    c.reloaded.environment bindings name =
      (bindings.find? name).or
        ((c.parameters.find? name).bind fun p => p.reloaded.default) := by
  have declared : c.reloaded.parameters.find? name =
      (c.parameters.find? name).map Parameter.reloaded := NameMap.find?_mapValues _ _ _
  rw [environment, declared]
  cases c.parameters.find? name <;> rfl

/-- Every declared default is kept, as far as its parameter stands in the statement. -/
def DefaultsKept (c : Configuration) : Prop :=
  ∀ name p, c.parameters.find? name = some p → p.DefaultKept (name ∈ c.slotNames)

/-- Where every default is kept, the parameters of the statement have values written alike. -/
theorem DefaultsKept.environment {c : Configuration} (kept : c.DefaultsKept) (bindings : Bindings)
    {name : String} (slot : name ∈ c.slotNames) :
    (c.reloaded.environment bindings name).map Literal.sql =
      (c.environment bindings name).map Literal.sql := by
  rw [environment_reloaded, Configuration.environment]
  cases bindings.find? name with
  | some bound => rfl
  | none =>
      cases declared : c.parameters.find? name with
      | none => rfl
      | some p => exact ((p.defaultKept_iff _).mp (kept name p declared)).2 slot

theorem DefaultsKept.compile {c : Configuration} (kept : c.DefaultsKept)
    (valid : c.validate = .ok ()) (settings : Settings) (bindings : Bindings) :
    c.reloaded.compile settings bindings = c.compile settings bindings := by
  have values : ∀ name ∈ (c.template settings.separator).openNames .empty,
      (c.reloaded.environment bindings name).map Literal.sql =
        (c.environment bindings name).map Literal.sql := by
    intro name slot
    rw [openNames_template] at slot
    exact kept.environment bindings slot
  have missing : ∀ name ∈ (c.template settings.separator).openNames .empty,
      c.reloaded.environment bindings name = none ↔ c.environment bindings name = none := by
    intro name slot
    have value := congrArg Option.isNone (values name slot)
    rw [Option.isNone_map, Option.isNone_map] at value
    rw [← Option.isNone_iff_eq_none, ← Option.isNone_iff_eq_none, value]
  rw [compile_reloaded valid, compile_of_valid valid, Sql.Template.fill_congr values,
    Sql.Template.openNames_congr missing]

/-- Bindings that give NULL to every parameter of the statement but one. -/
def bindOthers (c : Configuration) (name : String) : Bindings :=
  .ofList ((c.slotNames.filter (· ≠ name)).map fun other => (other, .null))

theorem find?_bindOthers (c : Configuration) (name other : String) :
    (c.bindOthers name).find? other =
      if other ∈ c.slotNames ∧ other ≠ name then some .null else none := by
  rw [bindOthers, NameMap.find?_ofList_const]
  simp only [List.mem_filter, decide_eq_true_eq]

/-- If loading never shows in the statement, the default of a parameter in it is written alike. -/
theorem default_sql_of_compile {c : Configuration} (valid : c.validate = .ok ())
    (same : ∀ settings bindings,
      c.reloaded.compile settings bindings = c.compile settings bindings)
    {name : String} {p : Parameter} (declared : c.parameters.find? name = some p)
    (slot : name ∈ c.slotNames) :
    p.reloaded.default.map Literal.sql = p.default.map Literal.sql := by
  -- With every other parameter bound, the two environments differ at this one at most.
  have before : c.environment (c.bindOthers name) name = p.default := by
    rw [environment, find?_bindOthers, if_neg (by simp), declared]
    rfl
  have after : c.reloaded.environment (c.bindOthers name) name = p.reloaded.default := by
    rw [environment_reloaded, find?_bindOthers, if_neg (by simp), declared]
    rfl
  have others : ∀ other ∈ c.slotNames, other ≠ name →
      c.reloaded.environment (c.bindOthers name) other =
        c.environment (c.bindOthers name) other := by
    intro other mem different
    rw [environment_reloaded, environment, find?_bindOthers, if_pos ⟨mem, different⟩]
    rfl
  have compiled := same .default (c.bindOthers name)
  rw [compile_reloaded valid, compile_of_valid valid] at compiled
  injection compiled with query
  injection query with text unresolved
  rw [← c.openNames_template Settings.default.separator] at slot others
  have unbound (env : Environment) :
      name ∈ (c.template Settings.default.separator).openNames env ↔ env name = none := by
    rw [Sql.Template.mem_openNames]
    exact and_iff_right slot
  have missing : p.reloaded.default = none ↔ p.default = none := by
    rw [← before, ← after, ← unbound, ← unbound, ← mem_firstSeen, unresolved, mem_firstSeen]
  cases loaded : p.reloaded.default with
  | none => rw [missing.mp loaded]
  | some b =>
      cases given : p.default with
      | none => rw [missing.mpr given] at loaded; cases loaded
      | some a =>
          rw [loaded] at after
          rw [given] at before
          rw [Option.map_some, Option.map_some,
            Sql.Template.sql_eq_of_fill_eq slot after before others text]

end Configuration

/-! ## Rules -/

namespace Rule

/-- What a rule that passes its check has passed. -/
theorem of_validate {r : Rule} (valid : r.validate = .ok ()) :
    r.invariantFault? = none ∧ r.configuration.validate = .ok () := by
  unfold validate at valid
  cases fault : r.invariantFault? with
  | some f =>
      rw [fault] at valid
      cases valid
  | none =>
      rw [fault] at valid
      exact ⟨rfl, valid⟩

/-- A record holds every field of its rule but the configuration. -/
theorem ofParts_toRecord (r : Rule) (c : Configuration) :
    ofParts r.toRecord c = { r with configuration := c } := by
  have tables : NameSet.ofNames r.toRecord.tables = r.tables := NameSet.ofNames_keys r.tables
  rw [ofParts, tables]
  rfl

/-- A rule is loaded as soon as its configuration is, with which it passes its check again. -/
theorem Sound.ofRecord_toRecord {r : Rule} (sound : r.Sound)
    (rereads : ∀ e ∈ r.configuration.parameters.entries, e.2.Rereads) :
    ofRecord r.toRecord = .ok { r with configuration := r.configuration.reloaded } := by
  have loaded : Configuration.ofDocument r.toRecord.configuration =
      .ok r.configuration.reloaded := sound.writable.ofDocument_encode rereads
  obtain ⟨lawful, valid⟩ := of_validate sound.valid
  have again : validate { r with configuration := r.configuration.reloaded } = .ok () := by
    have same : invariantFault? { r with configuration := r.configuration.reloaded } =
        r.invariantFault? := rfl
    rw [validate, same, lawful]
    exact (Configuration.validate_reloaded _).trans valid
  simp only [ofRecord, loaded, ofParts_toRecord, again, bind, Except.bind, pure, Except.pure]

/-- The defaults of a rule that is loaded can be read. -/
theorem Sound.rereads {r loaded : Rule} (sound : r.Sound)
    (load : ofRecord r.toRecord = .ok loaded) :
    ∀ e ∈ r.configuration.parameters.entries, e.2.Rereads := by
  unfold ofRecord at load
  cases read : Configuration.ofDocument r.toRecord.configuration with
  | error e =>
      rw [read] at load
      cases load
  | ok c => exact sound.writable.rereads read

/--
A rule that has been made and changed in any way can be stored and loaded again, with every field
but its configuration as it was and with a configuration that is compiled to the same statement and
the same open parameters under all bindings, if and only if the defaults it declares are kept.
-/
theorem Reached.survives_iff_defaultsKept {r : Rule} (reached : r.Reached) :
    (∃ loaded, ofRecord r.toRecord = .ok loaded ∧
      loaded = { r with configuration := loaded.configuration } ∧
      ∀ settings bindings, loaded.configuration.compile settings bindings =
        r.configuration.compile settings bindings) ↔
      r.configuration.DefaultsKept := by
  have sound := reached.sound
  have valid := (of_validate sound.valid).2
  constructor
  · rintro ⟨loaded, load, _, compiled⟩ name p declared
    have rereads := sound.rereads load
    have same : loaded = { r with configuration := r.configuration.reloaded } := by
      rw [sound.ofRecord_toRecord rereads] at load
      exact (Except.ok.inj load).symm
    rw [same] at compiled
    rw [Parameter.defaultKept_iff]
    exact ⟨rereads (name, p) (mem_of_lookup? declared),
      fun slot => Configuration.default_sql_of_compile valid compiled declared slot⟩
  · intro kept
    have rereads : ∀ e ∈ r.configuration.parameters.entries, e.2.Rereads := by
      rintro ⟨name, p⟩ mem
      have declared := lookup?_of_mem r.configuration.parameters.increasing mem
      exact ((p.defaultKept_iff _).mp (kept name p declared)).1
    exact ⟨_, sound.ofRecord_toRecord rereads, rfl, kept.compile valid⟩

end Rule

/-! ## A rule with a default -/

/-- The payments booked on a day, which is a parameter with the given default. -/
def paymentsOn (default : Literal) : Configuration :=
  ((Configuration.start ⟨[⟨.raw "id", none⟩]⟩ ⟨"payments", none⟩).withWhere
    (.condition ⟨.column "booked_on", .equal, .scalar (.string (Name.placeholder "day"))⟩)
      ).withParameter "day" (.ofOptional .date (some default))

/-- When the rule is made, and when it is changed. -/
def firstOfMarch : Calendar.Timestamp := .midnight ⟨2024, 3, 1, by decide⟩

/-- A new rule about the payments of a day. -/
def newPaymentRule (default : Literal) : NewRule :=
  ⟨"Payments of a day", .hybrid, .main, ["payments"], ⟨1⟩, paymentsOn default⟩

/-- The rule after it has been made and has been moved to validation. -/
def paymentRule (default : Literal) : Rule :=
  { Rule.ofNew (newPaymentRule default) ⟨2⟩ firstOfMarch with status := .toValidate }

theorem paymentsOn_writable {default : Literal} (finite : default.IsFinite) :
    (paymentsOn default).Writable := by
  have select : Select.Built ⟨[⟨.raw "id", none⟩]⟩ :=
    .single ⟨.raw "id", none, .raw "id", rfl⟩
  have condition : Condition.Built
      ⟨.column "booked_on", .equal, .scalar (.string (Name.placeholder "day"))⟩ :=
    ⟨.column "booked_on", .equal, .scalar (.string (Name.placeholder "day")), .column "booked_on",
      .scalar _, rfl⟩
  have literals : (paymentsOn default).literals =
      [.string (Name.placeholder "day"), default] := rfl
  refine ⟨.parameter (.predicate (.start select ⟨"payments", none, rfl⟩) (.condition condition))
    "day" _, ?_⟩
  intro l mem
  rw [literals] at mem
  simp only [List.mem_cons, List.not_mem_nil, or_false] at mem
  rcases mem with rfl | rfl
  · trivial
  · exact finite

/-- No check looks at a default. -/
theorem paymentRule_valid (default : Literal) : (paymentRule default).validate = .ok () := by
  have named : Text.isBlankText (paymentRule default).name = false := by
    change Text.isBlankText "Payments of a day" = false
    decide
  have table : Text.isBlankText (paymentsOn default).table.name = false := by
    change Text.isBlankText "payments" = false
    decide
  have lawful : (paymentRule default).invariantFault? = none := by
    rw [Rule.invariantFault?, named]
    rfl
  have clauses : (paymentsOn default).clauseFault? = none := by
    rw [Configuration.clauseFault?, table]
    rfl
  have names : (paymentsOn default).referenceFault? = none := rfl
  have configuration : (paymentsOn default).validate = .ok () := by
    rw [Configuration.validate, clauses, names]
  rw [Rule.validate, lawful]
  exact configuration

theorem paymentRule_reached {default : Literal} (finite : default.IsFinite) :
    (paymentRule default).Reached := by
  have draft : Rule.validate (.ofNew (newPaymentRule default) ⟨2⟩ firstOfMarch) = .ok () :=
    paymentRule_valid default
  have moved : Rule.apply (.ofNew (newPaymentRule default) ⟨2⟩ firstOfMarch)
      (.transition .toValidate) firstOfMarch = .ok (paymentRule default, _) :=
    Rule.commit_of_valid (paymentRule_valid default) _ firstOfMarch
  exact .changed (m := .transition .toValidate)
    (.created (paymentsOn_writable finite) (Rule.create_of_valid draft)) trivial moved

/-- The parameter of the rule stands in its statement. -/
theorem paymentRule_defaultsKept_iff (default : Literal) :
    (paymentRule default).configuration.DefaultsKept ↔
      (Parameter.ofOptional .date (some default)).DefaultKept True := by
  have used : ("day" ∈ (paymentRule default).configuration.slotNames) = True :=
    eq_true (List.mem_singleton_self "day")
  have declared (name : String) : (paymentRule default).configuration.parameters.find? name =
      if "day" = name then some (.ofOptional .date (some default)) else none :=
    NameMap.find?_insert _ _ _ _
  constructor
  · intro kept
    have day := kept "day" _ (declared "day")
    rwa [used] at day
  · intro kept name p found
    rw [declared] at found
    by_cases same : "day" = name
    · subst same
      cases found
      rwa [used]
    · rw [if_neg same] at found
      cases found

/-- A day that is given as a text, in the form in which dates are written, is kept; NULL is not. -/
theorem survives_iff_paymentRule :
    ((paymentRule (.string "2024-02-29")).Reached ∧ ∃ loaded,
      Rule.ofRecord (paymentRule (.string "2024-02-29")).toRecord = .ok loaded ∧
      loaded = { paymentRule (.string "2024-02-29") with configuration := loaded.configuration } ∧
      ∀ settings bindings, loaded.configuration.compile settings bindings =
        (paymentRule (.string "2024-02-29")).configuration.compile settings bindings) ∧
    ((paymentRule .null).Reached ∧ ¬ ∃ loaded,
      Rule.ofRecord (paymentRule .null).toRecord = .ok loaded ∧
      loaded = { paymentRule .null with configuration := loaded.configuration } ∧
      ∀ settings bindings, loaded.configuration.compile settings bindings =
        (paymentRule .null).configuration.compile settings bindings) := by
  have texts : (paymentRule (.string "2024-02-29")).Reached := paymentRule_reached trivial
  have null : (paymentRule .null).Reached := paymentRule_reached trivial
  have kept : (Parameter.ofOptional .date (some (.string "2024-02-29"))).DefaultKept True :=
    .inr ⟨.date ⟨2024, 2, 29, by decide⟩, by decide, fun _ => by decide⟩
  refine ⟨⟨texts, ?_⟩, null, ?_⟩
  · exact (Rule.Reached.survives_iff_defaultsKept texts).mpr
      ((paymentRule_defaultsKept_iff _).mpr kept)
  · rw [Rule.Reached.survives_iff_defaultsKept null, paymentRule_defaultsKept_iff]
    exact fun unused => unused trivial

/--
With NULL as its default the rule is loaded to one that leaves the day open, and with a text that is
no date it is not loaded at all.
-/
theorem paymentRule_not_kept :
    ((paymentRule .null).Reached ∧
      (paymentRule .null).configuration.compile .default .empty =
        .ok ⟨"SELECT id FROM payments WHERE booked_on = NULL", []⟩ ∧
      ∃ loaded, Rule.ofRecord (paymentRule .null).toRecord = .ok loaded ∧
        loaded.configuration.compile .default .empty =
          .ok ⟨"SELECT id FROM payments WHERE booked_on = " ++ Name.placeholder "day", ["day"]⟩) ∧
    ((paymentRule (.string "soon")).Reached ∧
      Rule.ofRecord (paymentRule (.string "soon")).toRecord =
        .error (.document "$.parameters.day.default" (.wrongDefault .date "soon"))) := by
  refine ⟨⟨paymentRule_reached trivial, by decide, ?_⟩, paymentRule_reached trivial, by decide⟩
  refine ⟨{ paymentRule .null with configuration := (paymentRule .null).configuration.reloaded },
    by decide, by decide⟩

end RuleQuery
