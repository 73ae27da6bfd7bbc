/-
# Rendered clauses are calm

What the clauses render is calm: the tokens of a template, in front of anything that may follow a
fragment, are a calm run of its own. The ways in which templates are put together keep this, and so
it is enough that the names of a node are tame and that each of its literals is calm in its slot.
-/

import RuleQuery.Proofs.Injection.Weave
import RuleQuery.Proofs.Report.Names

namespace RuleQuery

open Sql (Environment Template Token tokens Flat Calm LastOutside)

/-- In front of what may follow a fragment, a text is cut into the given tokens. -/
def Sql.Cuts (s : List Char) (ts : List Token) : Prop :=
  ∀ rest, Closes rest → tokens (s ++ rest) = ts ++ tokens rest

open Sql (Cuts)

theorem Sql.cuts_of_plain {s : List Char} (plain : Plain s) : Cuts s (tokens s) := fun _ closes =>
  tokens_append plain (apart_of_closes closes)

/-- Fixed text between two parts, the tokens of which are calm. -/
structure IsSeparator (s : String) : Prop where
  seam : IsSeam s
  flat : Flat (tokens s.toList)
  last : LastOutside s.toList

instance (s : String) : Decidable (IsSeparator s) :=
  decidable_of_iff (IsSeam s ∧ Flat (tokens s.toList) ∧ LastOutside s.toList)
    ⟨fun ⟨seam, flat, last⟩ => ⟨seam, flat, last⟩, fun ⟨seam, flat, last⟩ => ⟨seam, flat, last⟩⟩

/-- The texts between entries, between the bounds of a range, and in front of an alias. -/
theorem isSeparator_of_mem : ∀ s ∈ [", ", " AND ", " OR ", " BETWEEN ", " AS "], IsSeparator s := by
  decide +kernel

theorem Sql.tokens_paren : tokens ['('] = [.openParen] := by
  rw [tokens_plain (by decide), tokens_nil]
  rfl

namespace Sql.Template

variable {env : Environment} {t u : Template} {s : String}

/-- The tokens of a template are a calm run. -/
def RendersCalm (env : Environment) (t : Template) : Prop :=
  ∃ ts, Calm ts ∧ Cuts (t.fill env).toList ts

namespace RendersCalm

theorem text (plain : Plain s.toList) (calm : Calm (tokens s.toList)) :
    RendersCalm env (ofText s) := by
  refine ⟨tokens s.toList, calm, ?_⟩
  simpa [ofText, Piece.fill] using cuts_of_plain plain

/-- Calm templates with a separator between them. -/
theorem separated (first : RendersCalm env t) (separator : IsSeparator s)
    (second : RendersCalm env u) : RendersCalm env (t ++ .text s :: u) := by
  obtain ⟨ts, calm, cuts⟩ := first
  obtain ⟨us, calm', cuts'⟩ := second
  refine ⟨ts ++ tokens s.toList ++ us, (calm.append_flat separator.flat).append calm', ?_⟩
  intro rest closes
  rw [toList_fill_text, List.append_assoc, List.append_assoc,
    cuts _ (separator.seam.closes_append _),
    tokens_append separator.seam.fixed.plain (.inl separator.last), cuts' rest closes]
  simp

/-- A calm template with a suffix. -/
theorem followed (first : RendersCalm env t) (seam : IsSeam s) (flat : Flat (tokens s.toList)) :
    RendersCalm env (t ++ [.text s]) := by
  obtain ⟨ts, calm, cuts⟩ := first
  refine ⟨ts ++ tokens s.toList, calm.append_flat flat, ?_⟩
  intro rest closes
  rw [toList_fill_text, fill_nil, List.append_assoc, List.append_assoc,
    cuts _ (seam.closes_append _)]
  simpa using cuts_of_plain seam.fixed.plain rest closes

/-- A calm template in parentheses, with calm tokens in front of either. -/
theorem enclosed (inside : RendersCalm env t) {front back : List Token} (hf : Flat front)
    (hb : Flat back) (plain : Plain s.toList) (last : LastOutside s.toList)
    (opening : tokens s.toList = front ++ .openParen :: back) :
    RendersCalm env (.text s :: t ++ [.text ")"]) := by
  obtain ⟨ts, calm, cuts⟩ := inside
  refine ⟨front ++ .openParen :: back ++ ts ++ [.closeParen], calm.enclosed hf hb, ?_⟩
  intro rest closes
  have closing : tokens (")".toList ++ rest) = .closeParen :: tokens rest :=
    tokens_plain (by decide) rest
  have chars : (fill env (.text s :: t ++ [.text ")"])).toList ++ rest =
      s.toList ++ ((fill env t).toList ++ (")".toList ++ rest)) := by
    simp [Piece.fill]
  have behind : Closes (")".toList ++ rest) := rfl
  rw [chars, tokens_append plain (.inl last), cuts _ behind, closing, opening]
  simp

theorem joined {parts : List Template} (nonempty : parts ≠ []) (separator : IsSeparator s)
    (calm : ∀ t ∈ parts, RendersCalm env t) : RendersCalm env (Template.joined s parts) := by
  match parts with
  | [] => exact absurd rfl nonempty
  | t :: rest =>
    rw [joined_cons]
    induction rest generalizing t with
    | nil => simpa using calm t (by simp)
    | cons u rest ih =>
        have tail := ih u (by simp) fun v mem => calm v (List.mem_cons_of_mem t mem)
        rw [List.flatMap_cons]
        exact (calm t (by simp)).separated separator tail

theorem parenthesized (inside : RendersCalm env t) : RendersCalm env (Template.parenthesized t) :=
  have none : Flat [] := by decide
  inside.enclosed none none (by decide) (by decide) tokens_paren

end RendersCalm

end Sql.Template

/-! ## Literals -/

/-- A double that is written without an exponent: digits, a point, and digits again. -/
def Literal.IsPositional : Literal → Prop
  | .float x => ∃ negative whole fraction, (Number.Layout.sql.text x).toList =
      (if negative = true then ['-'] else []) ++ (whole ++ '.' :: fraction) ∧
    whole ≠ [] ∧ fraction ≠ [] ∧ ∀ c ∈ whole ++ fraction, c.isDigit = true
  | _ => True

namespace Sql

/-- Digits are one calm word. -/
theorem tokens_of_isDigit {ds : List Char} (nonempty : ds ≠ [])
    (digits : ∀ c ∈ ds, c.isDigit = true) :
    Plain ds ∧ tokens ds = [.word (String.ofList ds)] ∧ Flat (tokens ds) := by
  have parts : ∀ c ∈ ds, Name.isPart c = true := fun c mem =>
    Name.isPart_of_isDigit (digits c mem)
  have word := tokens_of_isPart nonempty parts
  refine ⟨plain_of_isPart parts, word, ?_⟩
  rw [word]
  exact List.forall_mem_singleton.mpr (Name.isFlat_of_isDigit nonempty digits)

/-- A sign may stand in front of calm text that starts with none. -/
theorem cuts_signed {s : List Char} (negative : Bool) (plain : Plain s) (nonempty : s ≠ [])
    (shown : tokens s ≠ []) (flat : Flat (tokens s)) :
    ∃ ts, Calm ts ∧ Cuts ((if negative = true then ['-'] else []) ++ s) ts := by
  cases negative with
  | false => exact ⟨tokens s, .of_flat flat shown, cuts_of_plain plain⟩
  | true =>
      have sign : Flat (.symbol '-' :: tokens s) :=
        List.forall_mem_cons.mpr ⟨by decide, flat⟩
      refine ⟨.symbol '-' :: tokens s, .of_flat sign (by simp), fun rest closes => ?_⟩
      have noComment : ¬ OpensComment '-' (s ++ rest) := by
        rintro (⟨_, next⟩ | ⟨other, _⟩)
        · rw [List.head?_append_of_ne_nil _ nonempty] at next
          exact plain.head? next
        · exact absurd other (by decide)
      have cut : tokens ('-' :: (s ++ rest)) = .symbol '-' :: tokens (s ++ rest) :=
        tokens_symbol (by decide) (by decide) (by decide) noComment
      rw [if_pos rfl, List.singleton_append, List.cons_append, cut,
        cuts_of_plain plain rest closes, List.cons_append]

theorem cuts_integerText (n : Int) :
    ∃ ts, Calm ts ∧ Cuts (Number.integerText n).toList ts := by
  obtain ⟨plain, word, flat⟩ := tokens_of_isDigit (Number.digits_ne_nil n.natAbs)
    fun _ => Number.isDigit_of_mem_digits
  have signed := cuts_signed (decide (n < 0)) plain (Number.digits_ne_nil _) (by simp [word]) flat
  simpa [Number.integerText] using signed

/-- Digits with a point among them are two words with a symbol between them. -/
theorem cuts_positional (negative : Bool) {whole fraction : List Char} (hw : whole ≠ [])
    (hf : fraction ≠ []) (digits : ∀ c ∈ whole ++ fraction, c.isDigit = true) :
    ∃ ts, Calm ts ∧
      Cuts ((if negative = true then ['-'] else []) ++ (whole ++ '.' :: fraction)) ts := by
  obtain ⟨front, back⟩ := List.forall_mem_append.mp digits
  obtain ⟨plain, _, flat⟩ := tokens_of_isDigit hw front
  obtain ⟨plain', _, flat'⟩ := tokens_of_isDigit hf back
  have point : tokens ('.' :: fraction) = .symbol '.' :: tokens fraction :=
    tokens_plain (by decide) fraction
  have cut :
      tokens (whole ++ '.' :: fraction) = tokens whole ++ .symbol '.' :: tokens fraction := by
    rw [tokens_append plain (apart_cons (by decide)), point]
  have all : Plain (whole ++ '.' :: fraction) :=
    plain.append (Plain.append (s := ['.']) (by decide) plain')
  refine cuts_signed negative all (by simp) (by simp [cut]) ?_
  rw [cut]
  exact flat.append (List.forall_mem_cons.mpr ⟨by decide, flat'⟩)

end Sql

/-- A literal is written as calm text if its digits are not followed by an exponent. -/
theorem Literal.cuts_sql {l : Literal} (positional : l.IsPositional) :
    ∃ ts, Calm ts ∧ Cuts l.sql.toList ts := by
  have constant {s : String} (dotted : Name.isDotted s = true) (tame : Name.isTame s = true) :
      ∃ ts, Calm ts ∧ Cuts s.toList ts :=
    ⟨_, Name.calm_of_isDotted dotted tame, Sql.cuts_of_plain (fixed_of_isDotted dotted).plain⟩
  cases text : l.isText with
  | true =>
      obtain ⟨cs, chars⟩ := sql_of_isText text
      refine ⟨[.string true], .of_flat (by decide) (by decide), fun rest closes => ?_⟩
      rw [chars, List.append_assoc]
      exact Sql.tokens_string cs closes.head.2.2
  | false =>
      cases l with
      | null => exact constant (by decide) (by decide)
      | bool b =>
          cases b with
          | false => exact constant (by decide) (by decide)
          | true => exact constant (by decide) (by decide)
      | int n => exact Sql.cuts_integerText n.toInt
      | float x =>
          obtain ⟨negative, whole, fraction, chars, hw, hf, digits⟩ := positional
          rw [sql, chars]
          exact Sql.cuts_positional negative hw hf digits
      | _ => cases text

/-- A parameter without a value is its name in braces. -/
theorem cuts_placeholder {name : String} (identifier : Name.isIdentifier name = true)
    (tame : Name.isTame name = true) : ∃ ts, Calm ts ∧ Cuts (Name.placeholder name).toList ts := by
  have plain : Plain name.toList := (fixed_of_isIdentifier identifier).plain
  have cut : tokens (Name.placeholder name).toList = [.symbol '\x7b', .symbol '\x7b'] ++
      (tokens name.toList ++ [.symbol '\x7d', .symbol '\x7d']) := by
    rw [Name.toList_placeholder, Sql.tokens_plain (by decide), Sql.tokens_plain (by decide),
      Sql.tokens_append plain (.inr (by decide)), Sql.tokens_plain (by decide),
      Sql.tokens_plain (by decide), Sql.tokens_nil]
    rfl
  have front : Flat [.symbol '\x7b', .symbol '\x7b'] := by decide
  have back : Flat [.symbol '\x7d', .symbol '\x7d'] := by decide
  refine ⟨tokens (Name.placeholder name).toList, .of_flat ?_ (by simp [cut]),
    Sql.cuts_of_plain (plain_placeholder identifier)⟩
  rw [cut]
  exact front.append ((Name.flat_of_isIdentifier identifier tame).append back)

/-- A literal is calm in its slot, whether a value is put in its place or not. -/
theorem Sql.Template.RendersCalm.slot {env : Environment} {l : Literal}
    (tame : ∀ name ∈ l.placeholder?, Name.isTame name = true) (positional : l.IsPositional)
    (bound : ∀ name value, env name = some value → value.IsPositional) :
    RendersCalm env [.slot l] := by
  suffices text : ∃ ts, Calm ts ∧ Cuts (Sql.literalText env l).toList ts by
    simpa [RendersCalm, Piece.fill] using text
  unfold Sql.literalText
  cases parameter : l.placeholder? with
  | none => exact Literal.cuts_sql positional
  | some name =>
      cases given : env name with
      | none =>
          simp only [given]
          exact cuts_placeholder (Literal.isIdentifier_of_placeholder? parameter)
            (tame name parameter)
      | some value =>
          simp only [given]
          exact Literal.cuts_sql (bound name value given)

/-! ## The nodes -/

open Sql.Template (RendersCalm)

variable {env : Environment}

theorem Comparison.isSeparator_symbol (op : Comparison) :
    (IsSeam (" " ++ op.symbol) ∧ Flat (tokens (" " ++ op.symbol).toList)) ∧
      IsSeparator (" " ++ op.symbol ++ " ") := by
  cases op <;> decide +kernel

theorem Connective.isSeparator_symbol (connective : Connective) :
    IsSeparator (" " ++ connective.symbol ++ " ") := by
  cases connective <;> exact isSeparator_of_mem _ (by decide)

/-- The function of a call and its parenthesis, and `DISTINCT` behind it in one case. -/
theorem Call.calm_templateOf {function : String} {args : List Template}
    (identifier : Name.isIdentifier function = true) (tame : Name.isTame function = true)
    (nonempty : args ≠ []) (parts : ∀ t ∈ args, t.RendersCalm env) :
    (Call.templateOf function args).RendersCalm env := by
  have inside : (Template.joined ", " args).RendersCalm env :=
    .joined nonempty (isSeparator_of_mem _ (by simp)) parts
  unfold templateOf
  by_cases distinct : Text.upperAscii function = "COUNT_DISTINCT"
  · simp only [distinct, if_true]
    have front : Flat [.word "COUNT"] := by decide
    have back : Flat [.word "DISTINCT"] := by decide
    exact inside.enclosed front back (by decide) (by decide) (by decide +kernel)
  · simp only [distinct, if_false]
    have upper := Name.isIdentifier_upperAscii identifier
    have chars : (Text.upperAscii function ++ "(").toList =
        (Text.upperAscii function).toList ++ ['('] := by simp
    have front : Flat [.word (Text.upperAscii function)] :=
      List.forall_mem_singleton.mpr (Name.isFlat_function identifier tame)
    have none : Flat [] := by decide
    have plain := (fixed_of_isIdentifier upper).plain
    refine inside.enclosed front none ?_ ?_ ?_
    · rw [chars]
      exact plain.append (by decide)
    · rw [chars, LastOutside, List.getLast?_concat]
      exact fun c mem => Option.some.inj mem ▸ rfl
    · rw [chars, Sql.tokens_append plain (.inr (by decide)), Sql.tokens_of_isIdentifier upper,
        Sql.tokens_paren]

/-- An argument is calm in a call, where its column has been checked. -/
theorem Argument.Built.calm {a : Argument} (built : a.Built) :
    (∀ name, a = .column name → Name.isColumnReference name = true) →
      (∀ name ∈ a.names, Name.isTame name = true) →
      (∀ l ∈ a.literals, Template.RendersCalm env [.slot l]) → a.template.RendersCalm env := by
  induction built with
  | literal l => exact fun _ _ slots => slots l (by simp [literals])
  | column name =>
      intro checked tame _
      have reference := checked name rfl
      exact .text (fixed_of_isColumnReference reference).plain
        (Name.calm_of_isColumnReference reference (tame name (by simp [names])))
  | @call function args c _ made ih =>
      intro _ tame slots
      obtain ⟨rfl, identifier, nonempty, columns⟩ := Call.of_make made
      apply Call.calm_templateOf identifier (tame function (by simp [Call.toArgument, names]))
      · intro empty
        cases args with
        | nil => exact nonempty rfl
        | cons a args => simp [templates] at empty
      · intro t mem
        obtain ⟨a, argument, rfl⟩ := Argument.mem_templates.mp mem
        refine ih a argument ?_ (fun name inside => tame name ?_) fun l inside => slots l ?_
        · rintro name rfl
          exact Call.isColumnReference_of_badColumn? columns argument
        · simp only [Call.toArgument, names, List.mem_cons, mem_namesOf]
          exact .inr ⟨a, argument, inside⟩
        · simp only [Call.toArgument, literals, mem_literalsOf]
          exact ⟨a, argument, inside⟩

theorem Call.Built.calm {c : Call} (built : c.Built)
    (tame : ∀ name ∈ c.names, Name.isTame name = true)
    (slots : ∀ l ∈ c.literals, Template.RendersCalm env [.slot l]) :
    c.template.RendersCalm env :=
  Argument.Built.calm built.argument (fun _ column => by cases column) tame slots

theorem Field.Built.calm {f : Field} (built : f.Built) (checked : f.check = .ok ())
    (tame : ∀ name ∈ f.names, Name.isTame name = true)
    (slots : ∀ l ∈ f.literals, Template.RendersCalm env [.slot l]) :
    f.template.RendersCalm env := by
  cases built with
  | column name =>
      have dotted := Field.isDotted_of_check checked
      exact .text (fixed_of_isDotted dotted).plain
        (Name.calm_of_isDotted dotted (tame name (by simp [names])))
  | call built => exact built.calm tame slots

theorem Operand.Built.calm {v : Operand} (built : v.Built)
    (nonempty : ∀ items, v = .list items → items ≠ [])
    (tame : ∀ name ∈ v.names, Name.isTame name = true)
    (slots : ∀ l ∈ v.allLiterals, Template.RendersCalm env [.slot l]) :
    v.template.RendersCalm env := by
  cases built with
  | absent => exact .text (by decide) (Name.calm_of_isDotted (by decide) (by decide))
  | scalar l => exact slots l (List.mem_singleton_self l)
  | list items =>
      apply RendersCalm.parenthesized
      apply RendersCalm.joined _ (isSeparator_of_mem _ (by simp))
      · intro t mem
        obtain ⟨l, inside, rfl⟩ := List.mem_map.mp mem
        exact slots l inside
      · simpa using nonempty items rfl
  | call built => exact built.calm tame slots

/-- No comparison takes an empty list. -/
theorem Operand.ne_nil_of_check {op : Comparison} {items : List Literal}
    (checked : check op (.list items) = .ok ()) : items ≠ [] := by
  rintro rfl
  cases op <;> cases checked

theorem Condition.Built.calm {c : Condition} (built : c.Built)
    (tame : ∀ name ∈ c.names, Name.isTame name = true)
    (slots : ∀ l ∈ c.literals, Template.RendersCalm env [.slot l]) :
    c.template.RendersCalm env := by
  obtain ⟨field, op, value, fieldBuilt, valueBuilt, made⟩ := built
  obtain ⟨rfl, checked, suited⟩ := Condition.of_make made
  have left : field.template.RendersCalm env :=
    fieldBuilt.calm checked (fun name mem => tame name (by simp [names, mem]))
      fun l mem => slots l (by simp [literals, mem])
  unfold Condition.template
  split
  · exact left.followed op.isSeparator_symbol.1.1 op.isSeparator_symbol.1.2
  next low high _ bounds =>
    have slot {l : Literal} (mem : l ∈ [low, high]) : Template.RendersCalm env [.slot l] := by
      refine slots l ?_
      simp only [literals, show value.normal = .list [low, high] from bounds]
      exact List.mem_append_right _ mem
    have range : Template.RendersCalm env ([.slot low] ++ .text " AND " :: [.slot high]) :=
      (slot (by simp)).separated (isSeparator_of_mem _ (by simp)) (slot (by simp))
    exact left.separated (isSeparator_of_mem _ (by simp)) range
  · refine left.separated op.isSeparator_symbol.2 (valueBuilt.normal.calm ?_ ?_ ?_)
    · rintro items same
      rw [same] at suited
      exact Operand.ne_nil_of_check suited
    · exact fun name mem => tame name (List.mem_append_right _ mem)
    · exact fun l mem => slots l (List.mem_append_right _ mem)

theorem Predicate.calm_memberTemplates {ps : List Predicate}
    (calm : ∀ p ∈ ps, p.template.RendersCalm env) :
    ∀ t ∈ memberTemplates ps, t.RendersCalm env := by
  induction ps with
  | nil => simp [memberTemplates]
  | cons p ps ih =>
      intro t mem
      rw [memberTemplates] at mem
      rcases List.mem_cons.mp mem with rfl | later
      · split
        · exact .parenthesized (calm p (by simp))
        · exact calm p (by simp)
      · exact ih (fun q hq => calm q (List.mem_cons_of_mem p hq)) t later

/-- A predicate is calm if all conditions in it are. -/
theorem Predicate.Built.calm {p : Predicate} (built : p.Built) :
    (∀ c ∈ p.conditions, c.template.RendersCalm env) → p.template.RendersCalm env := by
  induction built with
  | condition built =>
      intro calm
      rw [Predicate.template]
      exact calm _ (by simp [Predicate.conditions])
  | @group members connective g _ made ih =>
      obtain ⟨same, nonempty⟩ := Group.of_make made
      intro calm
      rw [Group.toPredicate, same] at calm ⊢
      have each : ∀ p ∈ members, p.template.RendersCalm env := fun p mem => ih p mem fun c inside =>
        calm c (by
          rw [Predicate.conditions, mem_conditionsOf]
          exact ⟨p, mem, inside⟩)
      rcases members with _ | ⟨only, _ | ⟨q, rest⟩⟩
      · exact absurd rfl nonempty
      · rw [Predicate.template]
        exact each only (by simp)
      · rw [Predicate.template]
        · refine .joined ?_ g.connective.isSeparator_symbol (calm_memberTemplates each)
          simp [memberTemplates]
        all_goals simp

theorem SelectField.Built.calm {f : SelectField} (built : f.Built)
    (selected : ∀ text, f.expression = .raw text → Name.isColumnReference text = true)
    (tame : ∀ name ∈ f.names, Name.isTame name = true)
    (slots : ∀ l ∈ f.literals, Template.RendersCalm env [.slot l]) :
    f.template.RendersCalm env := by
  obtain ⟨expression, aliasName, expressionBuilt, made⟩ := built
  obtain ⟨rfl, checked⟩ := SelectField.of_make made
  have shown : expression.template.RendersCalm env := by
    cases expressionBuilt with
    | raw text =>
        have reference := selected text rfl
        exact .text (fixed_of_isColumnReference reference).plain
          (Name.calm_of_isColumnReference reference (tame text (by simp [names, Selected.names])))
    | call built => exact built.calm (fun name mem => tame name (List.mem_append_left _ mem)) slots
  unfold SelectField.template
  cases aliasName with
  | none => exact shown
  | some name =>
      have identifier := isIdentifier_of_checkAlias checked
      have word : Flat (tokens (" AS " ++ name).toList) := by
        have keyword : IsSeparator " AS " := isSeparator_of_mem _ (by simp)
        rw [String.toList_append,
          Sql.tokens_append keyword.seam.fixed.plain (.inl keyword.last)]
        exact keyword.flat.append
          (Name.flat_of_isIdentifier identifier (tame name (by simp [names])))
      exact shown.followed (isSeam_alias identifier) word

end RuleQuery
