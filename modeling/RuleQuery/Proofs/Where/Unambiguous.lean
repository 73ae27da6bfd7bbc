/-
# No two WHERE clauses have the same text

A clause is rendered to one flat text, in which an AND may join the bounds of a range as well as
members, a parenthesis may belong to a call, a list or a group, and a string may hold anything. The
main statement is that the tree can still be recovered, up to its normal form: two clauses have the
same text exactly if their normal forms are the same. This holds for literals that are NULL, truth
values, integers and strings, and for columns that do not have the name of a constant.

The proof goes up the tree. A condition is its field, then the comparison, of which none is the
beginning of another, and then a value of which the comparison tells what it may be. A member of a
group is a condition, which starts with no parenthesis, or a group in parentheses; and what follows
the first member tells the connective.
-/

import RuleQuery.Proofs.Literals
import RuleQuery.Proofs.Where.Argument

namespace RuleQuery

open Sql (Template Piece)

/-! ## Conditions -/

def Field.toArgument : Field → Argument
  | .column name => .column name
  | .call c => c.toArgument

theorem Field.chars_toArgument (f : Field) : f.toArgument.chars = f.template.chars := by
  cases f <;> rfl

theorem Call.toArgument_injective {c d : Call} (same : c.toArgument = d.toArgument) : c = d := by
  obtain ⟨function, args⟩ := c
  cases same
  rfl

theorem Field.toArgument_injective {f g : Field} (same : f.toArgument = g.toArgument) : f = g := by
  cases f with
  | column name => cases g <;> cases same; rfl
  | call c =>
      cases g with
      | column name => cases same
      | call d => rw [Call.toArgument_injective same]

/-- A value that is no list as an argument, which is NULL where there is no value. -/
def Operand.toArgument : Operand → Argument
  | .absent | .list _ => .literal .null
  | .scalar l => .literal l
  | .call c => c.toArgument

/-- The value that is no list and is written like a given argument. -/
def Operand.ofArgument : Argument → Operand
  | .literal .null | .column _ => .absent
  | .literal l => .scalar l
  | .call function args => .call ⟨function, args⟩

def Operand.chars (v : Operand) : List Char := v.template.chars

/-- A value whose literals are simple and whose functions are in upper case. -/
structure Operand.Clear (v : Operand) : Prop where
  literals : ∀ l ∈ v.literals, l.IsSimple
  notNull : v ≠ .scalar .null
  call : ∀ c, v = .call c → c.toArgument.Clear

/-- A condition in which everything is told apart from anything else. -/
structure Condition.Clear (c : Condition) : Prop where
  field : c.field.toArgument.Clear
  suits : c.value.Suits c.op
  value : c.value.Clear

namespace Comparison

/-- A comparison with the blanks around it; one that takes no value has none behind it. -/
def lead (op : Comparison) : String :=
  if op.arity = .none then " " ++ op.symbol else " " ++ op.symbol ++ " "

theorem mem_all (op : Comparison) : op ∈ all := by
  cases op <;> decide

/-- No comparison is the beginning of another. -/
theorem eq_of_lead_append {op other : Comparison} {u v : List Char}
    (same : op.lead.toList ++ u = other.lead.toList ++ v) : op = other ∧ u = v := by
  have free : ∀ op ∈ all, ∀ other ∈ all, op.lead.toList <+: other.lead.toList → op = other := by
    decide +kernel
  have equal : op = other := by
    rcases List.prefix_or_prefix_of_prefix ⟨u, rfl⟩ ⟨v, same.symm⟩ with first | second
    · exact free op op.mem_all other other.mem_all first
    · exact (free other other.mem_all op op.mem_all second).symm
  subst equal
  exact ⟨rfl, List.append_cancel_left same⟩

end Comparison

/-- The text behind a comparison. -/
def Operand.charsBehind (op : Comparison) (v : Operand) : List Char :=
  match op.arity, v with
  | .none, _ => []
  | .pair, .list [low, high] => low.shown ++ (" AND ".toList ++ high.shown)
  | _, v => v.chars

theorem Condition.chars_template (c : Condition) : c.template.chars =
    c.field.toArgument.chars ++ (c.op.lead.toList ++ c.value.charsBehind c.op) := by
  rw [Field.chars_toArgument]
  obtain ⟨field, op, value⟩ := c
  unfold template Operand.charsBehind Operand.chars
  cases arity : op.arity with
  | none => simp [Comparison.lead, arity]
  | scalar => simp [Comparison.lead, arity]
  | list => simp [Comparison.lead, arity]
  | pair =>
      have between : op = .between := by cases op <;> first | rfl | cases arity
      subst between
      -- Two bounds are rendered by the condition itself, anything else by the value.
      cases value with
      | list items =>
          rcases items with _ | ⟨low, _ | ⟨high, _ | ⟨l, rest⟩⟩⟩ <;> simp [Comparison.lead, arity]
          simp [Comparison.symbol]
      | _ => simp [Comparison.lead, arity]

theorem Literal.toldApart {l m : Literal} (hl : l.IsSimple) (hm : m.IsSimple) :
    ToldApart shown l m := by
  intro r s hr hs same
  rw [← Argument.chars_literal, ← Argument.chars_literal] at same
  obtain ⟨equal, rest⟩ := Argument.Clear.toldApart (.literal hl) (.literal hm) r s hr hs same
  exact ⟨Argument.literal.inj equal, rest⟩

namespace Operand

/-- A value that is no list is written as an argument, from which it can be found again. -/
theorem Clear.toArgument {v : Operand} (clear : v.Clear) (single : ∀ items, v ≠ .list items) :
    v.toArgument.Clear ∧ v.toArgument.chars = v.chars ∧ ofArgument v.toArgument = v := by
  cases v with
  | absent => exact ⟨.literal trivial, rfl, rfl⟩
  | scalar l =>
      refine ⟨.literal (clear.literals l (List.mem_singleton_self l)), rfl, ?_⟩
      cases l with
      | null => exact absurd rfl clear.notNull
      | _ => rfl
  | list items => exact absurd rfl (single items)
  | call c => exact ⟨clear.call c rfl, rfl, rfl⟩

/-- Values that are no lists are told apart like arguments. -/
theorem Clear.toldApart {v w : Operand} (cv : v.Clear) (cw : w.Clear)
    (hv : ∀ items, v ≠ .list items) (hw : ∀ items, w ≠ .list items) : ToldApart chars v w := by
  intro r s hr hs same
  obtain ⟨clearV, charsV, backV⟩ := cv.toArgument hv
  obtain ⟨clearW, charsW, backW⟩ := cw.toArgument hw
  rw [← charsV, ← charsW] at same
  obtain ⟨equal, rest⟩ := clearV.toldApart clearW r s hr hs same
  exact ⟨by rw [← backV, equal, backW], rest⟩

/-- Two lists that are not empty are told apart by their items. -/
theorem eq_of_chars_list_append {as bs : List Literal} (ha : as ≠ []) (hb : bs ≠ [])
    (simpleA : ∀ l ∈ as, l.IsSimple) (simpleB : ∀ l ∈ bs, l.IsSimple) {r s : List Char}
    (same : (list as).chars ++ r = (list bs).chars ++ s) : as = bs ∧ r = s := by
  have each : ∀ a ∈ as, ∀ b ∈ bs, ToldApart (fun l => Template.chars [.slot l]) a b := by
    intro a memA b memB r s hr hs same
    simp only [Template.chars_slot, Template.chars_nil, List.append_nil] at same
    exact Literal.toldApart (simpleA a memA) (simpleB b memB) r s hr hs same
  have shown (items : List Literal) (r : List Char) : (list items).chars ++ r = '(' ::
      ((Template.joined ", " (items.map fun l => [.slot l])).chars ++ ')' :: r) := by
    simp [chars, template, Template.parenthesized]
  rw [shown, shown, List.cons_inj_right] at same
  exact eq_of_list_append ha hb each same

/-- Two ranges are told apart by their bounds: no literal runs into the `AND` between them. -/
theorem eq_of_charsBehind_between_append {low high low' high' : Literal}
    (simple : ∀ l ∈ [low, high], l.IsSimple) (simple' : ∀ l ∈ [low', high'], l.IsSimple)
    {r s : List Char} (hr : Closes r) (hs : Closes s)
    (same : charsBehind .between (.list [low, high]) ++ r =
      charsBehind .between (.list [low', high']) ++ s) : low = low' ∧ high = high' ∧ r = s := by
  have bounds (low high : Literal) (r : List Char) :
      charsBehind .between (.list [low, high]) ++ r =
        low.shown ++ (" AND ".toList ++ (high.shown ++ r)) := by
    simp [charsBehind, Comparison.arity]
  have closes (u : List Char) : Closes (" AND ".toList ++ u) := rfl
  rw [bounds, bounds] at same
  obtain ⟨lows, rest⟩ := Literal.toldApart (simple low (by simp)) (simple' low' (by simp)) _ _
    (closes _) (closes _) same
  obtain ⟨highs, done⟩ := Literal.toldApart (simple high (by simp)) (simple' high' (by simp)) _ _
    hr hs (List.append_cancel_left rest)
  exact ⟨lows, highs, done⟩

/-- Behind the same comparison, the values that suit it are told apart. -/
theorem Clear.toldApart_behind {op : Comparison} {v w : Operand} (cv : v.Clear) (cw : w.Clear)
    (hv : v.Suits op) (hw : w.Suits op) : ToldApart (charsBehind op) v w := by
  intro r s hr hs same
  cases op with
  | isNull | isNotNull =>
      obtain rfl : v = .absent := hv
      obtain rfl : w = .absent := hw
      exact ⟨rfl, same⟩
  | isIn | notIn =>
      obtain ⟨as, ha, rfl⟩ := hv
      obtain ⟨bs, hb, rfl⟩ := hw
      obtain ⟨rfl, rest⟩ := eq_of_chars_list_append ha hb cv.literals cw.literals same
      exact ⟨rfl, rest⟩
  | between =>
      obtain ⟨low, high, rfl, -⟩ := hv
      obtain ⟨low', high', rfl, -⟩ := hw
      obtain ⟨rfl, rfl, rest⟩ :=
        eq_of_charsBehind_between_append cv.literals cw.literals hr hs same
      exact ⟨rfl, rest⟩
  | _ => exact cv.toldApart cw hv hw r s hr hs same

end Operand

namespace Condition

def chars (c : Condition) : List Char := c.template.chars

/-- Conditions are told apart. -/
theorem Clear.toldApart {c d : Condition} (hc : c.Clear) (hd : d.Clear) : ToldApart chars c d := by
  intro r s hr hs same
  have closes (op : Comparison) (u : List Char) : Closes (op.lead.toList ++ u) := by
    cases op <;> rfl
  rw [chars, chars, chars_template, chars_template] at same
  simp only [List.append_assoc] at same
  obtain ⟨field, rest⟩ := hc.field.toldApart hd.field _ _ (closes _ _) (closes _ _) same
  obtain ⟨op, rest⟩ := Comparison.eq_of_lead_append rest
  rw [← op] at rest
  obtain ⟨value, rest⟩ := hc.value.toldApart_behind hd.value hc.suits (op ▸ hd.suits) r s hr hs rest
  have field : c.field = d.field := Field.toArgument_injective field
  cases c
  cases d
  simp_all

/-- A condition starts with its field, and so with no parenthesis. -/
theorem Clear.head?_ne {c : Condition} (clear : c.Clear) (r : List Char) :
    (c.chars ++ r).head? ≠ some '(' := by
  rw [chars, chars_template, List.append_assoc]
  refine clear.field.head?_ne (fun l same => ?_) _
  cases f : c.field <;> rw [f] at same <;> cases same

end Condition

/-! ## Predicates -/

namespace Predicate

def chars (p : Predicate) : List Char := p.template.chars

/-- The characters of a member of a group. -/
def memberChars (p : Predicate) : List Char :=
  if p.needsParentheses then '(' :: (p.chars ++ [')']) else p.chars

theorem memberTemplates_eq_map (ps : List Predicate) :
    memberTemplates ps = ps.map fun p =>
      if p.needsParentheses then Template.parenthesized p.template else p.template := by
  induction ps with
  | nil => rw [memberTemplates, List.map_nil]
  | cons p ps ih => rw [memberTemplates, ih, List.map_cons]

/-- Members of a group behind the first one, with the connective in front of each. -/
def charsBehind (connective : Connective) (ps : List Predicate) : List Char :=
  ps.flatMap fun p => ' ' :: (connective.symbol.toList ++ [' ']) ++ p.memberChars

theorem closes_charsBehind (connective : Connective) (p : Predicate) (ps : List Predicate)
    (r : List Char) : Closes (charsBehind connective (p :: ps) ++ r) := rfl

theorem chars_group (connective : Connective) (p q : Predicate) (rest : List Predicate) :
    (Predicate.group connective (p :: q :: rest)).chars =
      p.memberChars ++ charsBehind connective (q :: rest) := by
  have member (p : Predicate) : Template.chars (if p.needsParentheses
      then Template.parenthesized p.template else p.template) = p.memberChars := by
    unfold memberChars
    split <;> simp [Template.parenthesized, chars]
  rw [chars, template, memberTemplates_eq_map, List.map_cons, Template.chars_joined_cons]
  · simp [member, List.flatMap_map, charsBehind]
  all_goals simp

theorem chars_condition (c : Condition) : (Predicate.condition c).chars = c.chars := by
  rw [chars, template, Condition.chars]

theorem memberChars_condition (c : Condition) : memberChars (.condition c) = c.chars := by
  simp [memberChars, needsParentheses, chars_condition]

theorem memberChars_group (connective : Connective) (p q : Predicate) (rest : List Predicate)
    (r : List Char) : memberChars (.group connective (p :: q :: rest)) ++ r =
      '(' :: ((Predicate.group connective (p :: q :: rest)).chars ++ ')' :: r) := by
  simp [memberChars, needsParentheses]

/-- What may follow a predicate: the end, or a closing parenthesis. -/
def Ends (cs : List Char) : Prop := cs = [] ∨ cs.head? = some ')'

theorem Ends.closes {cs : List Char} (ends : Ends cs) : Closes cs := by
  rcases ends with rfl | head
  · rfl
  · rw [Closes, head]
    rfl

/-- Predicates are told apart if nothing follows that could belong to them. -/
def Told (p q : Predicate) : Prop :=
  ∀ r s, Ends r → Ends s → p.chars ++ r = q.chars ++ s → p = q ∧ r = s

/-- Members are told apart if they are told apart without their parentheses. -/
theorem Branched.toldApart {p q : Predicate} (hp : p.Branched Condition.Clear)
    (hq : q.Branched Condition.Clear) (told : Told p q) : ToldApart memberChars p q := by
  intro r s hr hs same
  cases hp with
  | condition hc =>
      cases hq with
      | condition hd =>
          rw [memberChars_condition, memberChars_condition] at same
          obtain ⟨rfl, rest⟩ := hc.toldApart hd r s hr hs same
          exact ⟨rfl, rest⟩
      | group _ =>
          rw [memberChars_condition, memberChars_group] at same
          exact absurd (congrArg List.head? same) (hc.head?_ne r)
  | group _ =>
      cases hq with
      | condition hd =>
          rw [memberChars_condition, memberChars_group] at same
          exact absurd (congrArg List.head? same).symm (hd.head?_ne s)
      | group _ =>
          rw [memberChars_group, memberChars_group, List.cons_inj_right] at same
          obtain ⟨equal, rest⟩ := told _ _ (.inr rfl) (.inr rfl) same
          exact ⟨equal, (List.cons.inj rest).2⟩

/-- A condition is not a group: in front of what ends it, there is no connective. -/
theorem chars_condition_ne {c : Condition} (hc : c.Clear) {connective : Connective}
    {p q : Predicate} {rest : List Predicate} (hp : p.Branched Condition.Clear) {r s : List Char}
    (hr : Ends r) : (Predicate.condition c).chars ++ r ≠
      (Predicate.group connective (p :: q :: rest)).chars ++ s := by
  intro same
  rw [chars_condition, chars_group, List.append_assoc] at same
  cases hp with
  | condition hd =>
      rw [memberChars_condition] at same
      obtain ⟨-, follow⟩ := hc.toldApart hd _ _ hr.closes (closes_charsBehind ..) same
      rcases hr with none | head
      · rw [none] at follow
        cases follow
      · rw [follow] at head
        cases head
  | group _ =>
      rw [memberChars_group] at same
      exact absurd (congrArg List.head? same) (hc.head?_ne r)

/-- The two connectives are told apart behind a first member. -/
theorem eq_of_charsBehind_append {connective other : Connective} {p q : Predicate}
    {ps qs : List Predicate} {r s : List Char} (same : charsBehind connective (p :: ps) ++ r =
      charsBehind other (q :: qs) ++ s) : connective = other := by
  cases connective <;> cases other <;> first | rfl | cases same

/-- Predicates whose groups have two members or more are told apart. -/
theorem Branched.told {p : Predicate} (hp : p.Branched Condition.Clear) :
    ∀ q : Predicate, q.Branched Condition.Clear → Told p q := by
  induction hp with
  | @condition c hc =>
      intro q hq r s hr hs same
      cases hq with
      | condition hd =>
          rw [chars_condition, chars_condition] at same
          obtain ⟨rfl, rest⟩ := hc.toldApart hd r s hr.closes hs.closes same
          exact ⟨rfl, rest⟩
      | group members => exact absurd same (chars_condition_ne hc (members _ (by simp)) hr)
  | @group connective p q rest members ih =>
      intro other hq r s hr hs same
      cases hq with
      | condition hd => exact absurd same.symm (chars_condition_ne hd (members _ (by simp)) hs)
      | @group connective' p' q' rest' members' =>
          have each : ∀ a ∈ p :: q :: rest, ∀ b ∈ p' :: q' :: rest', ToldApart memberChars a b :=
            fun a ha b hb => (members a ha).toldApart (members' b hb) (ih a ha b (members' b hb))
          rw [chars_group, chars_group, List.append_assoc, List.append_assoc] at same
          obtain ⟨rfl, others⟩ := each p (by simp) p' (by simp) _ _ (closes_charsBehind ..)
            (closes_charsBehind ..) same
          obtain rfl := eq_of_charsBehind_append others
          have blank {r : List Char} (ends : Ends r) : r.head? ≠ some ' ' := by
            rcases ends with rfl | head
            · simp
            · rw [head]
              decide
          obtain ⟨members, done⟩ := eq_of_entries_append (by decide)
            (fun a ha b hb => each a (List.mem_cons_of_mem _ ha) b (List.mem_cons_of_mem _ hb))
            hr.closes hs.closes (blank hr) (blank hs) others
          cases members
          exact ⟨rfl, done⟩

end Predicate

/-! ## Clauses -/

namespace Argument

mutual

/-- The columns in an argument, from left to right. -/
def columns : Argument → List String
  | .literal _ => []
  | .column name => [name]
  | .call _ args => columnsOf args

def columnsOf : List Argument → List String
  | [] => []
  | a :: as => a.columns ++ columnsOf as

end

theorem mem_columnsOf {name : String} {args : List Argument} :
    name ∈ columnsOf args ↔ ∃ a ∈ args, name ∈ a.columns := by
  induction args with
  | nil => simp [columnsOf]
  | cons a args ih => simp [columnsOf, ih]

end Argument

def Call.columns (c : Call) : List String := c.toArgument.columns

def Field.columns : Field → List String
  | .column name => [name]
  | .call c => c.columns

def Operand.columns : Operand → List String
  | .call c => c.columns
  | _ => []

def Condition.columns (c : Condition) : List String := c.field.columns ++ c.value.columns

namespace WhereClause

/-- The columns of a clause, in its fields and in the arguments of its calls. -/
def columns (w : WhereClause) : List String := w.conditions.flatMap Condition.columns

/-- The clause as SQL, without values for its parameters; no text if it asks nothing. -/
def text (w : WhereClause) : String := (w.template?.map Template.sql).getD ""

/--
A clause as it can be built, whose literals are NULL, truth values, integers and strings, and none
of whose columns has the name of NULL or of a truth value.
-/
structure Legible (w : WhereClause) : Prop where
  built : w.Built
  simple : ∀ l ∈ w.literals, l.IsSimple
  free : ∀ name ∈ w.columns, name ∉ Argument.constants

end WhereClause

/-- In upper case, an argument that is built is told apart from others. -/
theorem Argument.Built.clear_raised {a : Argument} (built : a.Built) :
    (∀ name, a = .column name → Name.isColumnReference name = true) →
      (∀ l ∈ a.literals, l.IsSimple) → (∀ name ∈ a.columns, name ∉ constants) →
      a.raised.Clear := by
  induction built with
  | literal l => exact fun _ simple _ => .literal (simple l (by simp [literals]))
  | column name =>
      intro checked _ free
      exact .column (checked name rfl) (free name (by simp [columns]))
  | @call function args c _ made ih =>
      intro _ simple free
      obtain ⟨rfl, identifier, nonempty, references⟩ := Call.of_make made
      rw [Call.toArgument, raised, raisedAll_eq_map]
      refine .call (Name.isIdentifier_upperAscii identifier) (Name.upperAscii_upperAscii _)
        (by simpa using nonempty) (List.forall_mem_map.mpr fun a argument => ?_)
      refine ih a argument ?_ (fun l inside => simple l ?_) fun name inside => free name ?_
      · rintro name rfl
        exact Call.isColumnReference_of_badColumn? references argument
      · simp only [Call.toArgument, literals, mem_literalsOf]
        exact ⟨a, argument, inside⟩
      · simp only [Call.toArgument, columns, mem_columnsOf]
        exact ⟨a, argument, inside⟩

theorem Call.Built.clear_raised {c : Call} (built : c.Built) (simple : ∀ l ∈ c.literals, l.IsSimple)
    (free : ∀ name ∈ c.columns, name ∉ Argument.constants) : c.raised.toArgument.Clear := by
  have argument := built.argument.clear_raised (fun _ column => by cases column) simple free
  rwa [Call.toArgument, Argument.raised] at argument

theorem Operand.Suits.raised {op : Comparison} {v : Operand} (suits : v.Suits op) :
    v.raised.Suits op := by
  cases v with
  | call c => cases op <;> simp_all [Suits, Operand.raised]
  | _ => exact suits

theorem Operand.Built.clear_raised {v : Operand} (built : v.Built) (notNull : v ≠ .scalar .null)
    (simple : ∀ l ∈ v.allLiterals, l.IsSimple)
    (free : ∀ name ∈ v.columns, name ∉ Argument.constants) : v.raised.Clear := by
  cases built with
  | call callBuilt =>
      have clear := callBuilt.clear_raised simple free
      refine ⟨by simp [raised, literals], by simp [raised], ?_⟩
      rintro d ⟨rfl⟩
      exact clear
  | absent => exact ⟨by simp [raised, literals], by simp [raised], by simp [raised]⟩
  | scalar l => exact ⟨simple, notNull, by simp [raised]⟩
  | list items => exact ⟨simple, by simp [raised], by simp [raised]⟩

/-- In upper case, a condition that is built is told apart from others. -/
theorem Condition.Built.clear_raised {c : Condition} (built : c.Built)
    (simple : ∀ l ∈ c.literals, l.IsSimple)
    (free : ∀ name ∈ c.columns, name ∉ Argument.constants) : c.raised.Clear := by
  obtain ⟨field, op, value, fieldBuilt, valueBuilt, made⟩ := built
  obtain ⟨rfl, checked, suited⟩ := Condition.of_make made
  simp only [literals, columns, List.mem_append] at simple free
  refine ⟨?_, (Operand.suits_of_check suited).raised, ?_⟩
  · cases fieldBuilt with
    | column name =>
        exact .column (Name.isColumnReference_of_isDotted (Field.isDotted_of_check checked))
          (free name (.inl (by simp [Field.columns])))
    | call callBuilt =>
        exact callBuilt.clear_raised (fun l mem => simple l (.inl mem))
          fun name mem => free name (.inl mem)
  · exact valueBuilt.normal.clear_raised value.normal_ne_null (fun l mem => simple l (.inr mem))
      fun name mem => free name (.inr mem)

namespace WhereClause

variable {w v : WhereClause}

theorem text_of_members (some : w.members ≠ []) :
    w.text.toList = "WHERE ".toList ++ w.normal.chars := by
  rw [text, template?_of_members some, Option.map_some, Option.getD_some, normal, Predicate.chars,
    Predicate.template_normal]
  exact Template.chars_text

theorem Legible.branched_normal (legible : w.Legible) (some : w.members ≠ []) :
    w.normal.Branched Condition.Clear := by
  have whole : w.conjunction.Built := .ofMembers .and some legible.built
  refine whole.branched_normal fun c mem => ?_
  rw [conjunction, Predicate.conditions] at mem
  refine (Built.conditions legible.built c mem).clear_raised (fun l inside => legible.simple l ?_)
    fun name inside => legible.free name ?_
  · exact List.mem_flatMap.mpr ⟨c, mem, inside⟩
  · exact List.mem_flatMap.mpr ⟨c, mem, inside⟩

theorem text_of_empty (none : w.members = []) : w.text = "" ∧ w.normal = .group .and [] := by
  rw [text, template?, normal, conjunction, none]
  exact ⟨rfl, rfl⟩

/-- A clause without conditions differs from all others in its text and in its normal form. -/
theorem Legible.ne_of_empty (legible : v.Legible) (none : w.members = [])
    (some : v.members ≠ []) : w.text ≠ v.text ∧ w.normal ≠ v.normal := by
  rw [(text_of_empty none).1, (text_of_empty none).2]
  constructor
  · intro same
    have chars := congrArg String.toList same
    rw [text_of_members some] at chars
    cases chars
  · intro same
    have branched := legible.branched_normal some
    rw [← same] at branched
    cases branched

/--
Two clauses have the same text exactly if they have the same normal form: if they are the same tree
once every group with a single member is replaced by that member, several members are taken for the
group in which all of them have to hold, and functions are in upper case.
-/
theorem text_eq_iff (legible : w.Legible) (legible' : v.Legible) :
    w.text = v.text ↔ w.normal = v.normal := by
  by_cases hw : w.members = [] <;> by_cases hv : v.members = []
  · rw [(text_of_empty hw).1, (text_of_empty hv).1, (text_of_empty hw).2, (text_of_empty hv).2]
    exact ⟨fun _ => rfl, fun _ => rfl⟩
  · have apart := legible'.ne_of_empty hw hv
    exact iff_of_false apart.1 apart.2
  · have apart := legible.ne_of_empty hv hw
    exact iff_of_false apart.1.symm apart.2.symm
  · rw [← String.toList_inj, text_of_members hw, text_of_members hv, List.append_right_inj]
    constructor
    · intro same
      have told := (legible.branched_normal hw).told _ (legible'.branched_normal hv)
      exact (told [] [] (.inl rfl) (.inl rfl) (by simpa using same)).1
    · intro same
      rw [same]

/-- A range whose AND joins its bounds. -/
def inRange : Condition := ⟨.column "o.total", .between, .list [.int (-1), .int 1]⟩

/-- A comparison of a call with a text that looks like the end of one condition and of a group. -/
def noted (function : String) : Condition :=
  ⟨.call ⟨function, [.column "o.note", .literal (.string "none")]⟩, .like,
    .scalar (.string "') AND (")⟩

/-- A list with a text that looks like two. -/
def listed : Condition := ⟨.column "o.state", .isIn, .list [.string "a, b", .null]⟩

/-- A clause with a group around a single member, and with one around all. -/
def wrapping : WhereClause :=
  ⟨[.group .and [.group .or [.condition inRange, .group .and [.condition (noted "coalesce")]],
    .condition listed]]⟩

/-- The same clause without them. -/
def unwrapped : WhereClause :=
  ⟨[.group .or [.condition inRange, .condition (noted "COALESCE")], .condition listed]⟩

theorem wrapping_legible : wrapping.Legible ∧ unwrapped.Legible := by
  have range : (Predicate.condition inRange).Built :=
    .condition ⟨_, .between, .list [.int (-1), .int 1], .column "o.total", .list _, rfl⟩
  have list : (Predicate.condition listed).Built :=
    .condition ⟨_, .isIn, .list [.string "a, b", .null], .column "o.state", .list _, rfl⟩
  have note (function : String) (made : Call.make function
      [.column "o.note", .literal (.string "none")] =
        .ok ⟨function, [.column "o.note", .literal (.string "none")]⟩) :
      (Predicate.condition (noted function)).Built := by
    have call : Call.Built ⟨function, [.column "o.note", .literal (.string "none")]⟩ :=
      ⟨function, _, by simp [Argument.Built.column, Argument.Built.literal], made⟩
    exact .condition ⟨_, .like, .scalar (.string "') AND ("), .call call, .scalar _, rfl⟩
  have pair {connective : Connective} {p q : Predicate} (hp : p.Built) (hq : q.Built) :
      (Predicate.group connective [p, q]).Built :=
    .ofMembers connective (by simp) (by simp [hp, hq])
  have single {p : Predicate} (hp : p.Built) : (Predicate.group .and [p]).Built :=
    .ofMembers .and (by simp) (by simp [hp])
  have simple {w : WhereClause} (literals : w.literals = [.int (-1), .int 1, .string "none",
      .string "') AND (", .string "a, b", .null]) : ∀ l ∈ w.literals, l.IsSimple := by
    simp [literals, Literal.IsSimple]
  constructor
  · refine ⟨?_, simple rfl, by decide⟩
    exact List.forall_mem_singleton.mpr (pair (pair range (single (note _ rfl))) list)
  · refine ⟨?_, simple rfl, by decide⟩
    exact List.forall_mem_cons.mpr ⟨pair range (note _ rfl), List.forall_mem_singleton.mpr list⟩

/-- Two trees with one text have one normal form. -/
theorem text_eq_iff_wrapping :
    wrapping.Legible ∧ unwrapped.Legible ∧ wrapping ≠ unwrapped ∧
      wrapping.text = "WHERE (o.total BETWEEN -1 AND 1 OR COALESCE(o.note, 'none') LIKE ''') AND ('"
        ++ ") AND o.state IN ('a, b', NULL)" ∧
      (wrapping.text = unwrapped.text ↔ wrapping.normal = unwrapped.normal) ∧
      wrapping.normal = unwrapped.normal := by
  obtain ⟨legible, legible'⟩ := wrapping_legible
  have same : wrapping.text = unwrapped.text := by decide +kernel
  exact ⟨legible, legible', by decide, by decide +kernel, text_eq_iff legible legible',
    (text_eq_iff legible legible').mp same⟩

end WhereClause

end RuleQuery
