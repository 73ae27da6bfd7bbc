/-
# Reading a search condition

A search condition is a sequence of conditions, connectives and parentheses. `Reads` is the usual
grammar of such sequences: parentheses bind strongest, then AND, then OR. It gives a sequence the
truth value that it has once each condition has one.

The grammar is ambiguous as little as that of sums and products: a sequence has at most one value.
To see this, the sequence is run through a machine that keeps, for each parenthesis still open, the
value of the alternatives before the last OR and that of the factors since. The machine has one run,
and whatever the grammar reads, the machine arrives at.
-/

import Mathlib.Data.List.Forall2
import RuleQuery.Sql.Clause

namespace RuleQuery

open Sql (Environment)

/-- What a search condition consists of. -/
inductive Symbol
  | condition (value : Condition)
  | connective (value : Connective)
  | opening
  | closing
  deriving DecidableEq

namespace Symbol

/-- The text of a symbol. A condition is one symbol, whatever its text. -/
def text (env : Environment) : Symbol → String
  | .condition c => c.template.fill env
  | .connective c => " " ++ c.symbol ++ " "
  | .opening => "("
  | .closing => ")"

/-- The text of a sequence of symbols. -/
def spell (env : Environment) (symbols : List Symbol) : String :=
  String.join (symbols.map (text env))

/-- The conditions in a sequence of symbols, from left to right. -/
def conditions (symbols : List Symbol) : List Condition :=
  symbols.filterMap fun
    | .condition c => some c
    | _ => none

@[simp] theorem spell_nil (env : Environment) : spell env [] = "" := rfl

@[simp] theorem spell_cons (env : Environment) (a : Symbol) (s : List Symbol) :
    spell env (a :: s) = a.text env ++ spell env s := by
  simp [spell]

@[simp] theorem spell_append (env : Environment) (s t : List Symbol) :
    spell env (s ++ t) = spell env s ++ spell env t := by
  simp [spell]

@[simp] theorem conditions_condition (c : Condition) (s : List Symbol) :
    conditions (.condition c :: s) = c :: conditions s := rfl

@[simp] theorem conditions_append (s t : List Symbol) :
    conditions (s ++ t) = conditions s ++ conditions t :=
  List.filterMap_append

/-- Joined sequences of symbols, with the separator in front of every one but the first. -/
theorem intercalate_cons (separator : Symbol) (s : List Symbol) (rest : List (List Symbol)) :
    List.intercalate [separator] (s :: rest) = s ++ rest.flatMap (separator :: ·) := by
  induction rest generalizing s with
  | nil => simp
  | cons t rest ih =>
      rw [List.intercalate_cons_cons, ih]
      simp

end Symbol

/-- The levels of the grammar, from the loosest to the tightest. -/
inductive Level
  | alternatives
  | factors
  | operand

/-- The truth value of a sequence of symbols, read on a level of the grammar. -/
inductive Reads (value : Condition → Bool) : Level → List Symbol → Bool → Prop
  | condition (c : Condition) : Reads value .operand [.condition c] (value c)
  | parentheses {s : List Symbol} {a : Bool} (inside : Reads value .alternatives s a) :
      Reads value .operand (.opening :: s ++ [.closing]) a
  | single {s : List Symbol} {a : Bool} (operand : Reads value .operand s a) :
      Reads value .factors s a
  | and {s t : List Symbol} {a b : Bool} (left : Reads value .factors s a)
      (right : Reads value .operand t b) :
      Reads value .factors (s ++ .connective .and :: t) (a && b)
  | one {s : List Symbol} {a : Bool} (factors : Reads value .factors s a) :
      Reads value .alternatives s a
  | or {s t : List Symbol} {a b : Bool} (left : Reads value .alternatives s a)
      (right : Reads value .factors t b) :
      Reads value .alternatives (s ++ .connective .or :: t) (a || b)

namespace Reads

variable {value : Condition → Bool}

/-- What is known inside a parenthesis: the alternatives before the last OR, the factors since. -/
structure Frame where
  before : Bool
  since : Bool

namespace Frame

/-- Nothing is known yet. -/
def fresh : Frame := ⟨false, true⟩

/-- One more factor. -/
def take (f : Frame) (a : Bool) : Frame := ⟨f.before, f.since && a⟩

/-- An alternative is complete. -/
def turn (f : Frame) : Frame := ⟨f.before || f.since, true⟩

def result (f : Frame) : Bool := f.before || f.since

end Frame

/-- The machine on one symbol. The innermost parenthesis is the first frame. -/
def step (value : Condition → Bool) : List Frame → Symbol → List Frame
  | f :: rest, .condition c => f.take (value c) :: rest
  | f :: rest, .connective .or => f.turn :: rest
  | frames, .opening => .fresh :: frames
  | f :: g :: rest, .closing => g.take f.result :: rest
  | frames, _ => frames

def run (value : Condition → Bool) (frames : List Frame) (symbols : List Symbol) : List Frame :=
  symbols.foldl (step value) frames

theorem run_append (frames : List Frame) (s t : List Symbol) :
    run value frames (s ++ t) = run value (run value frames s) t :=
  List.foldl_append

/-- What a reading on a level does to the machine, whatever it knew before. -/
def Arrives (value : Condition → Bool) (s : List Symbol) (a : Bool) : Level → Prop
  | .alternatives => ∀ before rest, ∃ f : Frame,
      run value (⟨before, true⟩ :: rest) s = f :: rest ∧ f.result = (before || a)
  | .factors | .operand => ∀ f rest, run value (f :: rest) s = f.take a :: rest

/-- The machine arrives at whatever the grammar reads. -/
theorem arrives {level : Level} {s : List Symbol} {a : Bool} (h : Reads value level s a) :
    Arrives value s a level := by
  induction h with
  | condition c => exact fun f rest => rfl
  | @parentheses s a _ ih =>
      intro f rest
      obtain ⟨g, arrived, result⟩ := ih false (f :: rest)
      calc run value (f :: rest) (.opening :: s ++ [.closing])
          = run value (run value (.fresh :: f :: rest) s) [.closing] := run_append _ s _
        _ = run value (g :: f :: rest) [.closing] := by rw [Frame.fresh, arrived]
        _ = f.take a :: rest := by simp [run, step, result]
  | single _ ih => exact ih
  | @and s t a b _ _ left right =>
      intro f rest
      rw [run_append, left f rest]
      show run value (f.take a :: rest) t = _
      rw [right (f.take a) rest]
      simp [Frame.take, Bool.and_assoc]
  | @one s a _ ih =>
      intro before rest
      exact ⟨_, ih ⟨before, true⟩ rest, by simp [Frame.take, Frame.result]⟩
  | @or s t a b _ _ left right =>
      intro before rest
      obtain ⟨f, arrived, result⟩ := left before rest
      refine ⟨f.turn.take b, ?_, ?_⟩
      · rw [run_append, arrived]
        exact right f.turn rest
      · show (f.result || (true && b)) = _
        rw [result, Bool.true_and, Bool.or_assoc]

/-- A sequence of symbols has at most one value. -/
theorem unique {s : List Symbol} {a b : Bool} (ha : Reads value .alternatives s a)
    (hb : Reads value .alternatives s b) : a = b := by
  obtain ⟨f, runA, resultA⟩ := ha.arrives false []
  obtain ⟨g, runB, resultB⟩ := hb.arrives false []
  have same : f = g := by simpa [runA] using runB
  calc a = f.result := by rw [resultA, Bool.false_or]
    _ = b := by rw [same, resultB, Bool.false_or]

/-- Operands with AND between them are read as their conjunction. -/
theorem conjunction {parts : List (List Symbol)} {values : List Bool} {s : List Symbol} {a : Bool}
    (first : Reads value .factors s a) (rest : List.Forall₂ (Reads value .operand) parts values) :
    Reads value .factors (s ++ parts.flatMap (.connective .and :: ·)) (a && values.all id) := by
  induction rest generalizing s a with
  | nil => simpa using first
  | @cons t b parts values head _ ih =>
      have extended := ih (first.and head)
      simpa [Bool.and_assoc] using extended

/-- Operands with OR between them are read as their disjunction. -/
theorem disjunction {parts : List (List Symbol)} {values : List Bool} {s : List Symbol} {a : Bool}
    (first : Reads value .alternatives s a)
    (rest : List.Forall₂ (Reads value .operand) parts values) :
    Reads value .alternatives (s ++ parts.flatMap (.connective .or :: ·))
      (a || values.any id) := by
  induction rest generalizing s a with
  | nil => simpa using first
  | @cons t b parts values head _ ih =>
      have extended := ih (first.or head.single)
      simpa [Bool.or_assoc] using extended

end Reads

end RuleQuery
