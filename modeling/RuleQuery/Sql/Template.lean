/-
# Templates

A part of a query is rendered to a template first: a list of pieces, each of which is fixed text or
the place of a literal. Rendering does not depend on the values of parameters; they come in when the
template is filled. A literal that is a placeholder is then replaced by the value of its parameter,
and by itself, in braces and without quotes, when there is none. So the text of a query and the
list of the parameters that stayed open are two readings of one template.
-/

import RuleQuery.Literal

namespace RuleQuery.Sql

/-- The values of parameters, as far as they have one. -/
abbrev Environment := String → Option Literal

/-- Fixed text, or the place of a literal. -/
inductive Piece
  | text (value : String)
  | slot (value : Literal)
  deriving DecidableEq

/-- Text with places for literals. -/
abbrev Template := List Piece

/-- The environment that gives no parameter a value. -/
def Environment.empty : Environment := fun _ => none

/-- The text of a literal in its place. -/
def literalText (env : Environment) (l : Literal) : String :=
  match l.placeholder? with
  | none => l.sql
  | some name =>
    match env name with
    | some bound => bound.sql
    | none => Name.placeholder name

def Piece.fill (env : Environment) : Piece → String
  | .text s => s
  | .slot l => literalText env l

/-- The parameter that a piece leaves open. -/
def Piece.open? (env : Environment) : Piece → Option String
  | .text _ => none
  | .slot l => l.placeholder?.filter fun name => (env name).isNone

namespace Template

/-- A template that is fixed text. -/
def ofText (s : String) : Template := [.text s]

/-- Templates one after another with a text between neighbours. -/
def joined (separator : String) (parts : List Template) : Template :=
  List.intercalate [Piece.text separator] parts

/-- A template in parentheses. -/
def parenthesized (t : Template) : Template :=
  .text "(" :: t ++ [.text ")"]

/-- The text of a template. -/
def fill (env : Environment) (t : Template) : String :=
  String.join (t.map (Piece.fill env))

/-- The parameters that a template leaves open, with repeats, in order. -/
def openNames (env : Environment) (t : Template) : List String :=
  t.filterMap (Piece.open? env)

/-- A joined template, with the separator in front of every part but the first. -/
theorem joined_cons (separator : String) (t : Template) (rest : List Template) :
    joined separator (t :: rest) = t ++ rest.flatMap (.text separator :: ·) := by
  induction rest generalizing t with
  | nil => simp [joined]
  | cons u rest ih =>
    rw [joined, List.intercalate_cons_cons, ← joined, ih]
    simp

/-- The text of a template when no parameter has a value. -/
def sql (t : Template) : String := t.fill .empty

@[simp] theorem openNames_append (env : Environment) (s t : Template) :
    openNames env (s ++ t) = openNames env s ++ openNames env t :=
  List.filterMap_append

@[simp] theorem fill_nil (env : Environment) : fill env [] = "" := rfl

@[simp] theorem fill_cons (env : Environment) (p : Piece) (t : Template) :
    fill env (p :: t) = p.fill env ++ fill env t := by
  simp [fill]

@[simp] theorem fill_append (env : Environment) (s t : Template) :
    fill env (s ++ t) = fill env s ++ fill env t := by
  simp [fill]

end Template

end RuleQuery.Sql
