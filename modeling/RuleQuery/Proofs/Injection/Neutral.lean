/-
# Templates that do not show their strings

Two environments are twins when they give every parameter twin values, or no value at all. A
template is neutral with respect to them when its two texts, put in front of texts that are alike
and go on harmlessly, are alike again. The lemmas here follow the ways in which a template is woven,
and so every woven template is neutral if its raw texts are inert.
-/

import RuleQuery.Proofs.Injection.Weave

namespace RuleQuery

open Sql (Environment Template Alike)

/-- Environments that give every parameter twin values. -/
def Sql.Environment.Twins (env env' : Environment) : Prop :=
  ∀ name, Option.Rel Literal.Twins (env name) (env' name)

/-- Text that may stand after a fragment and before anything. -/
def IsGlue (s : String) : Prop :=
  Plain s.toList ∧ s ≠ "" ∧ Closes s.toList

instance (s : String) : Decidable (IsGlue s) := by
  unfold IsGlue; infer_instance

/-- The text of a template differs in the contents of its string literals at most. -/
def Sql.Template.Neutral (env env' : Environment) (t : Template) : Prop :=
  ∀ a b, Closes a → Closes b → Alike a b →
    Alike ((t.fill env).toList ++ a) ((t.fill env').toList ++ b)

namespace IsGlue

theorem closes {s : String} (glue : IsGlue s) (rest : List Char) : Closes (s.toList ++ rest) := by
  obtain ⟨_, nonempty, closes⟩ := glue
  cases chars : s.toList with
  | nil => exact absurd (String.toList_eq_nil_iff.mp chars) nonempty
  | cons c cs => rwa [chars] at closes

end IsGlue

namespace Sql.Template.Neutral

variable {env env' : Environment}

theorem nil : Neutral env env' [] := by
  intro a b _ _ alike
  exact alike

theorem text {s : String} (inert : Inert s.toList) : Neutral env env' (ofText s) := by
  intro a b left right alike
  simpa [ofText, Piece.fill] using Alike.inert inert left right alike

/-- Plain text may be put in front of a neutral template. -/
theorem plain_cons {s : String} {t : Template} (plain : Plain s.toList)
    (neutral : Neutral env env' t) : Neutral env env' (.text s :: t) := by
  intro a b left right alike
  have rest := neutral a b left right alike
  simpa [Piece.fill] using Alike.plain plain rest

/-- Glue keeps neutral templates apart. -/
theorem glue {s : String} {t u : Template} (first : Neutral env env' t) (glue : IsGlue s)
    (second : Neutral env env' u) : Neutral env env' (t ++ .text s :: u) := by
  intro a b left right alike
  have rest := Alike.plain glue.1 (second a b left right alike)
  have whole := first _ _ (glue.closes _) (glue.closes _) rest
  simpa [Piece.fill] using whole

/-- The text of a literal in its place. -/
theorem literalText {a b : List Char} (twins : env.Twins env') (l : Literal) (left : Closes a)
    (right : Closes b) (alike : Alike a b) :
    Alike ((Sql.literalText env l).toList ++ a) ((Sql.literalText env' l).toList ++ b) := by
  unfold Sql.literalText
  cases parameter : l.placeholder? with
  | none => exact .literal (.inl rfl) left right alike
  | some name =>
      have values := twins name
      dsimp only
      cases bound : env name with
      | none =>
          cases bound' : env' name with
          | none =>
              have plain := plain_placeholder (Literal.isIdentifier_of_placeholder? parameter)
              exact .plain plain alike
          | some l' =>
              rw [bound, bound'] at values
              cases values
      | some l =>
          cases bound' : env' name with
          | none =>
              rw [bound, bound'] at values
              cases values
          | some l' =>
              rw [bound, bound'] at values
              exact .literal (Option.rel_some_some.mp values) left right alike

theorem slot (twins : env.Twins env') (l : Literal) : Neutral env env' [.slot l] := by
  intro a b left right alike
  simpa [Piece.fill] using literalText twins l left right alike

end Sql.Template.Neutral

/-- A phrase of inert fragments is inert. -/
theorem Phrase.inert {cs : List Char} (phrase : Phrase Inert cs) : Inert cs := by
  induction phrase with
  | nil => exact .nil
  | fixed fixed _ ih =>
      have plain := isPlain_of_isFixed fixed
      exact ih.cons (unquoted_of_isPlain plain) (not_opensComment_of_isPlain plain _)
  | raw inert closes _ ih => exact .append inert ih closes

/-- What is woven from inert texts does not show its strings. -/
theorem Sql.Template.Woven.neutral {env env' : Environment} (twins : env.Twins env') {t : Template}
    (woven : t.Woven Inert) : t.Neutral env env' := by
  induction woven with
  | nil => exact .nil
  | phrase phrase => exact .text phrase.inert
  | fixed fixed _ ih => exact .plain_cons fixed.plain ih
  | slot l => exact .slot twins l
  | seam _ seam _ first second =>
      exact first.glue ⟨seam.fixed.plain, seam.nonempty, seam.closes⟩ second

end RuleQuery
