/-
# What a decoder gives

A decoder makes its nodes with the same functions as anyone else. So a node that comes from a
document is one that could have been built without it, whatever the document is: its parts have been
decoded before, and its last step is `make`. The decoders of arguments and of predicates call
themselves, and the two inductions here follow them through the items of an array and the entries of
an object.

Nothing is said of the documents that are refused.
-/

import RuleQuery.Document.Configuration
import RuleQuery.Proofs.Construction

namespace RuleQuery

namespace Decoded

variable {α β : Type} {Q : α → Prop} {R : β → Prop}

/-- Whatever is decoded has a property. -/
def Gives (d : Decoded α) (Q : α → Prop) : Prop := ∀ a, d = .ok a → Q a

theorem gives_any {d : Decoded α} : d.Gives fun _ => True := fun _ _ => trivial

theorem gives_ok {a : α} (h : Q a) : Gives (.ok a) Q := by
  rintro _ ⟨⟩
  exact h

theorem gives_refuse {cause : Mismatch} : (refuse cause).Gives Q := by
  rintro _ ⟨⟩

theorem Gives.bind {d : Decoded α} {f : α → Decoded β} (first : d.Gives Q)
    (next : ∀ a, Q a → (f a).Gives R) : (d >>= f).Gives R := by
  intro b accepted
  cases d with
  | ok a => exact next a (first a rfl) b accepted
  | error failure => cases accepted

theorem Gives.map {d : Decoded α} {f : α → β} (first : d.Gives Q) (each : ∀ a, Q a → R (f a)) :
    Gives (d.map f) R := by
  intro b accepted
  cases d with
  | ok a =>
      cases accepted
      exact each a (first a rfl)
  | error failure => cases accepted

theorem Gives.within {d : Decoded α} (first : d.Gives Q) (step : Step) :
    (within step d).Gives Q := by
  intro a accepted
  cases d with
  | ok b =>
      cases accepted
      exact first a rfl
  | error failure => cases accepted

/-- A node that is made has been made. -/
theorem gives_ofMade {r : Except Defect α} : (ofMade r).Gives fun a => r = .ok a := by
  intro a accepted
  cases r with
  | ok b =>
      cases accepted
      rfl
  | error cause => cases accepted

theorem Gives.mono {d : Decoded α} {R : α → Prop} (first : d.Gives Q) (weaker : ∀ a, Q a → R a) :
    d.Gives R := fun a accepted => weaker a (first a accepted)

/-- The items of an array have what each of them is decoded to have. -/
theorem gives_itemsFrom {decode : Json → Decoded α} (each : ∀ v, (decode v).Gives Q) (i : Nat)
    (vs : List Json) : (itemsFrom decode i vs).Gives fun as => ∀ a ∈ as, Q a := by
  induction vs generalizing i with
  | nil => exact gives_ok (by simp)
  | cons v vs ih =>
      refine ((each v).within _).bind fun a first => (ih (i + 1)).bind fun as rest => ?_
      exact gives_ok (List.forall_mem_cons.mpr ⟨first, rest⟩)

theorem gives_items {decode : Json → Decoded α} (each : ∀ v, (decode v).Gives Q)
    (vs : List Json) : (items decode vs).Gives fun as => ∀ a ∈ as, Q a :=
  gives_itemsFrom each 0 vs

end Decoded

open Decoded

/-! ## Calls -/

theorem Call.gives_assemble {entries : List (String × Json)} {args : Decoded (List Argument)}
    (parts : args.Gives fun as => ∀ a ∈ as, a.Built) :
    (assemble entries args).Gives Call.Built := by
  refine gives_any.bind fun fs _ => gives_any.bind fun function _ => gives_any.bind fun _ _ => ?_
  refine (parts.within _).bind fun as built => gives_ofMade.mono fun c made => ?_
  exact ⟨function, as, built, made⟩

theorem Literal.gives_argument (v : Json) :
    Gives ((Literal.decode v).map .literal) Argument.Built :=
  gives_any.map fun l _ => .literal l

namespace Argument

mutual

theorem gives_decode : (v : Json) → (decode v).Gives Built
  | .object entries => by
      rw [decode]
      split
      · exact (Call.gives_assemble (gives_decodeUnderArgs entries)).map fun c built =>
          built.argument
      · exact Literal.gives_argument _
  | .string s => by
      rw [decode]
      apply gives_ok
      split
      · exact .column s
      · exact .literal (.string s)
  | .null | .bool _ | .int _ | .float _ | .array _ => by
      rw [decode]
      · exact Literal.gives_argument _
      all_goals simp

theorem gives_decodeFrom (i : Nat) :
    (vs : List Json) → (decodeFrom i vs).Gives fun as => ∀ a ∈ as, Built a
  | [] => by
      rw [decodeFrom]
      exact gives_ok (by simp)
  | v :: vs => by
      rw [decodeFrom]
      refine ((gives_decode v).within _).bind fun a first =>
        (gives_decodeFrom (i + 1) vs).bind fun as rest => ?_
      exact gives_ok (List.forall_mem_cons.mpr ⟨first, rest⟩)

theorem gives_decodeUnderArgs :
    (entries : List (String × Json)) → (decodeUnderArgs entries).Gives fun as => ∀ a ∈ as, Built a
  | [] => by
      rw [decodeUnderArgs]
      exact gives_ok (by simp)
  | (key, .array items) :: rest => by
      rw [decodeUnderArgs]
      split
      · exact gives_decodeFrom 0 items
      · exact gives_decodeUnderArgs rest
  | (_, .null) :: rest | (_, .bool _) :: rest | (_, .int _) :: rest | (_, .float _) :: rest
  | (_, .string _) :: rest | (_, .object _) :: rest => by
      rw [decodeUnderArgs]
      · exact gives_decodeUnderArgs rest
      all_goals simp

end

end Argument

theorem Call.gives_decode (v : Json) : (decode v).Gives Call.Built := by
  cases v with
  | object entries => exact gives_assemble (Argument.gives_decodeUnderArgs entries)
  | _ => exact gives_refuse

/-! ## Conditions -/

theorem Field.gives_decode (v : Json) : (decode v).Gives Field.Built := by
  cases v with
  | string s => exact gives_ok (.column s)
  | object entries => exact (Call.gives_decode _).map fun c => .call
  | _ => exact gives_refuse

theorem Operand.built_ofLiteral (l : Literal) : (ofLiteral l).Built := by
  cases l with
  | null => exact .absent
  | _ => exact .scalar _

theorem Operand.gives_decode (v : Json) : (decode v).Gives Operand.Built := by
  have literal : Gives ((Literal.decode v).map ofLiteral) Operand.Built :=
    gives_any.map fun l _ => built_ofLiteral l
  cases v with
  | array items =>
      have decoded : (Decoded.items decodeItem items).Gives fun _ => True := gives_any
      exact decoded.map fun ls _ => .list ls
  | object entries =>
      rw [decode]
      split
      · exact (Call.gives_decode _).map fun c => .call
      · exact literal
  | _ => exact literal

theorem Condition.gives_decode (v : Json) : (decode v).Gives Condition.Built := by
  refine gives_any.bind fun fs _ => gives_any.bind fun raw _ => ?_
  refine ((Field.gives_decode raw).within _).bind fun field fieldBuilt => ?_
  refine gives_any.bind fun symbol _ => gives_any.bind fun op _ => ?_
  have made (value : Operand) (valueBuilt : value.Built) :
      (ofMade (make field op value)).Gives Condition.Built :=
    gives_ofMade.mono fun c made => ⟨field, op, value, fieldBuilt, valueBuilt, made⟩
  cases fs.get? "value" with
  | some raw => exact ((Operand.gives_decode raw).within _).bind made
  | none => exact made .absent .absent

/-! ## Predicates -/

theorem Group.gives_assemble {entries : List (String × Json)} {members : Decoded (List Predicate)}
    (parts : members.Gives fun ps => ∀ p ∈ ps, p.Built) :
    (assemble entries members).Gives Group.Built := by
  refine gives_any.bind fun fs _ => gives_any.bind fun name _ => ?_
  have rest (connective : Option Connective) : (do
      let _ ← fs.items "conditions"
      let members ← Decoded.within (.key "conditions") members
      ofMade (make members connective)).Gives Group.Built := by
    refine gives_any.bind fun _ _ => (parts.within _).bind fun ps built => ?_
    exact gives_ofMade.mono fun g made => ⟨ps, connective, built, made⟩
  cases name with
  | some s => exact gives_any.bind fun connective _ => rest connective
  | none => exact rest none

namespace Predicate

mutual

theorem gives_decode : (v : Json) → (decode v).Gives Built
  | .null | .bool _ | .int _ | .float _ | .string _ | .array _ => by
      rw [decode]
      · exact gives_refuse
      all_goals simp
  | .object entries => by
      rw [decode]
      split
      · exact (Condition.gives_decode _).map fun c => .condition
      · exact (Group.gives_assemble (gives_decodeUnderConditions entries)).map fun g built =>
          built.predicate

theorem gives_decodeFrom (i : Nat) :
    (vs : List Json) → (decodeFrom i vs).Gives fun ps => ∀ p ∈ ps, Built p
  | [] => by
      rw [decodeFrom]
      exact gives_ok (by simp)
  | v :: vs => by
      rw [decodeFrom]
      refine ((gives_decode v).within _).bind fun p first =>
        (gives_decodeFrom (i + 1) vs).bind fun ps rest => ?_
      exact gives_ok (List.forall_mem_cons.mpr ⟨first, rest⟩)

theorem gives_decodeUnderConditions : (entries : List (String × Json)) →
    (decodeUnderConditions entries).Gives fun ps => ∀ p ∈ ps, Built p
  | [] => by
      rw [decodeUnderConditions]
      exact gives_ok (by simp)
  | (key, .array items) :: rest => by
      rw [decodeUnderConditions]
      split
      · exact gives_decodeFrom 0 items
      · exact gives_decodeUnderConditions rest
  | (_, .null) :: rest | (_, .bool _) :: rest | (_, .int _) :: rest | (_, .float _) :: rest
  | (_, .string _) :: rest | (_, .object _) :: rest => by
      rw [decodeUnderConditions]
      · exact gives_decodeUnderConditions rest
      all_goals simp

end

end Predicate

theorem Group.gives_decode (v : Json) : (decode v).Gives Group.Built := by
  cases v with
  | object entries => exact gives_assemble (Predicate.gives_decodeUnderConditions entries)
  | _ => exact gives_refuse

theorem WhereClause.gives_decode (v : Json) : (decode v).Gives WhereClause.Built := by
  refine gives_any.bind fun fs _ => gives_any.bind fun items _ => ?_
  exact ((gives_items Predicate.gives_decode items).within _).bind fun members built =>
    gives_ok built

/-! ## Clauses -/

theorem TableRef.gives_decode (v : Json) : (decode v).Gives TableRef.Built := by
  refine gives_any.bind fun fs _ => gives_any.bind fun name _ =>
    gives_any.bind fun aliasName _ => gives_ofMade.mono fun t made => ?_
  exact ⟨name, aliasName, made⟩

theorem Join.gives_decode (v : Json) : (decode v).Gives Join.Built := by
  refine gives_any.bind fun fs _ => gives_any.bind fun name _ => gives_any.bind fun kind _ =>
    gives_any.bind fun table _ => gives_any.bind fun aliasName _ => gives_any.bind fun on _ => ?_
  refine gives_ofMade.bind fun j made => gives_any.bind fun useAs _ => gives_ok ?_
  exact ⟨kind, table, aliasName, on, j, useAs.getD true, made, rfl⟩

theorem Selected.gives_decode (v : Json) : (decode v).Gives Selected.Built := by
  cases v with
  | string s => exact gives_ok (.raw s)
  | object entries => exact (Call.gives_decode _).map fun c => .call
  | _ => exact gives_refuse

theorem SelectField.gives_decode (v : Json) : (decode v).Gives SelectField.Built := by
  refine gives_any.bind fun fs _ => gives_any.bind fun raw _ => ?_
  refine ((Selected.gives_decode raw).within _).bind fun expression built => ?_
  refine gives_any.bind fun aliasName _ => gives_ofMade.mono fun f made => ?_
  exact ⟨expression, aliasName, built, made⟩

theorem Select.gives_decode (v : Json) : (decode v).Gives Select.Built := by
  refine gives_any.bind fun fs _ => gives_any.bind fun items _ => ?_
  refine ((gives_items SelectField.gives_decode items).within _).bind fun fields built => ?_
  exact gives_ofMade.mono fun s made => ⟨fields, built, made⟩

/-! ## Configurations -/

theorem Configuration.gives_decodeList {α : Type} {Q : α → Prop} {fs : Fields} {key : String}
    {decode : Json → Decoded α} (each : ∀ v, (decode v).Gives Q) :
    (decodeList fs key decode).Gives fun as => ∀ a ∈ as, Q a :=
  gives_any.bind fun items _ => (gives_items each items).within _

/-- The clauses behind the conditions complete a configuration. -/
theorem Configuration.gives_rest {fs : Fields} {select : Select} {table : TableRef}
    {joins : List Join} {conditions : WhereClause} (hs : select.Built) (ht : table.Built)
    (hj : ∀ j ∈ joins, j.Built) (hw : conditions.Built) : (do
      let groupBy ← decodeList fs "group_by" decodeString
      let orderBy ← decodeList fs "order_by" decodeString
      let having ← decodeList fs "having" Condition.decode
      let parameters ← match fs.get? "parameters" with
        | some raw => Decoded.within (.key "parameters") (Declarations.decode raw)
        | none => .ok .empty
      return Configuration.mk select table joins conditions groupBy having orderBy
        parameters).Gives Configuration.Built := by
  refine gives_any.bind fun groupBy _ => gives_any.bind fun orderBy _ => ?_
  refine (gives_decodeList Condition.gives_decode).bind fun having hh => ?_
  have whole (parameters : Declarations) :
      Built ⟨select, table, joins, conditions, groupBy, having, orderBy, parameters⟩ :=
    Parts.built ⟨hs, ht, hj, hw, hh⟩
  cases fs.get? "parameters" with
  | some raw => exact gives_any.bind fun parameters _ => gives_ok (whole parameters)
  | none => exact gives_ok (whole .empty)

/-- A configuration of a document could have been built without it. -/
theorem Configuration.gives_decode (v : Json) : (decode v).Gives Configuration.Built := by
  refine gives_any.bind fun fs _ => gives_any.bind fun raw _ => ?_
  refine ((Select.gives_decode raw).within _).bind fun select hs => gives_any.bind fun raw _ => ?_
  refine ((TableRef.gives_decode raw).within _).bind fun table ht => ?_
  refine (gives_decodeList Join.gives_decode).bind fun joins hj => ?_
  cases fs.get? "conditions" with
  | some raw =>
      exact ((WhereClause.gives_decode raw).within _).bind fun _ hw => gives_rest hs ht hj hw
  | none =>
      have empty : WhereClause.empty.Built := fun p mem => absurd mem List.not_mem_nil
      exact gives_rest hs ht hj empty

end RuleQuery
