/-
# The values that a declaration lets through

A value of a parameter comes from its declaration in two ways: it is the declared default, or it is
read from a text that is given for the parameter. A text is read by the kind, and has to be among
the listed ones, so whatever is bound is of the kind and listed.

A default is looked at less closely. Only a text is read by the kind, and no default is compared
with the list. The main statement says for which documents that does not matter: the default is a
text or already of the kind, and some listed text reads as the same value. `offeredProfiles` is a
declaration with a default outside of its list.
-/

import RuleQuery.Proofs.Document.Entries

namespace RuleQuery

open Decoded

namespace ParameterKind

/-- Whether a literal is a value of the kind. Where a double is expected, any number will do. -/
def holds : ParameterKind → Literal → Bool
  | .string, .string _ | .enumeration, .string _ => true
  | .integer, .int _ => true
  | .float, .int _ | .float, .float _ => true
  | .boolean, .bool _ => true
  | .date, .date _ => true
  | .datetime, .timestamp _ => true
  | _, _ => false

/-- What a literal given as a default is taken for: a text is read by the kind. -/
def take? (kind : ParameterKind) : Literal → Option Literal
  | .string s => kind.readValue? s
  | l => some l

variable {kind : ParameterKind} {name raw : String} {l : Literal}

/-- A text is read as a value of the kind. -/
theorem holds_of_readValue? (read : kind.readValue? raw = some l) : kind.holds l = true := by
  cases kind with
  | string | enumeration =>
      cases read
      rfl
  | boolean =>
      simp only [readValue?] at read
      split at read
      · cases read
        rfl
      · split at read
        · cases read
          rfl
        · cases read
  | integer | float | date | datetime =>
      obtain ⟨_, _, rfl⟩ := Option.map_eq_some_iff.mp read
      rfl

theorem parse_eq_ok_iff : kind.parse name raw = .ok l ↔ kind.readValue? raw = some l := by
  rw [parse]
  cases kind.readValue? raw <;> simp

/-- What is taken from a literal is of the kind if the literal is a text, or of the kind itself. -/
theorem holds_of_take? {given : Literal} (taken : kind.take? given = some l) :
    kind.holds l = true ↔ (∃ s, given = .string s) ∨ kind.holds given = true := by
  cases given with
  | string s =>
      have read : kind.readValue? s = some l := taken
      simp [holds_of_readValue? read]
  | _ =>
      cases taken
      simp

end ParameterKind

namespace Parameter

/-- The literal is what one of the listed texts reads as, if there is a list. -/
def Lists (p : Parameter) (l : Literal) : Prop :=
  ∀ values, p.values = some values → ∃ raw ∈ values, p.kind.readValue? raw = some l

/-- The literal is of the declared kind and listed. -/
def Permits (p : Parameter) (l : Literal) : Prop :=
  p.kind.holds l = true ∧ p.Lists l

/-- The literal comes from the declaration: it is the default, or read from a text. -/
def Supplies (p : Parameter) (l : Literal) : Prop :=
  p.default = some l ∨ ∃ name raw, p.bind name raw = .ok l

variable {p : Parameter} {name raw : String} {l : Literal}

/-- A text is accepted if it is listed, where there is a list, and if its kind can read it. -/
theorem bind_eq_ok_iff : p.bind name raw = .ok l ↔
    (∀ values, p.values = some values → raw ∈ values) ∧ p.kind.readValue? raw = some l := by
  rw [bind]
  cases p.values with
  | none => simp [ParameterKind.parse_eq_ok_iff]
  | some values =>
      by_cases listed : raw ∈ values
      · simp [listed, ParameterKind.parse_eq_ok_iff]
      · simp [listed]

theorem permits_of_bind (bound : p.bind name raw = .ok l) : p.Permits l := by
  obtain ⟨listed, read⟩ := bind_eq_ok_iff.mp bound
  refine ⟨ParameterKind.holds_of_readValue? read, fun values given => ?_⟩
  exact ⟨raw, listed values given, read⟩

/-! ## Defaults in documents -/

/-- The literal that a declaration gives as its default, before the kind looks at it. -/
def givenDefault? : Json → Option Literal
  | .object entries =>
    (Fields.get? ⟨entries⟩ "default").bind fun v => (Literal.decode v).toOption
  | _ => none

theorem decodeDefault_eq_ok {kind : ParameterKind} {v : Json}
    (decoded : decodeDefault kind v = .ok l) :
    ∃ given, Literal.decode v = .ok given ∧ kind.take? given = some l := by
  obtain ⟨given, read, taken⟩ := of_bind_eq_ok decoded
  refine ⟨given, read, ?_⟩
  cases given with
  | string s =>
      simp only at taken
      split at taken
      next textual =>
        cases taken
        cases kind <;> first | rfl | cases textual
      · split at taken
        next l' value =>
          cases taken
          exact value
        · cases taken
  | _ =>
      cases taken
      rfl

/-- The default of a declaration is what its kind takes from the literal that is given. -/
theorem default_of_decode {v : Json} (decoded : decode v = .ok p) :
    givenDefault? v = none ∧ p.default = none ∨
      ∃ given l, givenDefault? v = some given ∧ p.default = some l ∧
        p.kind.take? given = some l := by
  rw [decode_eq] at decoded
  obtain ⟨fs, read, body⟩ := of_bind_eq_ok decoded
  obtain ⟨rfl, _⟩ := Fields.of_read read
  obtain ⟨kind, _, body⟩ := of_bind_eq_ok body
  obtain ⟨default, entry, body⟩ := of_bind_eq_ok body
  obtain ⟨values, _, body⟩ := of_bind_eq_ok body
  obtain ⟨required, _, body⟩ := of_bind_eq_ok body
  obtain ⟨description, _, made⟩ := of_bind_eq_ok body
  cases made
  rw [Fields.entry] at entry
  cases found : fs.get? "default" with
  | none =>
      rw [found] at entry
      cases entry
      exact .inl ⟨by rw [givenDefault?, found]; rfl, rfl⟩
  | some raw =>
      rw [found] at entry
      obtain ⟨l, accepted, rfl⟩ := of_map_eq_ok (of_within_eq_ok entry)
      obtain ⟨given, decoded, taken⟩ := decodeDefault_eq_ok accepted
      refine .inr ⟨given, l, ?_, rfl, taken⟩
      rw [givenDefault?, found, Option.bind_some, decoded]
      rfl

/--
Whatever is bound through a declaration is of its kind and listed. All that the declaration supplies
is, exactly if the default that its document gives is a text or of the kind, and some listed text
reads as what the default is taken for.
-/
theorem supplies_permitted_iff {v : Json} (decoded : decode v = .ok p) :
    (∀ name raw l, p.bind name raw = .ok l → p.Permits l) ∧
      ((∀ l, p.Supplies l → p.Permits l) ↔ ∀ given, givenDefault? v = some given →
        ((∃ s, given = .string s) ∨ p.kind.holds given = true) ∧
          ∀ values, p.values = some values →
            ∃ raw ∈ values, p.kind.readValue? raw = p.kind.take? given) := by
  refine ⟨fun _ _ _ => permits_of_bind, ?_⟩
  rcases default_of_decode decoded with ⟨none_, absent⟩ | ⟨given, l, some_, default, taken⟩
  · rw [none_]
    refine ⟨fun _ _ => nofun, fun _ l supplied => ?_⟩
    rcases supplied with default | ⟨name, raw, bound⟩
    · rw [absent] at default
      cases default
    · exact permits_of_bind bound
  · have kinds := ParameterKind.holds_of_take? taken
    constructor
    · intro permitted written same
      cases some_.symm.trans same
      obtain ⟨holds, lists⟩ := permitted l (.inl default)
      exact ⟨kinds.mp holds, fun values listed => taken ▸ lists values listed⟩
    · intro fits m supplied
      rcases supplied with same | ⟨name, raw, bound⟩
      · cases default.symm.trans same
        obtain ⟨holds, lists⟩ := fits given some_
        exact ⟨kinds.mpr holds, fun values listed => taken ▸ lists values listed⟩
      · exact permits_of_bind bound

/-- A day of which two are listed. Its default is written in another way than in the list. -/
def bookingDay : Json :=
  .object [("default", .object [("date", .string "2024-2-9")]), ("type", .string "date"),
    ("values", .ofStrings ["2024-02-09", "2024-02-29"])]

/-- The first of the listed days. -/
def firstBookingDay : Literal := .date ⟨2024, 2, 9, by decide⟩

/-- It is the default, and all that is supplied is permitted. -/
theorem supplies_bookingDay : ∃ p, decode bookingDay = .ok p ∧ p.Supplies firstBookingDay ∧
    ∀ l, p.Supplies l → p.Permits l := by
  have decoded : decode bookingDay = .ok ⟨.date, false, some firstBookingDay, none,
      some ["2024-02-09", "2024-02-29"]⟩ := rfl
  refine ⟨_, decoded, .inl rfl, (supplies_permitted_iff decoded).2.mpr ?_⟩
  intro given same
  have first : givenDefault? bookingDay = some firstBookingDay := rfl
  cases first.symm.trans same
  refine ⟨.inr rfl, ?_⟩
  rintro _ ⟨⟩
  exact ⟨"2024-02-09", by decide, rfl⟩

/-- The profiles that are on offer. -/
def offeredProfiles (default : Json) : Json :=
  .object [("default", default), ("type", .string "enum"),
    ("values", .ofStrings ["PREPAID", "HYBRID"])]

/-- A number is accepted as their default, and so is a profile that is not on offer. -/
theorem offeredProfiles_unchecked :
    (∃ p, decode (offeredProfiles (.int 5)) = .ok p ∧ p.Supplies (.int 5) ∧
      p.kind.holds (.int 5) = false) ∧
    ∃ p, decode (offeredProfiles (.string "POSTPAID")) = .ok p ∧
      p.Supplies (.string "POSTPAID") ∧ ¬ p.Lists (.string "POSTPAID") := by
  refine ⟨⟨_, rfl, .inl rfl, rfl⟩, ⟨_, rfl, .inl rfl, fun listed => ?_⟩⟩
  obtain ⟨raw, mem, read⟩ := listed _ rfl
  cases read
  revert mem
  decide

end Parameter

end RuleQuery
