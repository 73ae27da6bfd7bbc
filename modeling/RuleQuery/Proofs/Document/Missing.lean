/-
# Null and missing are the same

An entry of an object that is null may as well not be there. If a document is accepted as a
configuration, then any of its null entries may be taken out, in any objects at any depth, and the
same configuration is read. `Json.Pruned` is the relation between a document and what is left of it.

Most decoders look at an object through `Fields.get?`, which does not tell the two apart. The ones
that choose between nodes by a key look at the key itself, null or not. But an operator and a
function have to be texts, so an object that is accepted on the strength of such a key still has it
when its nulls are gone, and one that is accepted without the key cannot get it.
-/

import Mathlib.Data.Option.Basic
import RuleQuery.Proofs.Document.Location
import RuleQuery.Proofs.Document.Places
import RuleQuery.Proofs.Document.Tree

namespace RuleQuery

open Decoded

namespace Json

/-- The second document is the first one without some of the entries that are null, in whichever of
its objects. -/
inductive Pruned : Json → Json → Prop
  | scalar {v : Json} (single : v.IsScalar) : Pruned v v
  | noItems : Pruned (.array []) (.array [])
  | item {v w : Json} {vs ws : List Json} (head : Pruned v w)
      (tail : Pruned (.array vs) (.array ws)) : Pruned (.array (v :: vs)) (.array (w :: ws))
  | noEntries : Pruned (.object []) (.object [])
  | entry {key : String} {v w : Json} {es fs : List (String × Json)} (head : Pruned v w)
      (tail : Pruned (.object es) (.object fs)) :
      Pruned (.object ((key, v) :: es)) (.object ((key, w) :: fs))
  | null {key : String} {es fs : List (String × Json)} (tail : Pruned (.object es) (.object fs)) :
      Pruned (.object ((key, .null) :: es)) (.object fs)

namespace Pruned

variable {v w : Json} {vs : List Json} {es fs : List (String × Json)}

theorem eq_of_isScalar (pruned : v.Pruned w) (single : v.IsScalar) : w = v := by
  cases pruned with
  | scalar => rfl
  | _ => exact absurd single id

/-- Nothing becomes null. -/
theorem eq_null_iff (pruned : v.Pruned w) : w = .null ↔ v = .null := by
  cases pruned <;> simp

theorem exists_items (pruned : (Json.array vs).Pruned w) : ∃ ws, w = .array ws := by
  cases pruned with
  | scalar single => exact absurd single id
  | noItems => exact ⟨_, rfl⟩
  | item => exact ⟨_, rfl⟩

theorem exists_entries (pruned : (Json.object es).Pruned w) : ∃ fs, w = .object fs := by
  cases pruned with
  | scalar single => exact absurd single id
  | noEntries => exact ⟨_, rfl⟩
  | entry => exact ⟨_, rfl⟩
  | null => exact ⟨_, rfl⟩

/-- No key is new. -/
theorem keys_sublist (pruned : (Json.object es).Pruned (.object fs)) :
    (fs.map Prod.fst).Sublist (es.map Prod.fst) := by
  induction es generalizing fs with
  | nil =>
      cases pruned with
      | scalar single => exact absurd single id
      | noEntries => exact .slnil
  | cons e es ih =>
      cases pruned with
      | scalar single => exact absurd single id
      | entry head tail => exact (ih tail).cons_cons _
      | null tail => exact (ih tail).cons _

theorem hasKey {key : String} (pruned : (Json.object es).Pruned (.object fs))
    (there : hasKey key fs = true) : hasKey key es = true := by
  rw [RuleQuery.hasKey, lookup?_isSome] at there ⊢
  exact pruned.keys_sublist.subset there

end Pruned

end Json

namespace Fields

variable {α : Type} {es fs : List (String × Json)}

theorem get?_cons (k : String) (v : Json) (es : List (String × Json)) (key : String) :
    get? ⟨(k, v) :: es⟩ key =
      if k = key then if v = .null then none else some v else get? ⟨es⟩ key := by
  simp only [get?, lookup?]
  by_cases here : k = key
  · cases v <;> simp [here]
  · simp [here]

/-- A key has the value that it had, without some of its nulls, and it has none if it had none. -/
theorem get?_pruned (increasing : Increasing es) (pruned : (Json.object es).Pruned (.object fs))
    (key : String) : Option.Rel Json.Pruned (get? ⟨es⟩ key) (get? ⟨fs⟩ key) := by
  induction es generalizing fs with
  | nil =>
      cases pruned with
      | scalar single => exact absurd single id
      | noEntries => exact .none
  | cons e es ih =>
      obtain ⟨above, later⟩ := List.pairwise_cons.mp increasing
      cases pruned with
      | scalar single => exact absurd single id
      | @entry k v w _ fs head tail =>
          rw [get?_cons, get?_cons]
          split
          · by_cases null : v = .null
            · rw [if_pos null, if_pos (head.eq_null_iff.mpr null)]
              exact .none
            · rw [if_neg null, if_neg (mt head.eq_null_iff.mp null)]
              exact .some head
          · exact ih later tail
      | @null k _ _ tail =>
          rw [get?_cons, if_pos rfl]
          split
          next here =>
            -- The key is gone for good: a later entry has a greater one.
            have gone : lookup? key fs = none := by
              rw [← Option.not_isSome_iff_eq_none, lookup?_isSome]
              intro there
              obtain ⟨e, mem, same⟩ := List.mem_map.mp (tail.keys_sublist.subset there)
              have less := above e mem
              rw [same, ← here] at less
              exact String.lt_irrefl k less
            rw [get?, gone]
            exact .none
          next => exact ih later tail

theorem isSome_get?_pruned (increasing : Increasing es)
    (pruned : (Json.object es).Pruned (.object fs)) (key : String) :
    (get? ⟨fs⟩ key).isSome = (get? ⟨es⟩ key).isSome := by
  have related := get?_pruned increasing pruned key
  generalize get? ⟨es⟩ key = before, get? ⟨fs⟩ key = after at related
  cases related <;> rfl

theorem read_of_allowed {allowed : List String} (known : ∀ e ∈ es, e.1 ∈ allowed) :
    Fields.read allowed (.object es) = .ok ⟨es⟩ := by
  rw [Fields.read]
  split
  next e found =>
    have unknown := List.find?_some found
    simp [known e (List.mem_of_find?_eq_some found)] at unknown
  next => rfl

/-- The keys that are left are allowed as all of them were. -/
theorem read_pruned {allowed : List String} {read : Fields}
    (pruned : (Json.object es).Pruned (.object fs))
    (accepted : Fields.read allowed (.object es) = .ok read) :
    read = ⟨es⟩ ∧ Fields.read allowed (.object fs) = .ok ⟨fs⟩ := by
  obtain ⟨same, known⟩ := of_read accepted
  cases same
  refine ⟨rfl, read_of_allowed fun e mem => ?_⟩
  obtain ⟨old, there, same⟩ :=
    List.mem_map.mp (pruned.keys_sublist.subset (List.mem_map_of_mem mem))
  exact same ▸ known old there

end Fields

namespace Decoded

variable {α β : Type} {decode : Json → Decoded α} {v : Json}

/-- What a decoder reads in an ordered document, it reads when any nulls are gone. -/
def IgnoresNulls (decode : Json → Decoded α) (v : Json) : Prop :=
  v.Ordered → ∀ {w a}, v.Pruned w → decode v = .ok a → decode w = .ok a

theorem ignoresNulls_of_isScalar (single : v.IsScalar) : IgnoresNulls decode v := by
  intro _ w a pruned accepted
  rwa [pruned.eq_of_isScalar single]

theorem ignoresNulls_of_refuse {cause : Mismatch} (refused : decode v = refuse cause) :
    IgnoresNulls decode v := by
  intro _ w a _ accepted
  cases refused.symm.trans accepted

theorem OfScalar.ignoresNulls (scalar : OfScalar decode) (v : Json) : IgnoresNulls decode v := by
  rcases scalar v with ⟨_, refused⟩ | ⟨single, _⟩
  · exact ignoresNulls_of_refuse refused
  · exact ignoresNulls_of_isScalar single

theorem IgnoresNulls.map (ignores : IgnoresNulls decode v) (f : α → β) :
    IgnoresNulls (fun v => (decode v).map f) v := by
  intro ordered w b pruned accepted
  obtain ⟨a, read, made⟩ := of_map_eq_ok accepted
  show (decode w).map f = .ok b
  rw [ignores ordered pruned read, ← made]
  rfl

/-- An array is read item by item. -/
theorem ignoresNulls_array (v : Json)
    (each : ∀ i u, v.step? (.index i) = some u → IgnoresNulls decode u) :
    IgnoresNulls (array decode) v := by
  intro ordered w as pruned accepted
  cases v with
  | array vs =>
      have from_ (start i : Nat) (rest ws : List Json) (as : List α) (at_ : vs.drop i = rest)
          (pruned : (Json.array rest).Pruned (.array ws))
          (accepted : itemsFrom decode start rest = .ok as) :
          itemsFrom decode start ws = .ok as := by
        induction rest generalizing start i ws as with
        | nil =>
            cases pruned with
            | scalar single => exact absurd single id
            | noItems => exact accepted
        | cons u rest ih =>
            cases pruned with
            | scalar single => exact absurd single id
            | item head tail =>
                have found : (Json.array vs).step? (.index i) = some u := by
                  rw [Json.step?, ← List.head?_drop, at_, List.head?_cons]
                have later : vs.drop (i + 1) = rest := by
                  rw [← List.tail_drop, at_, List.tail_cons]
                obtain ⟨a, first, accepted⟩ := of_bind_eq_ok accepted
                obtain ⟨as, others, made⟩ := of_bind_eq_ok accepted
                have read := each i u found (ordered.step? found) head (of_within_eq_ok first)
                rw [itemsFrom, read, within_ok, ok_bind, ih _ _ _ _ later tail others]
                exact made
      obtain ⟨ws, rfl⟩ := pruned.exists_items
      exact from_ 0 0 vs ws as rfl pruned accepted
  | _ => cases accepted

/-- A decoder that is given a part under some key ignores the nulls in that part. -/
def IgnoresNullsIn (v : Json) (β : Type) (key : String) (decode : Json → Decoded β) : Prop :=
  ∀ u, v.step? (.key key) = some u → IgnoresNulls decode u

end Decoded

namespace Fields

variable {α : Type} {es fs : List (String × Json)}

theorem entry_pruned {key : String} {default : Option α} {decode : Json → Decoded α} {a : α}
    (ordered : (Json.object es).Ordered) (pruned : (Json.object es).Pruned (.object fs))
    (part : IgnoresNullsIn (.object es) α key decode)
    (accepted : Fields.entry ⟨es⟩ key default decode = .ok a) :
    Fields.entry ⟨fs⟩ key default decode = .ok a := by
  have related := get?_pruned ordered.entries.1 pruned key
  unfold Fields.entry at accepted ⊢
  cases found : get? ⟨es⟩ key with
  | none =>
      rw [found] at related accepted
      cases left : get? ⟨fs⟩ key with
      | none => exact accepted
      | some w => rw [left] at related; cases related
  | some u =>
      rw [found] at related accepted
      cases left : get? ⟨fs⟩ key with
      | none => rw [left] at related; cases related
      | some w =>
          rw [left] at related
          have there : (Json.object es).step? (.key key) = some u := lookup?_of_get? found
          have read := part u there (ordered.step? there) (Option.rel_some_some.mp related)
            (of_within_eq_ok accepted)
          show within (.key key) (decode w) = .ok a
          rw [read, within_ok]

theorem Reads.pruned {keys : List String} {body : Fields → Decoded α} {a : α}
    (ordered : (Json.object es).Ordered) (pruned : (Json.object es).Pruned (.object fs))
    (reads : Reads (IgnoresNullsIn (.object es)) keys body) (accepted : body ⟨es⟩ = .ok a) :
    body ⟨fs⟩ = .ok a := by
  induction reads with
  | made r => exact accepted
  | @rule β keys r rest next ih =>
      obtain ⟨b, made, accepted⟩ := of_bind_eq_ok accepted
      show (ofMade r >>= fun b => rest b ⟨fs⟩) = .ok a
      rw [made]
      exact ih b accepted
  | @entry β key keys default decode rest part next ih =>
      obtain ⟨b, made, accepted⟩ := of_bind_eq_ok accepted
      show (Fields.entry ⟨fs⟩ key default decode >>= fun b => rest b ⟨fs⟩) = .ok a
      rw [entry_pruned ordered pruned part made]
      exact ih b accepted

/-- The decoder of an object ignores nulls if the decoders of its parts do. -/
theorem ReadsObject.ignoresNulls {allowed : List String} {decode : Json → Decoded α} {v : Json}
    (reads : ReadsObject (IgnoresNullsIn v) allowed decode) : IgnoresNulls decode v := by
  obtain ⟨keys, body, _, entries, decode_eq⟩ := reads
  intro ordered w a pruned accepted
  rw [decode_eq] at accepted ⊢
  obtain ⟨read, known, made⟩ := of_bind_eq_ok accepted
  obtain ⟨rfl, _⟩ := of_read known
  obtain ⟨fs, rfl⟩ := pruned.exists_entries
  rw [(read_pruned pruned known).2]
  exact entries.pruned ordered pruned made

/-- A text that has to be there is there. -/
theorem hasKey_of_string {fs : Fields} {key s : String} (given : fs.string key = .ok s) :
    hasKey key fs.entries = true := by
  rw [string_eq, entry] at given
  split at given
  next found => rw [hasKey, lookup?_of_get? found]; rfl
  next => cases given

end Fields

/-! ## The decoders of the nodes -/

/-- An accepted call names its function. -/
theorem Call.hasKey_of_decode {es : List (String × Json)} {c : Call}
    (accepted : decode (.object es) = .ok c) : hasKey "function" es = true := by
  obtain ⟨fs, read, body⟩ := of_bind_eq_ok accepted
  obtain ⟨function, named, _⟩ := of_bind_eq_ok body
  obtain ⟨same, _⟩ := Fields.of_read read
  cases same
  exact Fields.hasKey_of_string named

/-- An accepted condition has its operator. -/
theorem Condition.hasKey_of_decode {es : List (String × Json)} {c : Condition}
    (accepted : decode (.object es) = .ok c) : hasKey "operator" es = true := by
  obtain ⟨fs, read, body⟩ := of_bind_eq_ok accepted
  obtain ⟨raw, _, body⟩ := of_bind_eq_ok body
  obtain ⟨field, _, body⟩ := of_bind_eq_ok body
  obtain ⟨symbol, named, _⟩ := of_bind_eq_ok body
  obtain ⟨same, _⟩ := Fields.of_read read
  cases same
  exact Fields.hasKey_of_string named

theorem Literal.ignoresNulls (v : Json) : IgnoresNulls decode v := by
  cases v with
  | object es =>
      intro ordered w l pruned accepted
      obtain ⟨fs, rfl⟩ := pruned.exists_entries
      rw [decode, decodeTagged] at accepted ⊢
      obtain ⟨read, known, tagged⟩ := of_bind_eq_ok accepted
      obtain ⟨rfl, left⟩ := Fields.read_pruned pruned known
      have given : (fun tag => (Fields.get? ⟨fs⟩ tag).isSome) =
          fun tag => (Fields.get? ⟨es⟩ tag).isSome := by
        funext tag
        exact Fields.isSome_get?_pruned ordered.entries.1 pruned tag
      rw [left, ok_bind, given]
      split at tagged
      next tag only =>
        obtain ⟨text, named, made⟩ := of_bind_eq_ok tagged
        rw [Fields.string_eq] at named
        have still := Fields.entry_pruned ordered pruned
          (fun u _ => ofScalar_string.ignoresNulls u) named
        show (Fields.string ⟨fs⟩ tag >>= fun text => ofTag tag text) = .ok l
        rw [Fields.string_eq, still]
        exact made
      next => cases tagged
  | array items => exact ignoresNulls_of_refuse rfl
  | _ => exact ignoresNulls_of_isScalar trivial

/-- Where a key decides between two readings of an object, and the reading for which it stands needs
it, the choice does not depend on nulls. -/
theorem Decoded.ignoresNulls_of_switch {α : Type} {decode : Json → Decoded α}
    (yes no : Json → Decoded α) {switch : String} {es : List (String × Json)}
    (chosen : ∀ es, decode (.object es) =
      if hasKey switch es then yes (.object es) else no (.object es))
    (needs : ∀ {fs a}, yes (.object fs) = .ok a → hasKey switch fs = true)
    (yesIgnores : IgnoresNulls yes (.object es)) (noIgnores : IgnoresNulls no (.object es)) :
    IgnoresNulls decode (.object es) := by
  intro ordered w a pruned accepted
  obtain ⟨fs, rfl⟩ := pruned.exists_entries
  rw [chosen] at accepted ⊢
  by_cases there : hasKey switch es = true
  · rw [if_pos there] at accepted
    have read := yesIgnores ordered pruned accepted
    rw [if_pos (needs read), read]
  · rw [if_neg there] at accepted
    rw [if_neg (mt pruned.hasKey there)]
    exact noIgnores ordered pruned accepted

theorem Call.ignoresNulls_of_args {v : Json}
    (args : IgnoresNullsIn v _ "args" (array Argument.decode)) : IgnoresNulls decode v :=
  Fields.ReadsObject.ignoresNulls (readsObject (fun scalar u _ => scalar.ignoresNulls u) args)

/-- An argument is read without nulls, by induction on its nesting. -/
theorem Argument.ignoresNulls (v : Json) : IgnoresNulls decode v := by
  have call : IgnoresNulls Call.decode v :=
    Call.ignoresNulls_of_args fun u found => ignoresNulls_array u fun i x inside =>
      have := Json.sizeOf_lt_of_step? found
      have := Json.sizeOf_lt_of_step? inside
      Argument.ignoresNulls x
  cases v with
  | object es =>
      refine ignoresNulls_of_switch (fun v => (Call.decode v).map Call.toArgument)
        (fun v => (Literal.decode v).map .literal) (fun es => by rw [decode]; rfl)
        (fun read => ?_) (call.map _) ((Literal.ignoresNulls _).map _)
      obtain ⟨c, read, _⟩ := of_map_eq_ok read
      exact Call.hasKey_of_decode read
  | array items =>
      have refused : decode (.array items) = refuse (.expected "a literal" .array) := by
        rw [decode]
        · rfl
        all_goals simp
      exact ignoresNulls_of_refuse refused
  | _ => exact ignoresNulls_of_isScalar trivial
termination_by sizeOf v

theorem Call.ignoresNulls (v : Json) : IgnoresNulls decode v :=
  ignoresNulls_of_args fun u _ => ignoresNulls_array u fun _ x _ => Argument.ignoresNulls x

/-- Where a text or a call may stand. -/
theorem Call.ignoresNulls_of_object {α : Type} {decode : Json → Decoded α} {f : Call → α}
    (object : ∀ es, decode (.object es) = (Call.decode (.object es)).map f)
    (array : ∀ items, ∃ cause, decode (.array items) = refuse cause) (v : Json) :
    IgnoresNulls decode v := by
  cases v with
  | object es =>
      intro ordered w a pruned accepted
      obtain ⟨fs, rfl⟩ := pruned.exists_entries
      rw [object] at accepted ⊢
      exact (Call.ignoresNulls _).map f ordered pruned accepted
  | array items =>
      obtain ⟨cause, refused⟩ := array items
      exact ignoresNulls_of_refuse refused
  | _ => exact ignoresNulls_of_isScalar trivial

theorem Field.ignoresNulls (v : Json) : IgnoresNulls decode v :=
  Call.ignoresNulls_of_object (fun _ => rfl) (fun _ => ⟨_, rfl⟩) v

theorem Selected.ignoresNulls (v : Json) : IgnoresNulls decode v :=
  Call.ignoresNulls_of_object (fun _ => rfl) (fun _ => ⟨_, rfl⟩) v

/-- An item of a list is a literal, and an object with a function is none. -/
theorem Operand.ignoresNulls_decodeItem (v : Json) : IgnoresNulls decodeItem v := by
  cases v with
  | object es =>
      exact ignoresNulls_of_switch (fun _ => refuse (.listElement .object)) Literal.decode
        (fun _ => rfl) nofun (ignoresNulls_of_refuse rfl) (Literal.ignoresNulls _)
  | array items => exact ignoresNulls_of_refuse rfl
  | _ => exact ignoresNulls_of_isScalar trivial

theorem Operand.ignoresNulls (v : Json) : IgnoresNulls decode v := by
  cases v with
  | object es =>
      refine ignoresNulls_of_switch (fun v => (Call.decode v).map .call)
        (fun v => (Literal.decode v).map ofLiteral) (fun _ => rfl) (fun read => ?_)
        ((Call.ignoresNulls _).map _) ((Literal.ignoresNulls _).map _)
      obtain ⟨c, read, _⟩ := of_map_eq_ok read
      exact Call.hasKey_of_decode read
  | array items =>
      intro ordered w a pruned accepted
      obtain ⟨ws, rfl⟩ := pruned.exists_items
      have list : IgnoresNulls (fun v => (array decodeItem v).map Operand.list) (.array items) :=
        (ignoresNulls_array _ fun _ u _ => ignoresNulls_decodeItem u).map Operand.list
      exact list ordered pruned accepted
  | _ => exact ignoresNulls_of_isScalar trivial

theorem Condition.ignoresNulls (v : Json) : IgnoresNulls decode v :=
  Fields.ReadsObject.ignoresNulls (readsObject (fun scalar u _ => scalar.ignoresNulls u)
    (fun u _ => Field.ignoresNulls u) fun u _ => Operand.ignoresNulls u)

theorem Group.ignoresNulls_of_members {v : Json}
    (members : IgnoresNullsIn v _ "conditions" (array Predicate.decode)) : IgnoresNulls decode v :=
  Fields.ReadsObject.ignoresNulls (readsObject (fun scalar u _ => scalar.ignoresNulls u) members)

/-- A predicate is read without nulls, by induction on its nesting. -/
theorem Predicate.ignoresNulls (v : Json) : IgnoresNulls decode v := by
  have group : IgnoresNulls Group.decode v :=
    Group.ignoresNulls_of_members fun u found => ignoresNulls_array u fun i x inside =>
      have := Json.sizeOf_lt_of_step? found
      have := Json.sizeOf_lt_of_step? inside
      Predicate.ignoresNulls x
  cases v with
  | object es =>
      refine ignoresNulls_of_switch (fun v => (Condition.decode v).map .condition)
        (fun v => (Group.decode v).map Group.toPredicate) (fun es => by rw [decode]; rfl)
        (fun read => ?_) ((Condition.ignoresNulls _).map _) (group.map _)
      obtain ⟨c, read, _⟩ := of_map_eq_ok read
      exact Condition.hasKey_of_decode read
  | array items =>
      have refused : decode (.array items) =
          refuse (.expected "a condition or group object" .array) := by
        rw [decode]
        · rfl
        all_goals simp
      exact ignoresNulls_of_refuse refused
  | _ => exact ignoresNulls_of_isScalar trivial
termination_by sizeOf v

theorem WhereClause.ignoresNulls (v : Json) : IgnoresNulls decode v :=
  Fields.ReadsObject.ignoresNulls (readsObject fun u _ => ignoresNulls_array u fun _ x _ =>
    Predicate.ignoresNulls x)

theorem TableRef.ignoresNulls (v : Json) : IgnoresNulls decode v :=
  Fields.ReadsObject.ignoresNulls (readsObject fun scalar u _ => scalar.ignoresNulls u)

theorem Join.ignoresNulls (v : Json) : IgnoresNulls decode v :=
  Fields.ReadsObject.ignoresNulls (readsObject fun scalar u _ => scalar.ignoresNulls u)

theorem SelectField.ignoresNulls (v : Json) : IgnoresNulls decode v :=
  Fields.ReadsObject.ignoresNulls (readsObject (fun scalar u _ => scalar.ignoresNulls u)
    fun u _ => Selected.ignoresNulls u)

theorem Select.ignoresNulls (v : Json) : IgnoresNulls decode v :=
  Fields.ReadsObject.ignoresNulls (readsObject fun u _ => ignoresNulls_array u fun _ x _ =>
    SelectField.ignoresNulls x)

theorem Parameter.ignoresNulls_decodeDefault (kind : ParameterKind) (v : Json) :
    IgnoresNulls (decodeDefault kind) v := by
  intro ordered w l pruned accepted
  obtain ⟨raw, read, made⟩ := of_bind_eq_ok accepted
  rw [decodeDefault, Literal.ignoresNulls v ordered pruned read]
  exact made

theorem Parameter.ignoresNulls (v : Json) : IgnoresNulls decode v :=
  Fields.ReadsObject.ignoresNulls (readsObject (fun scalar u _ => scalar.ignoresNulls u)
    (fun kind u _ => (ignoresNulls_decodeDefault kind u).map some)
    fun u _ => (ignoresNulls_array u fun _ x _ => ofScalar_string.ignoresNulls x).map some)

/-- A declaration is an object, so no entry of an accepted object of declarations is null. -/
theorem Declarations.ignoresNulls (v : Json) : IgnoresNulls decode v := by
  cases v with
  | object es =>
      intro ordered w declared pruned accepted
      obtain ⟨fs, rfl⟩ := pruned.exists_entries
      have from_ (start : Declarations) {es fs : List (String × Json)}
          (each : ∀ e ∈ es, e.2.Ordered) (pruned : (Json.object es).Pruned (.object fs))
          (accepted : decodeEntries start es = .ok declared) :
          decodeEntries start fs = .ok declared := by
        induction es generalizing start fs with
        | nil =>
            cases pruned with
            | scalar single => exact absurd single id
            | noEntries => exact accepted
        | cons e es ih =>
            obtain ⟨first, later⟩ := List.forall_mem_cons.mp each
            obtain ⟨p, made, others⟩ := of_bind_eq_ok accepted
            have read := of_within_eq_ok made
            cases pruned with
            | scalar single => exact absurd single id
            | entry head tail =>
                rw [decodeEntries, Parameter.ignoresNulls _ first head read, within_ok, ok_bind]
                exact ih _ later tail others
            | null tail => cases read
      exact from_ .empty ordered.entries.2 pruned accepted
  | array items => exact ignoresNulls_of_refuse rfl
  | _ => exact ignoresNulls_of_isScalar trivial

theorem Configuration.ignoresNulls (v : Json) : IgnoresNulls decode v :=
  Fields.ReadsObject.ignoresNulls (readsObject (fun u _ => Select.ignoresNulls u)
    (fun u _ => TableRef.ignoresNulls u)
    (fun u _ => ignoresNulls_array u fun _ x _ => Join.ignoresNulls x)
    (fun u _ => WhereClause.ignoresNulls u)
    (fun u _ => ignoresNulls_array u fun _ x _ => ofScalar_string.ignoresNulls x)
    (fun u _ => ignoresNulls_array u fun _ x _ => ofScalar_string.ignoresNulls x)
    (fun u _ => ignoresNulls_array u fun _ x _ => Condition.ignoresNulls x)
    fun u _ => Declarations.ignoresNulls u)

/-- If a document is read as a configuration, then it is read as the same one when any of its null
entries are taken out. -/
theorem Configuration.ofDocument_pruned {v w : Json} {c : Configuration} (ordered : v.Ordered)
    (accepted : ofDocument v = .ok c) (pruned : v.Pruned w) : ofDocument w = .ok c := by
  have decoded : decode v = .ok c := by
    rw [ofDocument] at accepted
    cases outcome : decode v with
    | ok a => exact congrArg Except.ok (Except.ok.inj (outcome ▸ accepted))
    | error failure =>
        rw [outcome] at accepted
        cases accepted
  rw [ofDocument, Configuration.ignoresNulls v ordered pruned decoded]
  rfl

/-- Users of a name who have not left, and a day that has no default. -/
def usersByName : Configuration :=
  (((Configuration.start ⟨[⟨.raw "id", none⟩]⟩ ⟨"users", none⟩).withWhere
    (.condition ⟨.column "left_on", .isNull, .absent⟩)).withWhere
      (.condition ⟨.column "name", .equal, .scalar (.string "Ann")⟩)).withParameter "day"
        (.ofOptional .date none)

/-- A document of these users, given what it says of the value of the first condition, besides the
text of the second one, of the alias of the table, and of the default of the day. -/
def usersDocument (value tag aliasName default : List (String × Json)) : Json :=
  .object [
    ("conditions", .object [("where", .array [
      .object (("field", .string "left_on") :: ("operator", .string "IS NULL") :: value),
      .object [("field", .string "name"), ("operator", .string "="),
        ("value", .object (tag ++ [("string", .string "Ann")]))]])]),
    ("from_table", .object (aliasName ++ [("name", .string "users")])),
    ("parameters", .object [("day", .object (default ++ [("type", .string "date")]))]),
    ("select", .object [("fields", .array [.object [("alias", .null),
      ("expression", .string "id")]])])]

/-- The nulls may be taken out of a condition, a literal, a table and a declaration, while the alias
in the select list stays null. -/
theorem ofDocument_pruned_usersByName :
    let loose := usersDocument [("value", .null)] [("date", .null)] [("alias", .null)]
      [("default", .null)]
    loose.Ordered ∧ Configuration.ofDocument loose = .ok usersByName ∧
      loose.Pruned (usersDocument [] [] [] []) ∧
      Configuration.ofDocument (usersDocument [] [] [] []) = .ok usersByName := by
  intro loose
  have ordered : loose.Ordered := by decide +kernel
  have accepted : Configuration.ofDocument loose = .ok usersByName := rfl
  have text (s : String) : (Json.string s).Pruned (.string s) := .scalar trivial
  have unset : Json.Pruned
      (.object [("field", .string "left_on"), ("operator", .string "IS NULL"), ("value", .null)])
      (.object [("field", .string "left_on"), ("operator", .string "IS NULL")]) :=
    .entry (text _) (.entry (text _) (.null .noEntries))
  have named : Json.Pruned (.object [("date", .null), ("string", .string "Ann")])
      (.object [("string", .string "Ann")]) := .null (.entry (text _) .noEntries)
  have selected : Json.Pruned (.object [("alias", .null), ("expression", .string "id")])
      (.object [("alias", .null), ("expression", .string "id")]) :=
    .entry (.scalar trivial) (.entry (text _) .noEntries)
  have pruned : loose.Pruned (usersDocument [] [] [] []) :=
    .entry
      (.entry (.item unset (.item (.entry (text _) (.entry (text _) (.entry named .noEntries)))
        .noItems)) .noEntries)
      (.entry (.null (.entry (text _) .noEntries))
        (.entry (.entry (.null (.entry (text _) .noEntries)) .noEntries)
          (.entry (.entry (.item selected .noItems) .noEntries) .noEntries)))
  exact ⟨ordered, accepted, pruned, Configuration.ofDocument_pruned ordered accepted pruned⟩

end RuleQuery
