/-
# A written document is read back

The tokens of a document lead the machine from any stack to the stack on which the document has been
put in its place, as long as there is room for the containers in it. That is shown along the
document: an array or an object becomes the top of the stack, its parts are put into it one after
another, and when it is closed it is put in its place like any other value. Entries come in
increasing order of their keys, so each is put at the end.

With the tokens of the text known, a document whose containers are nested no deeper than the limit
is read back from its text as it was.
-/

import RuleQuery.Proofs.Document.Ordered
import RuleQuery.Proofs.Json.Cutting

namespace RuleQuery.Json

/-! ## How deep a document is nested -/

mutual

/-- The number of arrays and objects that are nested in each other in a document. -/
def depth : Json → Nat
  | .array vs => itemDepth vs + 1
  | .object es => entryDepth es + 1
  | _ => 0

def itemDepth : List Json → Nat
  | [] => 0
  | v :: vs => max v.depth (itemDepth vs)

def entryDepth : List (String × Json) → Nat
  | [] => 0
  | (_, v) :: es => max v.depth (entryDepth es)

end

theorem Regular.ordered {v : Json} (regular : v.Regular) : v.Ordered := by
  induction regular with
  | null | bool | int | string => exact .scalar trivial
  | array _ ih => exact .array ih
  | object increasing _ ih => exact .object increasing ih

namespace Machine

variable {limit : Nat}

/-- The first token of a document opens or is a value. It closes nothing. -/
theorem exists_cons_tokens (v : Json) :
    ∃ t ts, v.tokens = t :: ts ∧ t ≠ .closeArray := by
  cases v <;> exact ⟨_, _, rfl, nofun⟩

/-- The first item of an array is read like a later one. -/
theorem run_valueOrClose (v : Json) (stack : List Frame) (ts : List Token) :
    run limit ⟨stack, .valueOrClose⟩ (v.tokens ++ ts) =
      run limit ⟨stack, .value⟩ (v.tokens ++ ts) := by
  obtain ⟨t, us, tokens, other⟩ := exists_cons_tokens v
  rw [tokens, List.cons_append, run, run, step, step, if_neg other]

theorem run_itemTokens_valueOrClose (v : Json) (vs : List Json) (stack : List Frame)
    (ts : List Token) :
    run limit ⟨stack, .valueOrClose⟩ (itemTokens (v :: vs) ++ ts) =
      run limit ⟨stack, .value⟩ (itemTokens (v :: vs) ++ ts) := by
  cases vs with
  | nil => exact run_valueOrClose v stack ts
  | cons w vs =>
      rw [itemTokens, List.append_assoc]
      · exact run_valueOrClose v stack _
      · simp

/-- So is the key of the first entry of an object. -/
theorem run_entryTokens_keyOrClose (e : String × Json) (es : List (String × Json))
    (stack : List Frame) (ts : List Token) :
    run limit ⟨stack, .keyOrClose⟩ (entryTokens (e :: es) ++ ts) =
      run limit ⟨stack, .key⟩ (entryTokens (e :: es) ++ ts) := by
  cases es <;> rfl

theorem lt_of_increasing {key : String} {v : Json} {done es : List (String × Json)}
    (increasing : Increasing (done ++ (key, v) :: es)) : ∀ e ∈ done, e.1 < key := by
  intro e mem
  have across := (List.pairwise_append.mp increasing).2.2
  exact across e mem (key, v) List.mem_cons_self

/-- A value whose key is greater than the others is put at the end of an open object. -/
theorem run_entry {key : String} {v : Json} {done : List (String × Json)} {stack : List Frame}
    {ts : List Token} (greater : ∀ e ∈ done, e.1 < key)
    (value : run limit ⟨.member done key :: stack, .value⟩ (v.tokens ++ ts) =
      (place v (.member done key :: stack)).bind fun m => m.run limit ts) :
    run limit ⟨.object done :: stack, .keyOrClose⟩ (.string key :: .colon :: (v.tokens ++ ts)) =
      run limit ⟨.object (done ++ [(key, v)]) :: stack, .separator⟩ ts :=
  calc run limit ⟨.object done :: stack, .keyOrClose⟩ (.string key :: .colon :: (v.tokens ++ ts))
      = run limit ⟨.member done key :: stack, .value⟩ (v.tokens ++ ts) := rfl
    _ = run limit ⟨.object (done ++ [(key, v)]) :: stack, .separator⟩ ts := by
      rw [value, place, insertEntry_of_lt greater, Option.bind_some]

/-- A container that has room for its deepest part has room for each. -/
theorem room_inside {d others : Nat} {stack : List Frame} (frame : Frame)
    (room : stack.length + max d others < limit) : (frame :: stack).length + d ≤ limit := by
  rw [List.length_cons]
  omega

mutual

/-- The tokens of a document put it in its place. -/
theorem run_tokens (ts : List Token) : (v : Json) → (stack : List Frame) → v.Ordered →
    stack.length + v.depth ≤ limit →
    run limit ⟨stack, .value⟩ (v.tokens ++ ts) = (place v stack).bind fun m => m.run limit ts
  | .null, _, _, _ => rfl
  | .bool _, _, _, _ => rfl
  | .int _, _, _, _ => rfl
  | .float _, _, _, _ => rfl
  | .string _, _, _, _ => rfl
  | .array vs, stack, ordered, room => by
      rw [depth] at room
      have free : stack.length < limit := by omega
      have items := run_itemTokens ts vs [] stack ordered.items (by omega)
      rw [List.nil_append] at items
      simp only [tokens, List.cons_append, List.append_assoc, List.nil_append, run, step, readValue,
        if_pos free, Option.bind_some]
      exact items
  | .object es, stack, ordered, room => by
      rw [depth] at room
      have free : stack.length < limit := by omega
      have entries := run_entryTokens ts es [] stack ordered.entries.1 ordered.entries.2 (by omega)
      rw [List.nil_append] at entries
      simp only [tokens, List.cons_append, List.append_assoc, List.nil_append, run, step, readValue,
        if_pos free, Option.bind_some]
      exact entries

/-- The tokens of items put them at the end of an open array, which is then closed. -/
theorem run_itemTokens (ts : List Token) : (vs : List Json) → (done : List Json) →
    (stack : List Frame) → (∀ v ∈ vs, v.Ordered) → stack.length + itemDepth vs < limit →
    run limit ⟨.array done :: stack, .valueOrClose⟩ (itemTokens vs ++ .closeArray :: ts) =
      (place (.array (done ++ vs)) stack).bind fun m => m.run limit ts
  | [], done, _, _, _ => by
      rw [List.append_nil]
      rfl
  | [v], done, stack, each, room => by
      rw [itemDepth] at room
      have inside := room_inside (.array done) room
      rw [run_itemTokens_valueOrClose, itemTokens, run_tokens _ v _ (each v (by simp)) inside]
      rfl
  | v :: w :: vs, done, stack, each, room => by
      rw [itemDepth] at room
      obtain ⟨first, others⟩ := List.forall_mem_cons.mp each
      have inside := room_inside (.array done) room
      have later := run_itemTokens ts (w :: vs) (done ++ [v]) stack others (by omega)
      rw [run_itemTokens_valueOrClose, List.append_assoc] at later
      rw [run_itemTokens_valueOrClose, itemTokens, List.append_assoc, run_tokens _ v _ first inside]
      · exact later
      · simp

theorem run_entryTokens (ts : List Token) : (es : List (String × Json)) →
    (done : List (String × Json)) → (stack : List Frame) → Increasing (done ++ es) →
    (∀ e ∈ es, e.2.Ordered) → stack.length + entryDepth es < limit →
    run limit ⟨.object done :: stack, .keyOrClose⟩ (entryTokens es ++ .closeObject :: ts) =
      (place (.object (done ++ es)) stack).bind fun m => m.run limit ts
  | [], done, _, _, _, _ => by
      rw [List.append_nil]
      rfl
  | [(key, v)], done, stack, increasing, each, room => by
      rw [entryDepth] at room
      have greater := lt_of_increasing increasing
      have inside := room_inside (.member done key) room
      exact run_entry greater (run_tokens _ v _ (each (key, v) (by simp)) inside)
  | (key, v) :: e :: es, done, stack, increasing, each, room => by
      rw [entryDepth] at room
      obtain ⟨first, others⟩ := List.forall_mem_cons.mp each
      have greater := lt_of_increasing increasing
      have inside := room_inside (.member done key) room
      have value := run_entry greater
        (run_tokens (.comma :: (entryTokens (e :: es) ++ .closeObject :: ts)) v _ first inside)
      -- The first entry is at the end of those that are done, and greater keys are still to come.
      rw [List.append_cons] at increasing
      have later := run_entryTokens ts (e :: es) (done ++ [(key, v)]) stack increasing others
        (by omega)
      rw [run_entryTokens_keyOrClose, ← List.append_cons] at later
      rw [entryTokens, ← later]
      · simp only [List.cons_append, List.append_assoc]
        exact value
      · simp

end

end Machine

/--
A document whose numbers are integers and whose containers are nested no deeper than the limit is
read back from its text.
-/
theorem readWithin?_pretty {limit : Nat} {v : Json} (regular : v.Regular)
    (shallow : v.depth ≤ limit) : readWithin? limit v.pretty = some v := by
  have tokens : Token.read? v.pretty.toList = some v.tokens := by
    rw [pretty, String.toList_ofList, read?_prettyText regular]
  have run : Machine.start.run limit v.tokens = some ⟨[], .done v⟩ := by
    have reached := Machine.run_tokens [] v [] regular.ordered (by simpa using shallow)
    rw [List.append_nil] at reached
    exact reached
  rw [readWithin?, tokens, Option.bind_eq_bind, Option.bind_some, run]
  rfl

end RuleQuery.Json
