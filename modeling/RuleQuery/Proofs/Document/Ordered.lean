/-
# Documents with their entries in order

An object is the list of its entries in increasing order of their keys. A document in which this
holds of every object is ordered. The reader gives ordered documents only: it puts each value into
the container on top of its stack, and an insertion keeps the entries in order, so whatever lies on
the stack is ordered after each token, and so is the document in the end.

Ordered documents are the ones in which a walk reaches everything, since the keys of an object are
different from each other.
-/

import RuleQuery.Json.Reader
import RuleQuery.Proofs.NameMap

namespace RuleQuery.Json

/-- A document that has no parts. -/
def IsScalar : Json → Prop
  | .array _ | .object _ => False
  | _ => True

/-- The entries of every object in the document are in increasing order of their keys. -/
inductive Ordered : Json → Prop
  | scalar {v : Json} (single : v.IsScalar) : Ordered v
  | array {items : List Json} (each : ∀ v ∈ items, Ordered v) : Ordered (.array items)
  | object {entries : List (String × Json)} (increasing : Increasing entries)
      (each : ∀ e ∈ entries, Ordered e.2) : Ordered (.object entries)

namespace Ordered

theorem items {vs : List Json} (ordered : Ordered (.array vs)) : ∀ v ∈ vs, v.Ordered := by
  cases ordered with
  | scalar single => exact absurd single id
  | array each => exact each

theorem entries {es : List (String × Json)} (ordered : Ordered (.object es)) :
    Increasing es ∧ ∀ e ∈ es, e.2.Ordered := by
  cases ordered with
  | scalar single => exact absurd single id
  | object increasing each => exact ⟨increasing, each⟩

instance (es : List (String × Json)) : Decidable (Increasing es) :=
  inferInstanceAs (Decidable (es.Pairwise fun x y => x.1 < y.1))

mutual

/-- Whether a document is in order is decided along the tree. -/
def decidable : (v : Json) → Decidable v.Ordered
  | .array vs =>
    match decidableItems vs with
    | .isTrue each => .isTrue (.array each)
    | .isFalse not => .isFalse fun ordered => not ordered.items
  | .object es =>
    if increasing : Increasing es then
      match decidableEntries es with
      | .isTrue each => .isTrue (.object increasing each)
      | .isFalse not => .isFalse fun ordered => not ordered.entries.2
    else .isFalse fun ordered => increasing ordered.entries.1
  | .null | .bool _ | .int _ | .float _ | .string _ => .isTrue (.scalar trivial)

def decidableItems : (vs : List Json) → Decidable (∀ v ∈ vs, v.Ordered)
  | [] => .isTrue nofun
  | v :: vs =>
    match decidable v, decidableItems vs with
    | .isTrue head, .isTrue tail => .isTrue (List.forall_mem_cons.mpr ⟨head, tail⟩)
    | .isFalse not, _ => .isFalse fun each => not (List.forall_mem_cons.mp each).1
    | _, .isFalse not => .isFalse fun each => not (List.forall_mem_cons.mp each).2

def decidableEntries : (es : List (String × Json)) → Decidable (∀ e ∈ es, e.2.Ordered)
  | [] => .isTrue nofun
  | (_, v) :: es =>
    match decidable v, decidableEntries es with
    | .isTrue head, .isTrue tail => .isTrue (List.forall_mem_cons.mpr ⟨head, tail⟩)
    | .isFalse not, _ => .isFalse fun each => not (List.forall_mem_cons.mp each).1
    | _, .isFalse not => .isFalse fun each => not (List.forall_mem_cons.mp each).2

end

instance : DecidablePred Ordered := decidable

/-- A part of an ordered document is ordered. -/
theorem step? {v w : Json} {step : Step} (ordered : v.Ordered) (found : v.step? step = some w) :
    w.Ordered := by
  cases v <;> cases step <;> simp only [Json.step?, reduceCtorEq] at found
  case array.index vs i => exact ordered.items w (List.mem_of_getElem? found)
  case object.key es name => exact ordered.entries.2 (name, w) (mem_of_lookup? found)

end Ordered

/-- What an open container holds so far is in order. -/
def Frame.Ordered : Frame → Prop
  | .array items => ∀ v ∈ items, v.Ordered
  | .object entries | .member entries _ => Increasing entries ∧ ∀ e ∈ entries, e.2.Ordered

namespace Machine

/-- Whatever has been read is in order: the open containers, and the document if it is complete. -/
def Ordered (m : Machine) : Prop :=
  (∀ frame ∈ m.stack, frame.Ordered) ∧ ∀ v, m.stage = .done v → v.Ordered

theorem start_ordered : start.Ordered := ⟨nofun, nofun⟩

/-- A container that becomes the top of the stack. -/
theorem Ordered.push {stack : List Frame} {frame : Frame} {stage : Stage}
    (below : ∀ f ∈ stack, f.Ordered) (top : frame.Ordered) (unfinished : ∀ v, stage ≠ .done v) :
    Ordered ⟨frame :: stack, stage⟩ := by
  refine ⟨?_, fun v done => absurd done (unfinished v)⟩
  intro f mem
  rcases List.mem_cons.mp mem with rfl | mem
  · exact top
  · exact below f mem

/-- A complete value is put into the container on top, or is the document. -/
theorem ordered_of_place {v : Json} {stack : List Frame} {m : Machine} (value : v.Ordered)
    (below : ∀ frame ∈ stack, frame.Ordered) (placed : place v stack = some m) : m.Ordered := by
  cases stack with
  | nil =>
      cases placed
      refine ⟨nofun, fun w done => ?_⟩
      cases done
      exact value
  | cons frame stack =>
      obtain ⟨top, rest⟩ := List.forall_mem_cons.mp below
      cases frame with
      | array items =>
          cases placed
          refine Ordered.push rest (fun w mem => ?_) nofun
          rcases List.mem_append.mp mem with old | new
          · exact top w old
          · rw [List.mem_singleton.mp new]
            exact value
      | object entries => cases placed
      | member entries key =>
          cases placed
          refine Ordered.push rest ⟨top.1.insertEntry, fun e mem => ?_⟩ nofun
          rcases eq_or_mem_of_mem_insertEntry mem with rfl | old
          · exact value
          · exact top.2 e old

theorem ordered_of_readValue {limit : Nat} {stack : List Frame} {token : Token} {m : Machine}
    (below : ∀ frame ∈ stack, frame.Ordered) (read : readValue limit stack token = some m) :
    m.Ordered := by
  cases token <;> simp only [readValue, reduceCtorEq, Option.ite_none_right_eq_some,
    Option.some.injEq] at read
  case openArray =>
    rw [← read.2]
    exact Ordered.push below nofun nofun
  case openObject =>
    rw [← read.2]
    exact Ordered.push below ⟨.nil, nofun⟩ nofun
  case null | bool | int | float | string =>
    refine ordered_of_place (.scalar ?_) below read
    trivial

theorem ordered_of_readKey {stack : List Frame} {token : Token} {m : Machine}
    (below : ∀ frame ∈ stack, frame.Ordered) (read : readKey stack token = some m) :
    m.Ordered := by
  unfold readKey at read
  split at read
  next key =>
    split at read
    next entries stack =>
      cases read
      obtain ⟨top, rest⟩ := List.forall_mem_cons.mp below
      exact Ordered.push rest top nofun
    next => cases read
  next => cases read

theorem ordered_of_readSeparator {stack : List Frame} {token : Token} {m : Machine}
    (below : ∀ frame ∈ stack, frame.Ordered) (read : readSeparator stack token = some m) :
    m.Ordered := by
  unfold readSeparator at read
  split at read
  · cases read
    exact ⟨below, nofun⟩
  · obtain ⟨top, rest⟩ := List.forall_mem_cons.mp below
    exact ordered_of_place (.array top) rest read
  · cases read
    exact ⟨below, nofun⟩
  · obtain ⟨top, rest⟩ := List.forall_mem_cons.mp below
    exact ordered_of_place (.object top.1 top.2) rest read
  · cases read

/-- One token leaves everything in order. -/
theorem Ordered.step {limit : Nat} {m n : Machine} {token : Token} (ordered : m.Ordered)
    (read : m.step limit token = some n) : n.Ordered := by
  unfold Machine.step at read
  split at read
  · exact ordered_of_readValue ordered.1 read
  · split at read
    · exact ordered_of_readSeparator ordered.1 read
    · exact ordered_of_readValue ordered.1 read
  · split at read
    · exact ordered_of_readSeparator ordered.1 read
    · exact ordered_of_readKey ordered.1 read
  · exact ordered_of_readKey ordered.1 read
  · split at read
    · cases read
      exact ⟨ordered.1, nofun⟩
    · cases read
  · exact ordered_of_readSeparator ordered.1 read
  · cases read

/-- Any number of tokens does. -/
theorem Ordered.run {limit : Nat} {tokens : List Token} {m n : Machine} (ordered : m.Ordered)
    (read : m.run limit tokens = some n) : n.Ordered := by
  induction tokens generalizing m with
  | nil =>
      cases read
      exact ordered
  | cons token tokens ih =>
      obtain ⟨next, first, rest⟩ := Option.bind_eq_some_iff.mp read
      exact ih (ordered.step first) rest

end Machine

/-- A document that was read from a text is ordered. -/
theorem ordered_of_read? {s : String} {v : Json} (read : read? s = some v) : v.Ordered := by
  obtain ⟨tokens, _, run⟩ := Option.bind_eq_some_iff.mp read
  obtain ⟨m, reached, result⟩ := Option.bind_eq_some_iff.mp run
  have ordered : m.Ordered := Machine.start_ordered.run reached
  unfold Machine.result? at result
  split at result
  next w done =>
    cases result
    exact ordered.2 v done
  next => cases result

end RuleQuery.Json
