/-
# Finite maps and sets keyed by name

A map is the list of its entries in increasing order of their keys, by code point. Objects of a
document, parameter declarations and parameter bindings are all kept this way, so that an iteration
always goes in the order of the names and two maps with the same entries are equal. The insertion
works on plain lists of entries and is shared; `NameMap` adds the proof that the keys increase.
-/

namespace RuleQuery

/-- Put a value under a key, replacing an earlier one, and keep the entries in order. -/
def insertEntry {α : Type} (key : String) (a : α) : List (String × α) → List (String × α)
  | [] => [(key, a)]
  | (k, b) :: rest =>
    if key < k then (key, a) :: (k, b) :: rest
    else if key = k then (key, a) :: rest
    else (k, b) :: insertEntry key a rest

/-- The value of the first entry with the given key. -/
def lookup? {α : Type} (key : String) : List (String × α) → Option α
  | [] => none
  | (k, a) :: rest => if k = key then some a else lookup? key rest

/-- The keys increase from each entry to the next. -/
def Increasing {α : Type} (entries : List (String × α)) : Prop :=
  entries.Pairwise fun x y => x.1 < y.1

theorem fst_mem_of_mem_insertEntry {α : Type} {key : String} {a : α}
    {entries : List (String × α)} {x : String × α} (h : x ∈ insertEntry key a entries) :
    x.1 = key ∨ x ∈ entries := by
  induction entries with
  | nil => simp_all [insertEntry]
  | cons e rest ih =>
    obtain ⟨k, b⟩ := e
    simp only [insertEntry] at h
    split at h
    · rcases List.mem_cons.mp h with rfl | h
      · exact .inl rfl
      · exact .inr h
    · split at h
      · rcases List.mem_cons.mp h with rfl | h
        · exact .inl rfl
        · exact .inr (List.mem_cons_of_mem _ h)
      · rcases List.mem_cons.mp h with rfl | h
        · exact .inr List.mem_cons_self
        · exact (ih h).imp_right (List.mem_cons_of_mem _)

theorem Increasing.insertEntry {α : Type} {key : String} {a : α} {entries : List (String × α)}
    (h : Increasing entries) : Increasing (insertEntry key a entries) := by
  induction entries with
  | nil => exact List.pairwise_singleton _ _
  | cons e rest ih =>
    obtain ⟨k, b⟩ := e
    obtain ⟨head, tail⟩ := List.pairwise_cons.mp h
    simp only [RuleQuery.insertEntry]
    split
    next less =>
      refine List.pairwise_cons.mpr ⟨fun x mem => ?_, h⟩
      rcases List.mem_cons.mp mem with rfl | mem
      · exact less
      · exact String.lt_trans less (head x mem)
    next notLess =>
      split
      next same =>
        subst same
        exact List.pairwise_cons.mpr ⟨head, tail⟩
      next other =>
        refine List.pairwise_cons.mpr ⟨fun x mem => ?_, ih tail⟩
        rcases fst_mem_of_mem_insertEntry mem with same | mem
        · rw [same]
          rcases String.le_total k key with le | le
          · exact String.not_le.mp fun ge => other (String.le_antisymm ge le)
          · exact absurd (String.not_le.mp fun ge => other (String.le_antisymm le ge)) notLess
        · exact head x mem

theorem lookup?_insertEntry {α : Type} (key name : String) (a : α)
    (entries : List (String × α)) :
    lookup? name (insertEntry key a entries) =
      if key = name then some a else lookup? name entries := by
  induction entries with
  | nil => simp [insertEntry, lookup?]
  | cons e rest ih =>
    obtain ⟨k, b⟩ := e
    simp only [insertEntry]
    split
    · simp [lookup?]
    · split
      next same => subst same; by_cases h : key = name <;> simp [lookup?, h]
      next other =>
        simp only [lookup?, ih]
        by_cases h : k = name
        · have : key ≠ name := fun e => other (e.trans h.symm)
          simp [h, this]
        · simp [h]

/-- A finite map from names, in the order of the names. -/
structure NameMap (α : Type) where
  entries : List (String × α)
  increasing : Increasing entries

namespace NameMap

variable {α : Type}

theorem ext {m n : NameMap α} (h : m.entries = n.entries) : m = n := by
  cases m; cases n; simp_all

instance [DecidableEq α] : DecidableEq (NameMap α) := fun m n =>
  if h : m.entries = n.entries then .isTrue (ext h) else .isFalse fun e => h (e ▸ rfl)

/-- The map without entries. -/
def empty : NameMap α := ⟨[], List.Pairwise.nil⟩

instance : Inhabited (NameMap α) := ⟨empty⟩

def isEmpty (m : NameMap α) : Bool := m.entries.isEmpty

/-- The keys, in increasing order. -/
def keys (m : NameMap α) : List String := m.entries.map Prod.fst

def size (m : NameMap α) : Nat := m.entries.length

def find? (m : NameMap α) (key : String) : Option α := lookup? key m.entries

def contains (m : NameMap α) (key : String) : Bool := (m.find? key).isSome

/-- Put a value under a key, replacing an earlier one. -/
def insert (m : NameMap α) (key : String) (a : α) : NameMap α :=
  ⟨insertEntry key a m.entries, m.increasing.insertEntry⟩

/-- The map with the given entries; of several values under one key the last counts. -/
def ofList (entries : List (String × α)) : NameMap α :=
  entries.foldl (fun m e => m.insert e.1 e.2) empty

@[simp] theorem find?_empty (name : String) : (empty : NameMap α).find? name = none := rfl

@[simp] theorem find?_insert (m : NameMap α) (key name : String) (a : α) :
    (m.insert key a).find? name = if key = name then some a else m.find? name :=
  lookup?_insertEntry key name a m.entries

end NameMap

/-- A finite set of names. -/
abbrev NameSet := NameMap Unit

namespace NameSet

/-- The set of the listed names. -/
def ofNames (names : List String) : NameSet :=
  NameMap.ofList (names.map fun name => (name, ()))

end NameSet

end RuleQuery
