/-
# Maps by name

Facts about finite maps that do not depend on what they hold: which keys have a value, what becomes
of the values when all of them are changed at once or some are left out, that a map is made again
from its entries, because they come in order and each is put at the end, and what the union of two
maps holds.
-/

import RuleQuery.NameMap

namespace RuleQuery

variable {α β : Type}

/-- A key has a value exactly if it is among the keys. -/
theorem lookup?_isSome (name : String) (entries : List (String × α)) :
    (lookup? name entries).isSome = true ↔ name ∈ entries.map Prod.fst := by
  induction entries with
  | nil => simp [lookup?]
  | cons e rest ih =>
      obtain ⟨k, a⟩ := e
      rw [lookup?, List.map_cons, List.mem_cons, ← ih]
      by_cases same : k = name
      · simp [same]
      · rw [if_neg same]
        simp [Ne.symm same]

theorem lookup?_map (g : α → β) (name : String) (entries : List (String × α)) :
    lookup? name (entries.map fun e => (e.1, g e.2)) = (lookup? name entries).map g := by
  induction entries with
  | nil => rfl
  | cons e rest ih =>
      obtain ⟨k, a⟩ := e
      rw [List.map_cons, lookup?, lookup?, ih]
      split <;> rfl

/-- A value that is found stands among the entries. -/
theorem mem_of_lookup? {name : String} {a : α} {entries : List (String × α)}
    (found : lookup? name entries = some a) : (name, a) ∈ entries := by
  induction entries with
  | nil => cases found
  | cons e rest ih =>
      obtain ⟨k, b⟩ := e
      rw [lookup?] at found
      by_cases same : k = name
      · rw [if_pos same] at found
        rw [same, Option.some.inj found]
        exact List.mem_cons_self
      · rw [if_neg same] at found
        exact List.mem_cons_of_mem _ (ih found)

/-- An entry is found, since no earlier one has its key. -/
theorem lookup?_of_mem {name : String} {a : α} {entries : List (String × α)}
    (increasing : Increasing entries) (mem : (name, a) ∈ entries) :
    lookup? name entries = some a := by
  induction entries with
  | nil => cases mem
  | cons e rest ih =>
      obtain ⟨k, b⟩ := e
      obtain ⟨below, tail⟩ := List.pairwise_cons.mp increasing
      rw [lookup?]
      rcases List.mem_cons.mp mem with same | later
      · cases same
        rw [if_pos rfl]
      · have other : k ≠ name := by
          rintro rfl
          exact String.lt_irrefl k (below _ later)
        rw [if_neg other]
        exact ih tail later

/-- Behind an entry there is no other one under its key. -/
theorem Increasing.lookup?_tail {e : String × α} {entries : List (String × α)}
    (increasing : Increasing (e :: entries)) : lookup? e.1 entries = none := by
  cases found : lookup? e.1 entries with
  | none => rfl
  | some a =>
      have less := (List.pairwise_cons.mp increasing).1 _ (mem_of_lookup? found)
      exact absurd less (String.lt_irrefl e.1)

/-- An entry after an insertion is the one that was put there, or an old one. -/
theorem eq_or_mem_of_mem_insertEntry {key : String} {a : α} {entries : List (String × α)}
    {e : String × α} (mem : e ∈ insertEntry key a entries) : e = (key, a) ∨ e ∈ entries := by
  induction entries with
  | nil => exact .inl (List.mem_singleton.mp mem)
  | cons first rest ih =>
      obtain ⟨k, b⟩ := first
      rw [RuleQuery.insertEntry] at mem
      split at mem
      · exact List.mem_cons.mp mem
      · split at mem
        · exact (List.mem_cons.mp mem).imp_right (List.mem_cons_of_mem _)
        · rcases List.mem_cons.mp mem with rfl | later
          · exact .inr List.mem_cons_self
          · exact (ih later).imp_right (List.mem_cons_of_mem _)

/-- An entry whose key is greater than all others is put at the end. -/
theorem insertEntry_of_lt {key : String} {a : α} {entries : List (String × α)}
    (greater : ∀ e ∈ entries, e.1 < key) :
    RuleQuery.insertEntry key a entries = entries ++ [(key, a)] := by
  induction entries with
  | nil => rfl
  | cons e rest ih =>
      obtain ⟨k, b⟩ := e
      have less : k < key := greater (k, b) (by simp)
      have notBefore : ¬ key < k := fun before => String.lt_irrefl k (String.lt_trans less before)
      have other : key ≠ k := by
        rintro rfl
        exact String.lt_irrefl _ less
      rw [RuleQuery.insertEntry, if_neg notBefore, if_neg other,
        ih fun e mem => greater e (List.mem_cons_of_mem _ mem)]
      rfl

namespace NameMap

/-- Which names a map has is seen from its keys. -/
theorem contains_of_keys {m : NameMap α} {n : NameMap β} (keys : m.keys = n.keys)
    (name : String) : m.contains name = n.contains name := by
  rw [Bool.eq_iff_iff, contains, contains, find?, find?, lookup?_isSome, lookup?_isSome]
  exact Iff.of_eq (congrArg (name ∈ ·) keys)

theorem mem_entries_iff {m : NameMap α} {e : String × α} :
    e ∈ m.entries ↔ m.find? e.1 = some e.2 :=
  ⟨lookup?_of_mem m.increasing, mem_of_lookup?⟩

/-- A map is given by the values under its keys. -/
theorem ext_find? {m n : NameMap α} (same : ∀ name, m.find? name = n.find? name) : m = n := by
  have nodup (m : NameMap α) : m.entries.Nodup :=
    m.increasing.imp fun {x y} less (same : x = y) => String.lt_irrefl y.1 (same ▸ less)
  have perm : m.entries.Perm n.entries := by
    refine (List.perm_ext_iff_of_nodup (nodup m) (nodup n)).mpr fun e => ?_
    rw [mem_entries_iff, mem_entries_iff, same]
  refine ext (perm.eq_of_pairwise (fun e f _ _ less greater => ?_) m.increasing n.increasing)
  exact absurd (String.lt_trans less greater) (String.lt_irrefl e.1)

/-- Every value replaced, under the same keys. -/
def mapValues (g : α → β) (m : NameMap α) : NameMap β where
  entries := m.entries.map fun e => (e.1, g e.2)
  increasing := by
    rw [Increasing, List.pairwise_map]
    exact m.increasing

theorem keys_mapValues (g : α → β) (m : NameMap α) : (m.mapValues g).keys = m.keys := by
  rw [keys, keys, mapValues, List.map_map]
  rfl

theorem find?_mapValues (g : α → β) (m : NameMap α) (name : String) :
    (m.mapValues g).find? name = (m.find? name).map g :=
  lookup?_map g name m.entries

/-- What the values give, under the same keys, where they give anything. -/
def filterMapValues (g : α → Option β) (m : NameMap α) : NameMap β where
  entries := m.entries.filterMap fun e => (g e.2).map fun b => (e.1, b)
  increasing := by
    rw [Increasing, List.pairwise_filterMap]
    refine m.increasing.imp fun less x given y given' => ?_
    obtain ⟨_, _, rfl⟩ := Option.map_eq_some_iff.mp given
    obtain ⟨_, _, rfl⟩ := Option.map_eq_some_iff.mp given'
    exact less

theorem find?_filterMapValues (g : α → Option β) (m : NameMap α) (name : String) :
    (m.filterMapValues g).find? name = (m.find? name).bind g := by
  have walk (es : List (String × α)) (increasing : Increasing es) :
      lookup? name (es.filterMap fun e => (g e.2).map fun b => (e.1, b)) =
        (lookup? name es).bind g := by
    induction es with
    | nil => rfl
    | cons e es ih =>
        obtain ⟨k, a⟩ := e
        have later := ih (List.pairwise_cons.mp increasing).2
        by_cases same : k = name
        · have last : lookup? name es = none := same ▸ increasing.lookup?_tail
          cases given : g a with
          | none => simp [given, later, last, lookup?, same]
          | some b => simp [given, lookup?, same]
        · cases given : g a with
          | none => simp [given, later, lookup?, same]
          | some b => simp [given, later, lookup?, same]
  exact walk m.entries m.increasing

/-- Entries that come in order, after those that are there, are put at the end. -/
theorem entries_foldl_insert {es : List (String × α)} (increasing : Increasing es)
    (start : NameMap α) (above : ∀ x ∈ start.entries, ∀ e ∈ es, x.1 < e.1) :
    (es.foldl (fun m e => m.insert e.1 e.2) start).entries = start.entries ++ es := by
  induction es generalizing start with
  | nil => rw [List.foldl_nil, List.append_nil]
  | cons e es ih =>
      obtain ⟨below, tail⟩ := List.pairwise_cons.mp increasing
      have inserted : (start.insert e.1 e.2).entries = start.entries ++ [e] :=
        insertEntry_of_lt fun x mem => above x mem e List.mem_cons_self
      rw [List.foldl_cons, ih tail, inserted, List.append_assoc, List.singleton_append]
      intro x mem later there
      rw [inserted] at mem
      rcases List.mem_append.mp mem with old | new
      · exact above x old later (List.mem_cons_of_mem _ there)
      · rw [List.mem_singleton.mp new]
        exact below later there

/-- A map is made again from its entries. -/
theorem ofList_entries (m : NameMap α) : ofList m.entries = m := by
  apply ext
  rw [ofList, entries_foldl_insert m.increasing empty (by simp [empty])]
  rfl

/-- The map that has one value under each of some keys. -/
theorem find?_ofList_const (a : α) (names : List String) (name : String) :
    (ofList (names.map fun n => (n, a))).find? name = if name ∈ names then some a else none := by
  have later (start : NameMap α) :
      ((names.map fun n => (n, a)).foldl (fun m e => m.insert e.1 e.2) start).find? name =
        if name ∈ names then some a else start.find? name := by
    induction names generalizing start with
    | nil => simp
    | cons n names ih =>
        rw [List.map_cons, List.foldl_cons, ih, find?_insert]
        by_cases same : n = name
        · simp [same]
        · simp [same, Ne.symm same]
  exact later empty

/-- The entries of two maps. Where both have a value, that of the first one counts. -/
def union (m n : NameMap α) : NameMap α :=
  m.entries.foldl (fun all e => all.insert e.1 e.2) n

theorem find?_union (m n : NameMap α) (name : String) :
    (m.union n).find? name = (m.find? name).or (n.find? name) := by
  have later (es : List (String × α)) (increasing : Increasing es) (start : NameMap α) :
      (es.foldl (fun all e => all.insert e.1 e.2) start).find? name =
        (lookup? name es).or (start.find? name) := by
    induction es generalizing start with
    | nil => rfl
    | cons e es ih =>
        obtain ⟨k, a⟩ := e
        have tail := (List.pairwise_cons.mp increasing).2
        rw [List.foldl_cons, ih tail, find?_insert, lookup?]
        by_cases same : k = name
        · have last : lookup? name es = none := same ▸ increasing.lookup?_tail
          rw [last, if_pos same, if_pos same]
          rfl
        · rw [if_neg same, if_neg same]
  exact later m.entries m.increasing n

end NameMap

/-- A set is made again from its names. -/
theorem NameSet.ofNames_keys (s : NameSet) : ofNames s.keys = s := by
  have entries : s.keys.map (fun name => (name, ())) = s.entries := by
    rw [NameMap.keys, List.map_map]
    exact List.map_id _
  rw [ofNames, entries, NameMap.ofList_entries]

/-- The names in a set made of names. -/
theorem NameSet.mem_keys_ofNames {names : List String} {name : String} :
    name ∈ (ofNames names).keys ↔ name ∈ names := by
  rw [NameMap.keys, ← lookup?_isSome, ← NameMap.find?, ofNames, NameMap.find?_ofList_const]
  simp

end RuleQuery
