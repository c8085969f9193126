/-
Module: Paradigm.Assoc
Layer: Data
Purpose: Finite maps from names to values that remember the order in which the names came.
  Writing to a name that is already there keeps its place and replaces its value, so the order
  of the names is the order of their first appearance.
Imports: none
Main exports: Assoc, Assoc.get?, Assoc.insert, Assoc.map, Assoc.ofList, Assoc.keys_insert,
  Assoc.get?_insert, Assoc.mem_of_get?, Assoc.get?_eq_none_iff, Assoc.get?_of_contains,
  lookup_reverse_eq_some_iff, Assoc.get?_ofList
-/

namespace Paradigm

/-- In a reversed list the last entry for a name is found. -/
theorem lookup_reverse_eq_some_iff {α : Type} {entries : List (String × α)} {key : String}
    {value : α} : entries.reverse.lookup key = some value ↔
      ∃ before after, entries = before ++ (key, value) :: after ∧
        ∀ entry ∈ after, entry.1 ≠ key := by
  rw [List.lookup_eq_some_iff]
  constructor
  · rintro ⟨after, before, hreverse, hafter⟩
    refine ⟨before.reverse, after.reverse, ?_, ?_⟩
    · rw [← List.reverse_reverse entries, hreverse]
      simp
    · intro entry hentry
      have hother := bne_iff_ne.mp (hafter entry (List.mem_reverse.mp hentry))
      exact hother.symm
  · rintro ⟨before, after, rfl, hafter⟩
    refine ⟨after.reverse, before.reverse, by simp, ?_⟩
    intro entry hentry
    have hother := hafter entry (List.mem_reverse.mp hentry)
    exact bne_iff_ne.mpr hother.symm

/-- A finite map from names, in the order of insertion. No name occurs twice. -/
structure Assoc (α : Type) where
  entries : List (String × α)
  nodup : (entries.map Prod.fst).Nodup
deriving DecidableEq

namespace Assoc

variable {α : Type}

/-- The map without names. -/
def empty : Assoc α := ⟨[], List.nodup_nil⟩

instance : Inhabited (Assoc α) := ⟨empty⟩
/-- The names, in the order of their first insertion. -/
def keys (m : Assoc α) : List String := m.entries.map Prod.fst

/-- The values, in the order of their names. -/
def values (m : Assoc α) : List α := m.entries.map Prod.snd

/-- The value of a name. -/
def get? (m : Assoc α) (key : String) : Option α := m.entries.lookup key

/-- Whether the map has the name. -/
def contains (m : Assoc α) (key : String) : Bool := m.keys.contains key

/-- Whether the map has no name at all. -/
def isEmpty (m : Assoc α) : Bool := m.entries.isEmpty

theorem eq_empty_of_isEmpty {m : Assoc α} (h : m.isEmpty = true) : m = empty := by
  obtain ⟨entries, _⟩ := m
  obtain rfl := List.isEmpty_iff.mp h
  rfl

theorem nodup_keys (m : Assoc α) : m.keys.Nodup := m.nodup

/-- Replaces the value of one name in place. -/
def overwrite (key : String) (value : α) (entries : List (String × α)) : List (String × α) :=
  entries.map fun entry => if entry.1 = key then (key, value) else entry

theorem map_fst_overwrite (key : String) (value : α) (entries : List (String × α)) :
    (overwrite key value entries).map Prod.fst = entries.map Prod.fst := by
  induction entries with
  | nil => rfl
  | cons entry rest ih =>
      by_cases h : entry.1 = key <;> simp_all [overwrite]

/-- Gives a name a value: a new name goes last, a known one keeps its place. -/
def insert (m : Assoc α) (key : String) (value : α) : Assoc α :=
  if h : key ∈ m.keys then
    ⟨overwrite key value m.entries, by rw [map_fst_overwrite]; exact m.nodup⟩
  else
    ⟨m.entries ++ [(key, value)], by
      rw [List.map_append, List.nodup_append]
      refine ⟨m.nodup, by simp, ?_⟩
      intro a ha b hb hab
      simp at hb
      exact h (hb ▸ hab ▸ ha)⟩

/-- Inserts pairs from the left: the first of equal names fixes the place, the last the value. -/
def ofList (pairs : List (String × α)) : Assoc α :=
  pairs.foldl (fun m pair => m.insert pair.1 pair.2) empty

/-- The names after an insertion. -/
theorem keys_insert (m : Assoc α) (key : String) (value : α) :
    (m.insert key value).keys = if key ∈ m.keys then m.keys else m.keys ++ [key] := by
  unfold insert
  split
  · simp [keys, map_fst_overwrite]
  · simp [keys]

@[simp] theorem get?_empty (key : String) : (empty : Assoc α).get? key = none := rfl

theorem lookup_overwrite_self (key : String) (value : α) (entries : List (String × α))
    (h : key ∈ entries.map Prod.fst) :
    (overwrite key value entries).lookup key = some value := by
  induction entries with
  | nil => simp at h
  | cons entry rest ih =>
      obtain ⟨name, old⟩ := entry
      by_cases hk : name = key
      · simp [overwrite, hk]
      · have hne : (key == name) = false := by simpa using fun e => hk e.symm
        have hrest : key ∈ rest.map Prod.fst := by
          simp only [List.map_cons, List.mem_cons] at h
          exact h.resolve_left fun e => hk e.symm
        simpa [overwrite, hk, List.lookup_cons, hne] using ih hrest

theorem lookup_overwrite_of_ne {key other : String} (value : α) (entries : List (String × α))
    (h : other ≠ key) : (overwrite key value entries).lookup other = entries.lookup other := by
  induction entries with
  | nil => rfl
  | cons entry rest ih =>
      obtain ⟨name, old⟩ := entry
      by_cases hk : name = key
      · subst hk
        have hne : (other == name) = false := by simpa using h
        simpa [overwrite, List.lookup_cons, hne] using ih
      · by_cases ho : other = name
        · subst ho; simp [overwrite, hk]
        · have hne : (other == name) = false := by simpa using ho
          simpa [overwrite, hk, List.lookup_cons, hne] using ih

/-- Looking up after an insertion finds the new value under its name and the old ones elsewhere. -/
theorem get?_insert (m : Assoc α) (key other : String) (value : α) :
    (m.insert key value).get? other = if other = key then some value else m.get? other := by
  unfold insert get?
  split
  · rename_i h
    by_cases ho : other = key
    · subst ho; simpa using lookup_overwrite_self other value m.entries h
    · simpa [ho] using lookup_overwrite_of_ne value m.entries ho
  · rename_i h
    by_cases ho : other = key
    · subst ho
      have hnone : m.entries.lookup other = none := by
        rw [List.lookup_eq_none_iff]
        intro entry hentry
        have hne : other ≠ entry.1 := fun e => h (e ▸ List.mem_map_of_mem hentry)
        simpa using hne
      simp [List.lookup_append, hnone]
    · have hne : (other == key) = false := by simpa using ho
      simp [List.lookup_append, ho, List.lookup_cons, hne]

/-- A new name comes behind the others. -/
theorem entries_insert_of_not_mem {m : Assoc α} {key : String} (h : key ∉ m.keys) (value : α) :
    (m.insert key value).entries = m.entries ++ [(key, value)] := by
  rw [insert, dif_neg h]

/-- The value of an entry after an insertion is the new one or was there before. -/
theorem mem_values_insert {m : Assoc α} {key : String} {value found : α}
    (h : found ∈ (m.insert key value).values) : found = value ∨ found ∈ m.values := by
  obtain ⟨entry, hentry, rfl⟩ := List.mem_map.mp h
  by_cases hkey : key ∈ m.keys
  · rw [insert, dif_pos hkey] at hentry
    obtain ⟨old, hold, rfl⟩ := List.mem_map.mp hentry
    split
    · exact .inl rfl
    · exact .inr (List.mem_map_of_mem hold)
  · rw [entries_insert_of_not_mem hkey, List.mem_append, List.mem_singleton] at hentry
    rcases hentry with hentry | rfl
    · exact .inr (List.mem_map_of_mem hentry)
    · exact .inl rfl

/-- The map with each value changed. -/
def map {β : Type} (m : Assoc α) (change : α → β) : Assoc β where
  entries := m.entries.map fun entry => (entry.1, change entry.2)
  nodup := by
    rw [List.map_map]
    exact m.nodup

theorem get?_map {β : Type} (m : Assoc α) (change : α → β) (key : String) :
    (m.map change).get? key = (m.get? key).map change := by
  obtain ⟨entries, _⟩ := m
  show (entries.map fun entry => (entry.1, change entry.2)).lookup key
    = (entries.lookup key).map change
  induction entries with
  | nil => rfl
  | cons entry rest ih =>
      rw [List.map_cons, List.lookup_cons, List.lookup_cons]
      cases key == entry.1 with
      | true => rfl
      | false => exact ih (List.nodup_cons.mp ‹_›).2

theorem mem_of_get? {m : Assoc α} {key : String} {value : α}
    (h : m.get? key = some value) : (key, value) ∈ m.entries := by
  unfold get? at h
  rw [List.lookup_eq_some_iff] at h
  obtain ⟨before, after, hentries, _⟩ := h
  rw [hentries]
  simp

/-- A name has no value exactly where it does not occur. -/
theorem get?_eq_none_iff {m : Assoc α} {key : String} : m.get? key = none ↔ key ∉ m.keys := by
  rw [get?, List.lookup_eq_none_iff, keys, List.mem_map]
  constructor
  · rintro h ⟨entry, hentry, rfl⟩
    exact bne_iff_ne.mp (h entry hentry) rfl
  · intro h entry hentry
    rw [bne_iff_ne]
    rintro rfl
    exact h ⟨entry, hentry, rfl⟩

theorem get?_of_contains {m : Assoc α} {key : String}
    (h : m.contains key = true) : ∃ value, m.get? key = some value := by
  unfold contains keys at h
  rw [List.contains_iff_mem, List.mem_map] at h
  obtain ⟨⟨name, value⟩, hentry, rfl⟩ := h
  unfold get?
  cases hlookup : m.entries.lookup name with
  | some found => exact ⟨found, rfl⟩
  | none =>
      rw [List.lookup_eq_none_iff] at hlookup
      have := hlookup _ hentry
      simp at this

/-- Of pairs with one name the last counts. -/
theorem get?_ofList (pairs : List (String × α)) (key : String) :
    (ofList pairs).get? key = pairs.reverse.lookup key := by
  have hfold : ∀ (pairs : List (String × α)) (m : Assoc α),
      (pairs.foldl (fun m pair => m.insert pair.1 pair.2) m).get? key
        = (pairs.reverse.lookup key).or (m.get? key) := by
    intro pairs
    induction pairs with
    | nil => exact fun m => rfl
    | cons pair rest ih =>
        intro m
        have hone : [pair].lookup key = if key = pair.1 then some pair.2 else none := by
          rw [List.lookup_cons]
          by_cases hkey : key = pair.1
          · simp [hkey]
          · simp [hkey, beq_eq_false_iff_ne.mpr hkey]
        rw [List.foldl_cons, ih, get?_insert, List.reverse_cons, List.lookup_append, hone,
          Option.or_assoc]
        split <;> rfl
  rw [ofList, hfold, get?_empty, Option.or_none]

/-- Inserting keeps what is written first in first place. -/
example : ((empty.insert "a" 1).insert "b" 2).insert "a" 3 = ofList [("a", 3), ("b", 2)] := by
  decide

end Assoc

end Paradigm
