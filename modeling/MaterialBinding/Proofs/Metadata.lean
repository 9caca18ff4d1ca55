import MaterialBinding.Metadata

/-!
# Metadata as a map

The keys of metadata stand in the order in which they were first set.  As long as none stands
twice, and no operation makes one stand twice, metadata is a map from keys to values: `get?_set`
and `get?_erase` say what the two changes do to it.
-/

namespace MaterialBinding

/-- Appending what is not there yet makes nothing stand twice. -/
theorem nodup_append_new {α : Type} [DecidableEq α] {l : List α} (hnodup : l.Nodup) (a : α) :
    (if a ∈ l then l else l ++ [a]).Nodup := by
  by_cases hmem : a ∈ l
  · rwa [if_pos hmem]
  · rw [if_neg hmem, List.nodup_append]
    exact ⟨hnodup, by simp, by grind⟩

section Entries

variable {α β : Type} [BEq α] [LawfulBEq α] {entries : List (α × β)} {key : α} {value : β}

/-- What is looked up is an entry. -/
theorem mem_of_lookup (hlookup : entries.lookup key = some value) : (key, value) ∈ entries := by
  obtain ⟨before, after, rfl, _⟩ := List.lookup_eq_some_iff.mp hlookup
  exact List.mem_append_right _ (List.mem_cons_self ..)

/-- If no key stands twice, every entry is found under its key. -/
theorem lookup_eq_some_iff_mem (hnodup : (entries.map Prod.fst).Nodup) :
    entries.lookup key = some value ↔ (key, value) ∈ entries := by
  constructor
  · exact mem_of_lookup
  · intro hmem
    obtain ⟨before, after, rfl⟩ := List.append_of_mem hmem
    rw [List.map_append, List.map_cons] at hnodup
    have hapart : key ∉ before.map Prod.fst := fun hkey =>
      (List.nodup_append.mp hnodup).2.2 key hkey key (List.mem_cons_self ..) rfl
    have hother : ∀ entry ∈ before, (key != entry.1) = true := fun entry hbefore =>
      bne_iff_ne.mpr fun heq => hapart (heq ▸ List.mem_map_of_mem hbefore)
    exact List.lookup_eq_some_iff.mpr ⟨before, after, rfl, hother⟩

end Entries

namespace Metadata

/-- The keys, oldest first. -/
def keys (data : Metadata) : List String := data.entries.map Prod.fst

variable {data : Metadata} {key : String}

/-- A new key comes in as the last; one that is there stays in its place. -/
theorem map_fst_setEntry (value : String) (entries : List (String × String)) :
    (setEntry key value entries).map Prod.fst =
      if key ∈ entries.map Prod.fst then entries.map Prod.fst
      else entries.map Prod.fst ++ [key] := by
  induction entries with
  | nil => rfl
  | cons entry rest ih =>
      obtain ⟨k, v⟩ := entry
      by_cases hk : k = key
      · simp [setEntry, hk]
      · have hne : key ≠ k := fun h => hk h.symm
        simp only [setEntry, if_neg hk, List.map_cons, ih, List.mem_cons, hne, false_or]
        split <;> rfl

/-- Setting a key appends it, unless it is there. -/
theorem keys_set (value : String) :
    (data.set key value).keys = if key ∈ data.keys then data.keys else data.keys ++ [key] :=
  map_fst_setEntry value data.entries

/-- Setting a key brings in no other. -/
theorem mem_keys_set {other : String} (value : String) :
    other ∈ (data.set key value).keys ↔ other = key ∨ other ∈ data.keys := by
  rw [keys_set]
  by_cases hmem : key ∈ data.keys
  · rw [if_pos hmem, or_iff_right_of_imp]
    rintro rfl
    exact hmem
  · rw [if_neg hmem, List.mem_append, List.mem_singleton, or_comm]

/-- Taking a key out leaves the others in order. -/
theorem keys_erase : (data.erase key).keys = data.keys.erase key := by
  obtain ⟨entries⟩ := data
  simp only [keys, erase]
  induction entries with
  | nil => rfl
  | cons entry rest ih =>
      obtain ⟨k, v⟩ := entry
      by_cases hk : k = key
      · simp [eraseEntry, hk]
      · simp [eraseEntry, hk, ih]

/-- Setting a key keeps the keys different. -/
theorem keys_nodup_set (hnodup : data.keys.Nodup) (value : String) :
    (data.set key value).keys.Nodup := by
  rw [keys_set]
  exact nodup_append_new hnodup key

/-- Taking a key out keeps the keys different. -/
theorem keys_nodup_erase (hnodup : data.keys.Nodup) : (data.erase key).keys.Nodup := by
  rw [keys_erase]
  exact hnodup.erase key

/-- Setting several keys keeps the keys different. -/
theorem keys_nodup_setAll (pairs : List (String × String)) :
    ∀ {data : Metadata}, data.keys.Nodup → (data.setAll pairs).keys.Nodup := by
  induction pairs with
  | nil => exact id
  | cons pair pairs ih =>
      intro data hnodup
      have hset : (data.set pair.1 pair.2).keys.Nodup := keys_nodup_set hnodup pair.2
      exact ih hset

/-- A key has a value exactly if it is there. -/
theorem get?_eq_none_iff : data.get? key = none ↔ key ∉ data.keys := by
  simp [get?, keys, List.lookup_eq_none_iff]
  grind

/-- The first entry says what its own key has, and the others say the rest. -/
theorem lookup_entry (other k v : String) (rest : List (String × String)) :
    List.lookup other ((k, v) :: rest) = if other = k then some v else List.lookup other rest := by
  by_cases h : other = k
  · simp [h]
  · have hne : (other == k) = false := beq_eq_false_iff_ne.mpr h
    simp [List.lookup_cons, hne, h]

/-- **Set, then get.** -/
theorem get?_set (value other : String) :
    (data.set key value).get? other = if other = key then some value else data.get? other := by
  obtain ⟨entries⟩ := data
  simp only [get?, set]
  induction entries with
  | nil => rw [setEntry, lookup_entry]
  | cons entry rest ih =>
      obtain ⟨k, v⟩ := entry
      by_cases hk : k = key
      · subst hk
        simp only [setEntry, if_true, lookup_entry]
        by_cases h : other = k
        · rw [if_pos h, if_pos h]
        · rw [if_neg h, if_neg h, if_neg h]
      · simp only [setEntry, if_neg hk, lookup_entry, ih]
        by_cases h : other = k
        · subst h
          simp [hk]
        · rw [if_neg h, if_neg h]

/-- **Erase, then get.**  The key must not stand twice, or its second entry would come to light. -/
theorem get?_erase (hnodup : data.keys.Nodup) (other : String) :
    (data.erase key).get? other = if other = key then none else data.get? other := by
  by_cases hother : other = key
  · subst hother
    rw [if_pos rfl, get?_eq_none_iff, keys_erase]
    exact hnodup.not_mem_erase
  · rw [if_neg hother]
    obtain ⟨entries⟩ := data
    simp only [get?, erase]
    clear hnodup
    induction entries with
    | nil => rfl
    | cons entry rest ih =>
        obtain ⟨k, v⟩ := entry
        by_cases hk : k = key
        · subst hk
          simp only [eraseEntry, if_true, lookup_entry, if_neg hother]
        · simp only [eraseEntry, if_neg hk, lookup_entry, ih]

end Metadata

end MaterialBinding
