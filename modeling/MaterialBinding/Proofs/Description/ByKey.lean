import MaterialBinding.Description.Basic
import MaterialBinding.Proofs.Metadata

/-!
# Sorting entries by key

Entries with different keys come out of `sortByKey` as the same entries in another order, with the
keys ascending.  Entries that are ascending already stay as they are.
-/

namespace MaterialBinding

/-- The keys ascend, so none stands twice. -/
def Ascending (pairs : List (String × String)) : Prop := pairs.Pairwise fun p q => p.1 < q.1

variable {key value : String} {pairs : List (String × String)}

/-- One of two different texts comes first. -/
theorem lt_of_not_lt_of_ne {a b : String} (hnot : ¬ a < b) (hne : a ≠ b) : b < a := by
  rcases Decidable.em (b < a) with hlt | hlt
  · exact hlt
  · exact absurd (String.le_antisymm (String.not_lt.mp hlt) (String.not_lt.mp hnot)) hne

/-- Ascending keys are all different. -/
theorem Ascending.nodup_keys (h : Ascending pairs) : (pairs.map Prod.fst).Nodup := by
  rw [List.Nodup, List.pairwise_map]
  refine h.imp fun hlt heq => ?_
  rw [heq] at hlt
  exact String.lt_irrefl _ hlt

/-- After putting an entry in there is this one besides those that were there. -/
theorem mem_insertByKey {pair : String × String} (hmem : pair ∈ insertByKey key value pairs) :
    pair = (key, value) ∨ pair ∈ pairs := by
  induction pairs with
  | nil => exact Or.inl (by simpa [insertByKey] using hmem)
  | cons other rest ih =>
      rw [insertByKey] at hmem
      split at hmem
      · exact List.mem_cons.mp hmem
      · split at hmem
        · rcases List.mem_cons.mp hmem with heq | hmem
          · exact Or.inl heq
          · exact Or.inr (List.mem_cons_of_mem _ hmem)
        · rcases List.mem_cons.mp hmem with rfl | hmem
          · exact Or.inr (List.mem_cons_self ..)
          · rcases ih hmem with heq | hmem
            · exact Or.inl heq
            · exact Or.inr (List.mem_cons_of_mem _ hmem)

/-- Putting an entry in keeps the keys ascending. -/
theorem Ascending.insertByKey (h : Ascending pairs) :
    Ascending (insertByKey key value pairs) := by
  induction pairs with
  | nil => exact List.pairwise_singleton _ _
  | cons other rest ih =>
      obtain ⟨hfirst, hrest⟩ := List.pairwise_cons.mp h
      rw [MaterialBinding.insertByKey]
      by_cases hlt : key < other.1
      · rw [if_pos hlt]
        refine List.pairwise_cons.mpr ⟨fun pair hmem => ?_, h⟩
        rcases List.mem_cons.mp hmem with rfl | hmem
        · exact hlt
        · exact String.lt_trans hlt (hfirst pair hmem)
      · rw [if_neg hlt]
        by_cases heq : key = other.1
        · rw [if_pos heq]
          exact List.pairwise_cons.mpr ⟨fun pair hmem => heq ▸ hfirst pair hmem, hrest⟩
        · rw [if_neg heq]
          refine List.pairwise_cons.mpr ⟨fun pair hmem => ?_, ih hrest⟩
          rcases mem_insertByKey hmem with rfl | hmem
          · exact lt_of_not_lt_of_ne hlt heq
          · exact hfirst pair hmem

/-- An entry with a new key only comes in. -/
theorem perm_insertByKey (hkey : key ∉ pairs.map Prod.fst) :
    (insertByKey key value pairs).Perm ((key, value) :: pairs) := by
  induction pairs with
  | nil => exact List.Perm.refl _
  | cons other rest ih =>
      rw [List.map_cons, List.mem_cons, not_or] at hkey
      rw [insertByKey]
      split
      · exact List.Perm.refl _
      · rw [if_neg hkey.1]
        exact ((ih hkey.2).cons other).trans (List.Perm.swap _ _ _)

/-- An entry with a key after all others comes in last. -/
theorem insertByKey_last (h : ∀ pair ∈ pairs, pair.1 < key) :
    insertByKey key value pairs = pairs ++ [(key, value)] := by
  induction pairs with
  | nil => rfl
  | cons other rest ih =>
      obtain ⟨hfirst, hrest⟩ := List.forall_mem_cons.mp h
      have hne : key ≠ other.1 := by
        intro heq
        subst heq
        exact String.lt_irrefl _ hfirst
      rw [insertByKey, if_neg (String.lt_asymm hfirst), if_neg hne, ih hrest, List.cons_append]

/-- Putting in several entries keeps the keys ascending. -/
theorem ascending_foldl {sorted : List (String × String)} (h : Ascending sorted) :
    Ascending (pairs.foldl (fun sorted pair => insertByKey pair.1 pair.2 sorted) sorted) := by
  induction pairs generalizing sorted with
  | nil => exact h
  | cons pair rest ih => exact ih h.insertByKey

/-- **Sorting by key** makes the keys ascend. -/
theorem ascending_sortByKey (pairs : List (String × String)) : Ascending (sortByKey pairs) :=
  ascending_foldl List.Pairwise.nil

/-- Entries with different keys all come in. -/
theorem perm_foldl {sorted : List (String × String)}
    (hnodup : ((pairs ++ sorted).map Prod.fst).Nodup) :
    (pairs.foldl (fun sorted pair => insertByKey pair.1 pair.2 sorted) sorted).Perm
      (pairs ++ sorted) := by
  induction pairs generalizing sorted with
  | nil => exact List.Perm.refl _
  | cons pair rest ih =>
      have hkey : pair.1 ∉ sorted.map Prod.fst := by
        rw [List.cons_append, List.map_cons, List.nodup_cons, List.map_append] at hnodup
        exact fun hmem => hnodup.1 (List.mem_append_right _ hmem)
      have hmove : (rest ++ insertByKey pair.1 pair.2 sorted).Perm (pair :: rest ++ sorted) :=
        ((perm_insertByKey hkey).append_left rest).trans List.perm_middle
      exact (ih ((hmove.map Prod.fst).nodup_iff.mpr hnodup)).trans hmove

/-- **Sorting only changes the order** of entries with different keys. -/
theorem perm_sortByKey (hnodup : (pairs.map Prod.fst).Nodup) : (sortByKey pairs).Perm pairs := by
  have hperm : (sortByKey pairs).Perm (pairs ++ []) := perm_foldl (by rwa [List.append_nil])
  rwa [List.append_nil] at hperm

/-- Entries that ascend behind those that are there come in behind them, in their order. -/
theorem foldl_of_ascending {sorted : List (String × String)} (h : Ascending (sorted ++ pairs)) :
    pairs.foldl (fun sorted pair => insertByKey pair.1 pair.2 sorted) sorted = sorted ++ pairs := by
  induction pairs generalizing sorted with
  | nil => rw [List.append_nil, List.foldl_nil]
  | cons pair rest ih =>
      have hlast : insertByKey pair.1 pair.2 sorted = sorted ++ [pair] :=
        insertByKey_last fun other hmem =>
          (List.pairwise_append.mp h).2.2 other hmem pair (List.mem_cons_self ..)
      have hassoc : sorted ++ pair :: rest = (sorted ++ [pair]) ++ rest := by simp
      rw [List.foldl_cons, hlast, hassoc]
      exact ih (hassoc ▸ h)

/-- **Ascending entries stay as they are.** -/
theorem sortByKey_of_ascending (h : Ascending pairs) : sortByKey pairs = pairs := by
  have hfold : sortByKey pairs = [] ++ pairs := foldl_of_ascending h
  exact hfold

/-- The order of entries with different keys does not matter for finding one. -/
theorem lookup_eq_of_perm {others : List (String × String)} (hperm : pairs.Perm others)
    (hnodup : (pairs.map Prod.fst).Nodup) : pairs.lookup key = others.lookup key := by
  induction hperm with
  | nil => rfl
  | cons pair _ ih =>
      obtain ⟨k, v⟩ := pair
      rw [Metadata.lookup_entry, Metadata.lookup_entry, ih (List.nodup_cons.mp hnodup).2]
  | swap first second rest =>
      obtain ⟨k, v⟩ := first
      obtain ⟨l, w⟩ := second
      have hne : l ≠ k := by
        intro heq
        subst heq
        exact (List.nodup_cons.mp hnodup).1 (List.mem_cons_self ..)
      simp only [Metadata.lookup_entry]
      by_cases hk : key = k
      · subst hk
        rw [if_neg hne.symm, if_pos rfl, if_pos rfl]
      · rw [if_neg hk, if_neg hk]
  | trans hfirst _ ihfirst ihsecond =>
      rw [ihfirst hnodup, ihsecond ((hfirst.map Prod.fst).nodup_iff.mp hnodup)]

end MaterialBinding
