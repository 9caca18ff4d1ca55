import MaterialBinding.Proofs.Files.PathParts
import MaterialBinding.Proofs.Metadata
import Mathlib.Data.List.Nodup

/-!
# How the entries of a cache fit together

Each operation of a cache is described by what it does to the stages and the remembered files:
which entries it adds (`Cache.mem_sources_insert`), which it takes out (`Cache.mem_stages_erase`),
and what opening a file can do (`Cache.openFile_cases`).

`Cache.WellKept` says how the entries fit together: no id and no file stands twice, ids were given
out, and a remembered file leads to a stage that was read from it.  Every operation keeps it.  In a
well-kept cache whoever adopts a stage is given one of the same file (`WellKept.get?_adopt_self`).
-/

namespace MaterialBinding

/-- Reading gives the canonical path and the text of what is found at a path. -/
theorem Files.read_eq_ok_iff {files : Files} {file canonical text : String} :
    files.read file = .ok (canonical, text) ↔ files file = .found canonical (some text) := by
  rw [Files.read]
  cases files file with
  | missing => simp
  | outOfReach canonical => simp
  | found canonical content => cases content <;> simp

namespace SharedStage

/-- The key of the file that a stage was read from. -/
def key? (shared : SharedStage) : Option (List String) :=
  shared.stage.source.map fileKey

/-- The stage was read from the file with this path: its source path is equal to it, and is the
same text if both are canonical, as all paths are by which a file tree says where a file is
(`FileTree.isCanonical_canonicalOf`). -/
def ReadFrom (shared : SharedStage) (path : String) : Prop :=
  ∃ source, shared.stage.source = some source ∧ pathParts source = pathParts path ∧
    (IsCanonical source → IsCanonical path → source = path)

variable {shared : SharedStage} {path other : String}

/-- Stages with equal source paths have equal keys. -/
theorem map_pathParts_eq_iff :
    shared.stage.source.map pathParts = some (pathParts path) ↔
      shared.key? = some (fileKey path) := by
  rw [key?, Option.map_eq_some_iff, Option.map_eq_some_iff]
  exact exists_congr fun source => and_congr_right fun _ => fileKey_eq_iff.symm

/-- A stage is found under the keys of those paths from which it was read. -/
theorem readFrom_iff_key? : shared.ReadFrom path ↔ shared.key? = some (fileKey path) := by
  rw [key?, Option.map_eq_some_iff]
  constructor
  · rintro ⟨source, hsource, hparts, _⟩
    exact ⟨source, hsource, fileKey_eq_iff.mpr hparts⟩
  · rintro ⟨source, hsource, hkey⟩
    have hparts : pathParts source = pathParts path := fileKey_eq_iff.mp hkey
    exact ⟨source, hsource, hparts, fun hcanonical hpath => hcanonical.eq_of_pathParts hpath hparts⟩

/-- A stage was read from one file only. -/
theorem ReadFrom.pathParts_eq (hpath : shared.ReadFrom path) (hother : shared.ReadFrom other) :
    pathParts path = pathParts other := by
  rw [readFrom_iff_key?] at hpath hother
  exact fileKey_eq_iff.mp (Option.some.inj (hpath.symm.trans hother))

end SharedStage

namespace Cache

variable {cache : Cache} {shared : SharedStage} {id other : Nat} {key : List String}
  {files : Files} {file : String} {mark : Nat}

/-! ## One operation -/

/-- A new stage takes one id. -/
@[simp]
theorem nextId_insert : (cache.insert shared).2.nextId = cache.nextId + 1 := rfl

/-- A new stage is kept under the next id. -/
@[simp]
theorem stages_insert :
    (cache.insert shared).2.stages = (cache.nextId, shared) :: cache.stages := rfl

/-- The file of a new stage leads to the new id, and other files lead where they did. -/
theorem mem_sources_insert {source : List String × Nat} :
    source ∈ (cache.insert shared).2.sources ↔
      (shared.key? = some source.1 ∧ source.2 = cache.nextId) ∨
        (shared.key? ≠ some source.1 ∧ source ∈ cache.sources) := by
  obtain ⟨key, id⟩ := source
  rw [insert, SharedStage.key?]
  cases shared.stage.source with
  | none => simp
  | some file =>
      simp only [remember, Option.map_some, Option.some.injEq, List.mem_cons, List.mem_filter,
        Prod.mk.injEq, ne_eq, decide_not, Bool.not_eq_true', decide_eq_false_iff_not]
      constructor
      · rintro (⟨rfl, rfl⟩ | ⟨hmem, hne⟩)
        · exact Or.inl ⟨rfl, rfl⟩
        · exact Or.inr ⟨fun heq => hne heq.symm, hmem⟩
      · rintro (⟨rfl, rfl⟩ | ⟨hne, hmem⟩)
        · exact Or.inl ⟨rfl, rfl⟩
        · exact Or.inr ⟨hmem, fun heq => hne heq.symm⟩

/-- The new stage is under the id that it takes; the other ids stay as they were. -/
theorem get?_insert :
    (cache.insert shared).2.get? id = if id = cache.nextId then some shared else cache.get? id := by
  rw [get?, stages_insert, List.lookup_cons]
  by_cases h : id = cache.nextId
  · rw [beq_iff_eq.mpr h, if_pos h]
  · rw [beq_eq_false_iff_ne.mpr h, if_neg h, get?]

/-- Erasing takes out the stage under the id. -/
theorem mem_stages_erase {entry : Nat × SharedStage} :
    entry ∈ (cache.erase id).2.stages ↔ entry ∈ cache.stages ∧ entry.1 ≠ id := by
  rw [erase]
  cases hget : cache.get? id with
  | none =>
      have hother : ∀ entry ∈ cache.stages, (id != entry.1) = true :=
        List.lookup_eq_none_iff.mp hget
      constructor
      · intro hmem
        exact ⟨hmem, (bne_iff_ne.mp (hother entry hmem)).symm⟩
      · intro hboth
        exact hboth.1
  | some shared => simp only [List.mem_filter, ne_eq, decide_eq_true_eq]

/-- Taking a stage out brings none in. -/
theorem stages_erase_sublist : (cache.erase id).2.stages.Sublist cache.stages := by
  rw [erase]
  split
  · exact List.Sublist.refl _
  · exact List.filter_sublist

/-- Taking a stage out makes no file lead to another one. -/
theorem sources_erase_sublist : (cache.erase id).2.sources.Sublist cache.sources := by
  rw [erase]
  split
  · exact List.Sublist.refl _
  · exact List.filter_sublist

/-- Taking a stage out gives no id back. -/
theorem nextId_erase : (cache.erase id).2.nextId = cache.nextId := by
  rw [erase]
  split <;> rfl

/-- A stage that is kept already is given back, and any other is kept under the next id. -/
theorem adopt_cases (cache : Cache) (shared : SharedStage) :
    (∃ kept, cache.rival? shared = some kept ∧ cache.adopt shared = (kept, cache)) ∨
      (cache.rival? shared = none ∧
        cache.adopt shared = ((cache.nextId, shared), (cache.insert shared).2)) := by
  rw [adopt]
  cases cache.rival? shared with
  | none => exact Or.inr ⟨rfl, rfl⟩
  | some kept => exact Or.inl ⟨kept, rfl, rfl⟩

/-- Opening fails exactly if no stage is kept for the file and the file cannot be read. -/
theorem openFile_eq_error_iff {error : Error} :
    cache.openFile files mark file = .error error ↔
      cache.fetch? (cache.find? files file) = none ∧
        Stage.openFile files file = .error error := by
  rw [openFile]
  cases cache.fetch? (cache.find? files file) with
  | some kept => simp
  | none => cases Stage.openFile files file <;> simp

/-- Opening gives back a stage that is kept, or keeps a new one under the next id. -/
theorem openFile_cases (cache : Cache) (files : Files) (mark : Nat) (file : String) :
    (∃ error, cache.openFile files mark file = .error error) ∨
      (∃ kept, cache.openFile files mark file = .ok (kept, cache)) ∨
        ∃ shared, cache.openFile files mark file =
          .ok ((cache.nextId, shared), (cache.insert shared).2) := by
  rw [openFile]
  cases cache.fetch? (cache.find? files file) with
  | some kept => exact Or.inr (Or.inl ⟨kept, rfl⟩)
  | none =>
      cases Stage.openFile files file with
      | error error => exact Or.inl ⟨error, rfl⟩
      | ok stage =>
          obtain ⟨kept, _, hadopt⟩ | ⟨_, hadopt⟩ := cache.adopt_cases ⟨mark, stage⟩
          · exact Or.inr (Or.inl ⟨kept, congrArg Except.ok hadopt⟩)
          · exact Or.inr (Or.inr ⟨⟨mark, stage⟩, congrArg Except.ok hadopt⟩)

/-! ## How the entries fit together -/

/-- The entries of a cache fit together. -/
structure WellKept (cache : Cache) : Prop where
  /-- The ids in use were given out before. -/
  id_lt : ∀ entry ∈ cache.stages, entry.1 < cache.nextId
  /-- No id stands twice. -/
  nodup_ids : (cache.stages.map Prod.fst).Nodup
  /-- No file stands twice. -/
  nodup_keys : (cache.sources.map Prod.fst).Nodup
  /-- A file leads to the id of a stage that was read from it. -/
  source_mem : ∀ source ∈ cache.sources, ∃ shared : SharedStage,
    (source.2, shared) ∈ cache.stages ∧ shared.key? = some source.1

namespace WellKept

/-- The empty cache is well kept. -/
theorem empty : WellKept {} := ⟨nofun, List.nodup_nil, List.nodup_nil, nofun⟩

variable (h : cache.WellKept)

include h

/-- Each stage is under its id. -/
theorem get?_eq_some_iff : cache.get? id = some shared ↔ (id, shared) ∈ cache.stages :=
  lookup_eq_some_iff_mem h.nodup_ids

/-- A stage that is kept has an id that was given out. -/
theorem lt_of_get? (hget : cache.get? id = some shared) : id < cache.nextId :=
  h.id_lt _ (mem_of_lookup hget)

/-- Looking for a file finds a stage that was read from it. -/
theorem get?_of_lookup (hlookup : cache.sources.lookup key = some id) :
    ∃ shared, cache.get? id = some shared ∧ shared.key? = some key := by
  obtain ⟨shared, hmem, hkey⟩ := h.source_mem _ (mem_of_lookup hlookup)
  exact ⟨shared, h.get?_eq_some_iff.mpr hmem, hkey⟩

/-- Erasing makes the files forgotten that lead to the id. -/
theorem mem_sources_erase {source : List String × Nat} :
    source ∈ (cache.erase id).2.sources ↔ source ∈ cache.sources ∧ source.2 ≠ id := by
  rw [Cache.erase]
  cases hget : cache.get? id with
  | none =>
      have hother : ∀ source ∈ cache.sources, source.2 ≠ id := by
        intro source hmem heq
        obtain ⟨shared, hstage, _⟩ := h.source_mem source hmem
        rw [heq, ← h.get?_eq_some_iff, hget] at hstage
        cases hstage
      constructor
      · intro hmem
        exact ⟨hmem, hother source hmem⟩
      · intro hboth
        exact hboth.1
  | some shared => simp only [List.mem_filter, ne_eq, decide_eq_true_eq]

/-- A new stage keeps the cache well kept. -/
theorem insert (shared : SharedStage) : (cache.insert shared).2.WellKept where
  id_lt entry hmem := by
    rw [nextId_insert]
    obtain rfl | hmem := List.mem_cons.mp hmem
    · exact Nat.lt_succ_self _
    · exact Nat.lt_succ_of_lt (h.id_lt entry hmem)
  nodup_ids := by
    have hfresh : cache.nextId ∉ cache.stages.map Prod.fst := by
      intro hmem
      obtain ⟨entry, hentry, heq⟩ := List.mem_map.mp hmem
      exact absurd heq (Nat.ne_of_lt (h.id_lt entry hentry))
    rw [stages_insert, List.map_cons, List.nodup_cons]
    exact ⟨hfresh, h.nodup_ids⟩
  nodup_keys := by
    rw [Cache.insert]
    cases shared.stage.source with
    | none => exact h.nodup_keys
    | some file =>
        have hkept : ((cache.sources.filter (·.1 ≠ fileKey file)).map Prod.fst).Nodup :=
          h.nodup_keys.sublist (List.filter_sublist.map _)
        have hgone : fileKey file ∉
            (cache.sources.filter (·.1 ≠ fileKey file)).map Prod.fst := by
          intro hmem
          obtain ⟨source, hsource, heq⟩ := List.mem_map.mp hmem
          exact of_decide_eq_true (List.mem_filter.mp hsource).2 heq
        exact List.nodup_cons.mpr ⟨hgone, hkept⟩
  source_mem source hmem := by
    obtain ⟨hkey, hid⟩ | ⟨_, hmem⟩ := mem_sources_insert.mp hmem
    · have hnew : (source.2, shared) ∈ (cache.insert shared).2.stages := by
        rw [hid, stages_insert]
        exact List.mem_cons_self ..
      exact ⟨shared, hnew, hkey⟩
    · obtain ⟨kept, hkept, hkey⟩ := h.source_mem source hmem
      exact ⟨kept, List.mem_cons_of_mem _ hkept, hkey⟩

/-- Taking a stage out keeps the cache well kept. -/
theorem erase (id : Nat) : (cache.erase id).2.WellKept where
  id_lt entry hmem := by
    rw [nextId_erase]
    exact h.id_lt entry (mem_stages_erase.mp hmem).1
  nodup_ids := h.nodup_ids.sublist (stages_erase_sublist.map _)
  nodup_keys := h.nodup_keys.sublist (sources_erase_sublist.map _)
  source_mem source hmem := by
    obtain ⟨hmem, hne⟩ := h.mem_sources_erase.mp hmem
    obtain ⟨shared, hshared, hkey⟩ := h.source_mem source hmem
    exact ⟨shared, mem_stages_erase.mpr ⟨hshared, hne⟩, hkey⟩

omit h in
/-- A cleared cache is well kept. -/
theorem clear : cache.clear.WellKept := ⟨nofun, List.nodup_nil, List.nodup_nil, nofun⟩

/-- Adopting a stage keeps the cache well kept. -/
theorem adopt (shared : SharedStage) : (cache.adopt shared).2.WellKept := by
  obtain ⟨kept, _, hadopt⟩ | ⟨_, hadopt⟩ := cache.adopt_cases shared
  · rwa [hadopt]
  · rw [hadopt]
    exact h.insert shared

/-- **Erase, then get.** -/
theorem get?_erase :
    (cache.erase id).2.get? other = if other = id then none else cache.get? other := by
  by_cases heq : other = id
  · have hgone : ∀ entry ∈ (cache.erase id).2.stages, (other != entry.1) = true := by
      intro entry hmem
      rw [bne_iff_ne, heq]
      exact (mem_stages_erase.mp hmem).2.symm
    rw [if_pos heq]
    exact List.lookup_eq_none_iff.mpr hgone
  · rw [if_neg heq]
    refine Option.ext fun shared => ?_
    rw [(h.erase id).get?_eq_some_iff, h.get?_eq_some_iff, mem_stages_erase, and_iff_left heq]

end WellKept

/-! ## The file of a stage -/

/-- A stage was read from a file exactly if it is found under the key of this file. -/
theorem readFrom_canonicalOf_iff :
    shared.ReadFrom (files.canonicalOf file) ↔ shared.key? = some (keyOf files file) := by
  rw [keyOf_eq, SharedStage.readFrom_iff_key?]

/-- A remembered file leads to a stage that was read from it, by whatever path it goes. -/
theorem WellKept.exists_readFrom_of_mem (h : cache.WellKept) (hmem : (key, id) ∈ cache.sources) :
    ∃ shared source, cache.get? id = some shared ∧ shared.stage.source = some source ∧
      fileKey source = key ∧ ∀ path, fileKey path = key → shared.ReadFrom path := by
  obtain ⟨shared, hstage, hkey⟩ := h.source_mem (key, id) hmem
  have hget : cache.get? id = some shared := h.get?_eq_some_iff.mpr hstage
  obtain ⟨source, hsource, hsame⟩ := Option.map_eq_some_iff.mp hkey
  refine ⟨shared, source, hget, hsource, hsame, fun path hpath => ?_⟩
  rw [SharedStage.readFrom_iff_key?, hpath, hkey]

/-- Looking for a file finds a stage that was read from this file. -/
theorem WellKept.exists_readFrom_of_find? (h : cache.WellKept)
    (hfind : cache.find? files file = some id) :
    ∃ shared, cache.get? id = some shared ∧ shared.ReadFrom (files.canonicalOf file) := by
  obtain ⟨shared, hget, hkey⟩ := h.get?_of_lookup hfind
  exact ⟨shared, hget, readFrom_canonicalOf_iff.mpr hkey⟩

/-! ## Adopting what was read -/

/-- A stage that was read from a file is one of this file. -/
theorem key?_of_openFile {stage : Stage} (hopen : Stage.openFile files file = .ok stage) :
    SharedStage.key? ⟨mark, stage⟩ = some (keyOf files file) := by
  rw [Stage.openFile] at hopen
  cases hread : files.read file with
  | error error =>
      rw [hread] at hopen
      cases hopen
  | ok result =>
      obtain ⟨canonical, text⟩ := result
      simp only [hread] at hopen
      split at hopen
      · cases hopen
      · obtain rfl := Except.ok.inj hopen
        rw [keyOf, Files.read_eq_ok_iff.mp hread]
        rfl

/-- The rival of a stage is what its file leads to. -/
theorem rival?_of_key? (hkey : shared.key? = some key) :
    cache.rival? shared = cache.fetch? (cache.sources.lookup key) := by
  obtain ⟨source, hsource, rfl⟩ := Option.map_eq_some_iff.mp hkey
  rw [rival?, hsource, Option.bind_some]

/-- If no stage is kept for a file, then the file leads nowhere. -/
theorem WellKept.lookup_eq_none (h : cache.WellKept) (hkey : shared.key? = some key)
    (hrival : cache.rival? shared = none) : cache.sources.lookup key = none := by
  rw [rival?_of_key? hkey] at hrival
  cases hlookup : cache.sources.lookup key with
  | none => rfl
  | some id =>
      obtain ⟨kept, hget, _⟩ := h.get?_of_lookup hlookup
      rw [hlookup, fetch?, Option.bind_some, hget] at hrival
      cases hrival

/-- The file of a stage leads to its rival, which is kept. -/
theorem lookup_of_rival? {kept : SharedStage} (hkey : shared.key? = some key)
    (hrival : cache.rival? shared = some (id, kept)) :
    cache.sources.lookup key = some id ∧ cache.get? id = some kept := by
  rw [rival?_of_key? hkey, fetch?, Option.bind_eq_some_iff] at hrival
  obtain ⟨_, hlookup, hfetch⟩ := hrival
  obtain ⟨_, hget, heq⟩ := Option.map_eq_some_iff.mp hfetch
  obtain ⟨rfl, rfl⟩ := Prod.mk.inj heq
  exact ⟨hlookup, hget⟩

/-- Adopting a stage leaves all others under their ids. -/
theorem WellKept.get?_adopt (h : cache.WellKept) (hget : cache.get? id = some shared)
    (read : SharedStage) : (cache.adopt read).2.get? id = some shared := by
  obtain ⟨kept, _, hadopt⟩ | ⟨_, hadopt⟩ := cache.adopt_cases read
  · rwa [hadopt]
  · have hne : id ≠ cache.nextId := Nat.ne_of_lt (h.lt_of_get? hget)
    rw [hadopt, get?_insert, if_neg hne, hget]

/-- Who adopts a stage is given a stage of the same file, which is kept. -/
theorem WellKept.get?_adopt_self (h : cache.WellKept) (hkey : shared.key? = some key) :
    (cache.adopt shared).2.get? (cache.adopt shared).1.1 = some (cache.adopt shared).1.2 ∧
      (cache.adopt shared).1.2.key? = some key := by
  obtain ⟨⟨id, kept⟩, hrival, hadopt⟩ | ⟨_, hadopt⟩ := cache.adopt_cases shared
  · obtain ⟨hlookup, hget⟩ := lookup_of_rival? hkey hrival
    obtain ⟨found, hfound, hsame⟩ := h.get?_of_lookup hlookup
    obtain rfl : found = kept := Option.some.inj (hfound.symm.trans hget)
    rw [hadopt]
    exact ⟨hget, hsame⟩
  · have hnew : (cache.insert shared).2.get? cache.nextId = some shared := by
      rw [get?_insert, if_pos rfl]
    rw [hadopt]
    exact ⟨hnew, hkey⟩

end Cache

end MaterialBinding
