import MaterialBinding.Proofs.Files.CacheHistory

/-!
# Which kept stages are found again

Several stages of one file may be kept at the same time, each under its own id.  The file leads to
the one that was kept last, its newest stage (`newest?`).  When this one is taken out, the file
leads nowhere, although older stages of the file may be left.

`Call.followsNewest` proves this for one call, and `FollowsNewest.foldl` for all calls.  So a file
of which a stage is kept is found exactly as long as its newest stage is kept
(`found_iff_newest_kept`), and as long as it is found it is not read again.
-/

namespace MaterialBinding

namespace Cache

variable {cache : Cache} {shared : SharedStage} {id : Nat} {key : List String} {files : Files}
  {file : String} {made : List (Nat × SharedStage)} {calls : List Call}

/-! ## The newest stage of a file -/

/-- The id of the stage of the file that was kept last. -/
def newest? (key : List String) (made : List (Nat × SharedStage)) : Option Nat :=
  (made.reverse.find? fun entry => entry.2.key? = some key).map Prod.fst

/-- A stage of the file that is kept now is the newest. -/
theorem newest?_append_self (hkey : shared.key? = some key) :
    newest? key (made ++ [(id, shared)]) = some id := by
  simp [newest?, hkey]

/-- A stage of another file is passed over. -/
theorem newest?_append_of_ne (hkey : shared.key? ≠ some key) :
    newest? key (made ++ [(id, shared)]) = newest? key made := by
  simp [newest?, hkey]

/-- The newest stage of a file was kept under its id. -/
theorem exists_of_newest? (hnewest : newest? key made = some id) :
    ∃ shared, (id, shared) ∈ made ∧ shared.key? = some key := by
  obtain ⟨⟨_, shared⟩, hfind, rfl⟩ := Option.map_eq_some_iff.mp hnewest
  exact ⟨shared, List.mem_reverse.mp (List.mem_of_find?_eq_some hfind),
    by simpa using List.find?_some hfind⟩

/-- A file has a newest stage if a stage of it was ever kept. -/
theorem exists_newest? (hmem : (id, shared) ∈ made) (hkey : shared.key? = some key) :
    ∃ newest, newest? key made = some newest := by
  have hsome : (made.reverse.find? fun entry => entry.2.key? = some key).isSome = true :=
    List.find?_isSome.mpr ⟨(id, shared), List.mem_reverse.mpr hmem, decide_eq_true hkey⟩
  obtain ⟨entry, hentry⟩ := Option.isSome_iff_exists.mp hsome
  exact ⟨entry.1, by rw [newest?, hentry, Option.map_some]⟩

/-! ## Where a file leads -/

/-- A new stage makes its file lead to it, and no other. -/
theorem WellKept.lookup_insert (h : cache.WellKept) (shared : SharedStage) (key : List String) :
    (cache.insert shared).2.sources.lookup key =
      if shared.key? = some key then some cache.nextId else cache.sources.lookup key := by
  refine Option.ext fun id => ?_
  rw [lookup_eq_some_iff_mem (h.insert shared).nodup_keys, mem_sources_insert]
  by_cases hkey : shared.key? = some key
  · simp [hkey, eq_comm]
  · simp [hkey, lookup_eq_some_iff_mem h.nodup_keys]

/-- A file that leads to a stage which is taken out leads nowhere. -/
theorem WellKept.lookup_erase (h : cache.WellKept) (id : Nat) (key : List String) :
    (cache.erase id).2.sources.lookup key = (cache.sources.lookup key).filter (· ≠ id) := by
  refine Option.ext fun other => ?_
  rw [lookup_eq_some_iff_mem (h.erase id).nodup_keys, h.mem_sources_erase,
    Option.filter_eq_some_iff, lookup_eq_some_iff_mem h.nodup_keys, decide_eq_true_iff]

/-- Each file leads to its newest stage as long as that one is kept, and then nowhere. -/
structure FollowsNewest (cache : Cache) (made : List (Nat × SharedStage)) : Prop where
  /-- What was ever kept has an id that was given out. -/
  id_lt : ∀ entry ∈ made, entry.1 < cache.nextId
  /-- Where a file leads. -/
  lookup_eq : ∀ key, cache.sources.lookup key =
    (newest? key made).filter fun id => (cache.get? id).isSome

/-- The empty cache has no files that could lead anywhere. -/
theorem FollowsNewest.empty : FollowsNewest {} [] := ⟨nofun, fun _ => rfl⟩

/-- A stage that is kept becomes the newest of its file, and the file leads to it. -/
theorem FollowsNewest.insert (hfollows : cache.FollowsNewest made) (h : cache.WellKept)
    (shared : SharedStage) :
    (cache.insert shared).2.FollowsNewest (made ++ [(cache.nextId, shared)]) where
  id_lt entry hmem := by
    rw [nextId_insert]
    obtain hbefore | hnew := List.mem_append.mp hmem
    · exact Nat.lt_succ_of_lt (hfollows.id_lt entry hbefore)
    · rw [List.mem_singleton.mp hnew]
      exact Nat.lt_succ_self _
  lookup_eq key := by
    rw [h.lookup_insert]
    by_cases hkey : shared.key? = some key
    · have hthere : (cache.insert shared).2.get? cache.nextId = some shared := by
        rw [get?_insert, if_pos rfl]
      rw [if_pos hkey, newest?_append_self hkey, Option.filter_some, hthere]
      rfl
    · rw [if_neg hkey, newest?_append_of_ne hkey, hfollows.lookup_eq]
      cases hnewest : newest? key made with
      | none => rfl
      | some id =>
          obtain ⟨older, hmem, _⟩ := exists_of_newest? hnewest
          have hlt : id < cache.nextId := hfollows.id_lt (id, older) hmem
          have hsame : (cache.insert shared).2.get? id = cache.get? id := by
            rw [get?_insert, if_neg (Nat.ne_of_lt hlt)]
          rw [Option.filter_some, Option.filter_some, hsame]

/-- A file whose newest stage is taken out leads nowhere; the others lead where they led. -/
theorem FollowsNewest.erase (hfollows : cache.FollowsNewest made) (h : cache.WellKept) (id : Nat) :
    (cache.erase id).2.FollowsNewest made where
  id_lt entry hmem := by
    rw [nextId_erase]
    exact hfollows.id_lt entry hmem
  lookup_eq key := by
    rw [h.lookup_erase, hfollows.lookup_eq, Option.filter_filter]
    cases newest? key made with
    | none => rfl
    | some other =>
        rw [Option.filter_some, Option.filter_some, h.get?_erase]
        by_cases heq : other = id
        · simp [heq]
        · simp [heq]

/-- In a cleared cache no file leads anywhere. -/
theorem FollowsNewest.clear (hfollows : cache.FollowsNewest made) :
    cache.clear.FollowsNewest made where
  id_lt := hfollows.id_lt
  lookup_eq key := by
    cases newest? key made <;> rfl

/-- **One call**: a new stage takes over its file, and whatever is taken out gives its file up. -/
theorem Call.followsNewest (hfollows : cache.FollowsNewest made) (h : cache.WellKept)
    (call : Call) :
    (call.run cache).FollowsNewest (made ++ (call.newStage? cache).toList) := by
  obtain ⟨hnew, hrun, _⟩ | ⟨shared, hnew, hrun, _⟩ | ⟨id, rfl⟩ | rfl := call.run_cases cache
  · rw [hrun, hnew, Option.toList_none, List.append_nil]
    exact hfollows
  · rw [hrun, hnew, Option.toList_some]
    exact hfollows.insert h shared
  · rw [newStage?, Option.toList_none, List.append_nil]
    exact hfollows.erase h id
  · rw [newStage?, Option.toList_none, List.append_nil]
    exact hfollows.clear

/-- **All calls.** -/
theorem FollowsNewest.foldl (hfollows : cache.FollowsNewest made) (h : cache.WellKept)
    (calls : List Call) :
    (calls.foldl Call.run cache).FollowsNewest (made ++ cache.newStages calls) := by
  induction calls generalizing cache made with
  | nil => rwa [newStages, List.append_nil]
  | cons call rest ih =>
      rw [newStages, ← List.append_assoc]
      exact ih (call.followsNewest hfollows h) (h.run call)

/-! ## Finding and opening -/

/-- Opening a file that leads to a kept stage gives this stage and reads nothing. -/
theorem openFile_of_find? (hfind : cache.find? files file = some id)
    (hget : cache.get? id = some shared) (mark : Nat) :
    cache.openFile files mark file = .ok ((id, shared), cache) := by
  rw [openFile, hfind, fetch?, Option.bind_some, hget]
  rfl

/-- Opening a file that leads nowhere reads it and keeps what was read under the next id. -/
theorem openFile_of_find?_eq_none (hfind : cache.find? files file = none) (mark : Nat) :
    cache.openFile files mark file = (Stage.openFile files file).map fun stage =>
      ((cache.nextId, ⟨mark, stage⟩), (cache.insert ⟨mark, stage⟩).2) := by
  rw [openFile, hfind, fetch?, Option.bind_none]
  cases hopen : Stage.openFile files file with
  | error error => rfl
  | ok stage =>
      have hrival : cache.rival? ⟨mark, stage⟩ = none := by
        rw [rival?_of_key? (key?_of_openFile hopen)]
        change cache.fetch? (cache.find? files file) = none
        rw [hfind]
        rfl
      simp only [adopt, hrival]
      rfl

/-- **A file is found while its newest stage is kept.**  Let any stage of a file be kept after any
calls.

* The file leads to the id of a stage of this file exactly if the newest stage of the file is kept.
* Then it leads to this one, and opening the file gives it and leaves the cache as it is.
* Otherwise it leads nowhere, and opening the file reads it again and keeps one more stage of it. -/
theorem found_iff_newest_kept (calls : List Call)
    (hkept : (calls.foldl Call.run {}).get? id = some shared) (hkey : shared.key? = some key)
    (hfile : keyOf files file = key) :
    let cache : Cache := calls.foldl Call.run {}
    ∃ newest, newest? key (newStages {} calls) = some newest ∧
      ((∃ found kept, cache.find? files file = some found ∧ cache.get? found = some kept ∧
          kept.key? = some key) ↔ (cache.get? newest).isSome = true) ∧
      (∀ kept, cache.get? newest = some kept →
        cache.find? files file = some newest ∧
          ∀ mark, cache.openFile files mark file = .ok ((newest, kept), cache)) ∧
      (cache.get? newest = none →
        cache.find? files file = none ∧
          ∀ mark, cache.openFile files mark file = (Stage.openFile files file).map fun stage =>
            ((cache.nextId, ⟨mark, stage⟩), (cache.insert ⟨mark, stage⟩).2)) := by
  intro cache
  have h : cache.WellKept := WellKept.empty.foldl calls
  have hfollows : cache.FollowsNewest (newStages {} calls) :=
    FollowsNewest.empty.foldl WellKept.empty calls
  have hmade : (id, shared) ∈ newStages {} calls :=
    (mem_stages_foldl (mem_of_lookup hkept)).resolve_left nofun
  obtain ⟨newest, hnewest⟩ := exists_newest? hmade hkey
  have hfind : cache.find? files file =
      if (cache.get? newest).isSome = true then some newest else none := by
    rw [find?, hfile, hfollows.lookup_eq, hnewest, Option.filter_some]
  refine ⟨newest, hnewest, ?_, ?_, ?_⟩
  · constructor
    · rintro ⟨found, kept, hfound, _, _⟩
      by_contra hgone
      rw [hfind, if_neg hgone] at hfound
      cases hfound
    · intro hstays
      rw [if_pos hstays] at hfind
      obtain ⟨kept, hget, hsame⟩ := h.get?_of_lookup hfind
      exact ⟨newest, kept, hfind, hget, hsame.trans (congrArg some hfile)⟩
  · intro kept hget
    rw [hget, Option.isSome_some, if_pos rfl] at hfind
    exact ⟨hfind, openFile_of_find? hfind hget⟩
  · intro hgone
    rw [hgone, Option.isSome_none, if_neg Bool.false_ne_true] at hfind
    exact ⟨hfind, openFile_of_find?_eq_none hfind⟩

/-- The file of a lamp, at its canonical path. -/
def oneLamp : Files := fun path =>
  if path = "/room/lamp.json" then .found "/room/lamp.json" (some "{}") else .missing

/-- A stage that was read from the file of the lamp. -/
def lampStage (mark : Nat) : SharedStage :=
  ⟨mark, { name := "/room/lamp.json", source := some "/room/lamp.json" }⟩

/-- Of two stages of the lamp the older one is taken out, and the lamp is found. -/
theorem lamp_found_after_erase :
    let cache : Cache :=
      [Call.insert (lampStage 0), .insert (lampStage 1), .erase 1].foldl Call.run {}
    cache.get? 2 = some (lampStage 1) ∧
      (lampStage 1).key? = some (keyOf oneLamp "/room/lamp.json") ∧
      cache.find? oneLamp "/room/lamp.json" = some 2 ∧
      ∀ mark, cache.openFile oneLamp mark "/room/lamp.json" = .ok ((2, lampStage 1), cache) := by
  intro cache
  have hget : cache.get? 2 = some (lampStage 1) := by decide
  have hkey : (lampStage 1).key? = some (keyOf oneLamp "/room/lamp.json") := by decide
  obtain ⟨newest, hnewest, _, hfound, _⟩ := found_iff_newest_kept _ hget hkey rfl
  obtain rfl : 2 = newest := Option.some.inj (Eq.trans (by decide) hnewest)
  exact ⟨hget, hkey, hfound (lampStage 1) hget⟩

/-- **A stage that is kept need not be found.**  Of two stages of the lamp the newer one is taken
out: the older one is still kept, but the lamp leads nowhere. -/
theorem exists_kept_not_found :
    ¬ ∀ (calls : List Call) (id : Nat) (shared : SharedStage) (files : Files) (file : String),
      (calls.foldl Call.run {}).get? id = some shared →
        shared.key? = some (keyOf files file) →
          ∃ found kept, (calls.foldl Call.run {}).find? files file = some found ∧
            (calls.foldl Call.run {}).get? found = some kept ∧
              kept.key? = some (keyOf files file) := by
  intro hall
  obtain ⟨found, _, hfind, _⟩ :=
    hall [.insert (lampStage 0), .insert (lampStage 1), .erase 2] 1 (lampStage 0) oneLamp
      "/room/lamp.json" (by decide) (by decide)
  have hnone : ([Call.insert (lampStage 0), .insert (lampStage 1), .erase 2].foldl Call.run
      {}).find? oneLamp "/room/lamp.json" = none := by decide
  rw [hnone] at hfind
  cases hfind

end Cache

end MaterialBinding
