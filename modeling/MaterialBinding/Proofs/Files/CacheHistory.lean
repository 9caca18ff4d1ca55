import MaterialBinding.Proofs.Files.WellKept

/-!
# Histories of a cache

A cache starts empty and goes through any number of calls.  A `Cache.Call` is one call with all its
arguments; every call that looks at files brings its own, so files may change between calls.

`Call.run_cases` says once what a call can do: nothing, keep a stage under the next id, take one
stage out, or take out all.  From it come the laws of a history (`Cache.kept_until_taken_out`): ids
ascend, a stage stays under its id until it is taken out, an id that was given out never gets
another stage, and a file never leads to a stage of another file.
-/

namespace MaterialBinding

namespace Cache

variable {cache : Cache} {shared : SharedStage} {id : Nat}

/-! ## Calls -/

/-- One call of an operation of a cache, with its arguments. -/
inductive Call where
  | insert (shared : SharedStage)
  | openFile (files : Files) (mark : Nat) (file : String)
  | erase (id : Nat)
  | clear
  | get (id : Nat)
  | find (files : Files) (file : String)

namespace Call

/-- The cache after the call; a call that fails leaves it as it was. -/
def run (cache : Cache) : Call → Cache
  | insert shared => (cache.insert shared).2
  | openFile files mark file =>
    match cache.openFile files mark file with
    | .ok (_, changed) => changed
    | .error _ => cache
  | erase id => (cache.erase id).2
  | clear => cache.clear
  | get _ | find _ _ => cache

/-- The stage that the call newly keeps, and the id that is given out for it.  Opening a file keeps
a stage newly if it changes the cache. -/
def newStage? (cache : Cache) : Call → Option (Nat × SharedStage)
  | insert shared => some ((cache.insert shared).1, shared)
  | openFile files mark file =>
    match cache.openFile files mark file with
    | .ok (kept, changed) => if changed = cache then none else some kept
    | .error _ => none
  | erase _ | clear | get _ | find _ _ => none

/-- The call takes out the stage under the id, if there is one. -/
def TakesOut (id : Nat) : Call → Prop
  | erase other => other = id
  | clear => True
  | insert _ | openFile _ _ _ | get _ | find _ _ => False

instance (id : Nat) : DecidablePred (TakesOut id)
  | insert _ | openFile _ _ _ | get _ | find _ _ => inferInstanceAs (Decidable False)
  | erase other => inferInstanceAs (Decidable (other = id))
  | clear => inferInstanceAs (Decidable True)

/-- What a call can do: nothing, keep a stage under the next id, take one stage out, or take out
all. -/
theorem run_cases (cache : Cache) (call : Call) :
    (call.newStage? cache = none ∧ call.run cache = cache ∧ ∀ id, ¬ call.TakesOut id) ∨
      (∃ shared, call.newStage? cache = some (cache.nextId, shared) ∧
        call.run cache = (cache.insert shared).2 ∧ ∀ id, ¬ call.TakesOut id) ∨
      (∃ id, call = .erase id) ∨ call = .clear := by
  cases call with
  | insert shared => exact Or.inr (Or.inl ⟨shared, rfl, rfl, fun _ => id⟩)
  | openFile files mark file =>
      obtain ⟨error, hopen⟩ | ⟨kept, hopen⟩ | ⟨shared, hopen⟩ :=
        cache.openFile_cases files mark file
      · have hrun : (openFile files mark file).run cache = cache := by rw [run, hopen]
        have hnew : (openFile files mark file).newStage? cache = none := by rw [newStage?, hopen]
        exact Or.inl ⟨hnew, hrun, fun _ => id⟩
      · have hrun : (openFile files mark file).run cache = cache := by rw [run, hopen]
        have hnew : (openFile files mark file).newStage? cache = none := by
          simp only [newStage?, hopen, if_true]
        exact Or.inl ⟨hnew, hrun, fun _ => id⟩
      · have hrun : (openFile files mark file).run cache = (cache.insert shared).2 := by
          rw [run, hopen]
        have hchanged : (cache.insert shared).2 ≠ cache := fun heq =>
          Nat.succ_ne_self _ (congrArg Cache.nextId heq)
        have hnew : (openFile files mark file).newStage? cache = some (cache.nextId, shared) := by
          simp only [newStage?, hopen, if_neg hchanged]
        exact Or.inr (Or.inl ⟨shared, hnew, hrun, fun _ => id⟩)
  | erase id => exact Or.inr (Or.inr (Or.inl ⟨id, rfl⟩))
  | clear => exact Or.inr (Or.inr (Or.inr rfl))
  | get | find => exact Or.inl ⟨rfl, rfl, fun _ => id⟩

end Call

variable {call : Call} {calls : List Call}

/-- A call keeps the cache well kept. -/
theorem WellKept.run (h : cache.WellKept) (call : Call) : (call.run cache).WellKept := by
  obtain ⟨_, hrun, _⟩ | ⟨shared, _, hrun, _⟩ | ⟨id, rfl⟩ | rfl := call.run_cases cache
  · rwa [hrun]
  · rw [hrun]
    exact h.insert shared
  · exact h.erase id
  · exact WellKept.clear

/-- Calls keep the cache well kept. -/
theorem WellKept.foldl (h : cache.WellKept) (calls : List Call) :
    (calls.foldl Call.run cache).WellKept := by
  induction calls generalizing cache with
  | nil => exact h
  | cons call rest ih => exact ih (h.run call)

/-- The new stages that the calls make, one after the other. -/
def newStages : Cache → List Call → List (Nat × SharedStage)
  | _, [] => []
  | cache, call :: rest => (call.newStage? cache).toList ++ newStages (call.run cache) rest

/-! ## Ids -/

/-- The ids go on by one for each new stage. -/
theorem nextId_run :
    (call.run cache).nextId = cache.nextId + (call.newStage? cache).toList.length := by
  obtain ⟨hnew, hrun, _⟩ | ⟨shared, hnew, hrun, _⟩ | ⟨id, rfl⟩ | rfl := call.run_cases cache
  · rw [hrun, hnew]
    rfl
  · rw [hrun, hnew]
    rfl
  · exact nextId_erase
  · rfl

/-- **Ids are given out in order**, without a gap and none twice. -/
theorem ids_newStages (calls : List Call) :
    (newStages cache calls).map Prod.fst =
      List.range' cache.nextId (newStages cache calls).length := by
  induction calls generalizing cache with
  | nil => rfl
  | cons call rest ih =>
      rw [newStages, List.map_append, ih, nextId_run]
      obtain ⟨hnew, _, _⟩ | ⟨shared, hnew, _, _⟩ | ⟨id, rfl⟩ | rfl := call.run_cases cache
      · rw [hnew]
        rfl
      · rw [hnew, List.length_append, Option.toList_some, List.length_singleton, Nat.add_comm 1,
          List.range'_succ]
        rfl
      · rfl
      · rfl

/-- No id is given out twice. -/
theorem nextId_le_run (cache : Cache) (call : Call) : cache.nextId ≤ (call.run cache).nextId :=
  nextId_run ▸ Nat.le_add_right ..

/-! ## Stages -/

/-- A new stage is kept under the next id. -/
theorem run_of_newStage? (hnew : call.newStage? cache = some (id, shared)) :
    id = cache.nextId ∧ call.run cache = (cache.insert shared).2 := by
  obtain ⟨hnone, _⟩ | ⟨kept, hsome, hrun, _⟩ | ⟨id, rfl⟩ | rfl := call.run_cases cache
  · rw [hnone] at hnew
    cases hnew
  · obtain ⟨rfl, rfl⟩ := Prod.mk.inj (Option.some.inj (hsome.symm.trans hnew))
    exact ⟨rfl, hrun⟩
  · cases hnew
  · cases hnew

/-- What is kept after a call was kept before, or is new. -/
theorem mem_stages_run {entry : Nat × SharedStage} (hmem : entry ∈ (call.run cache).stages) :
    entry ∈ cache.stages ∨ call.newStage? cache = some entry := by
  obtain ⟨_, hrun, _⟩ | ⟨shared, hnew, hrun, _⟩ | ⟨id, rfl⟩ | rfl := call.run_cases cache
  · rw [hrun] at hmem
    exact Or.inl hmem
  · rw [hrun, stages_insert] at hmem
    obtain rfl | hmem := List.mem_cons.mp hmem
    · exact Or.inr hnew
    · exact Or.inl hmem
  · exact Or.inl (mem_stages_erase.mp hmem).1
  · exact absurd hmem nofun

/-- What is kept after the calls was kept before, or by one of them. -/
theorem mem_stages_foldl {entry : Nat × SharedStage}
    (hmem : entry ∈ (calls.foldl Call.run cache).stages) :
    entry ∈ cache.stages ∨ entry ∈ cache.newStages calls := by
  induction calls generalizing cache with
  | nil => exact Or.inl hmem
  | cons call rest ih =>
      rw [newStages]
      obtain hmem | hmem := ih hmem
      · obtain hmem | hnew := mem_stages_run hmem
        · exact Or.inl hmem
        · exact Or.inr (List.mem_append_left _ (Option.mem_toList.mpr hnew))
      · exact Or.inr (List.mem_append_right _ hmem)

/-- Under an id that was given out before, a call can only take the stage out. -/
theorem WellKept.get?_run (h : cache.WellKept) (hid : id < cache.nextId) (call : Call) :
    (call.run cache).get? id = if call.TakesOut id then none else cache.get? id := by
  obtain ⟨_, hrun, hstays⟩ | ⟨shared, _, hrun, hstays⟩ | ⟨other, rfl⟩ | rfl :=
    call.run_cases cache
  · rw [hrun, if_neg (hstays id)]
  · rw [hrun, if_neg (hstays id), get?_insert, if_neg (Nat.ne_of_lt hid)]
  · simp only [Call.run, h.get?_erase, Call.TakesOut, eq_comm]
  · rfl

/-- **A stage stays under its id** until a call takes it out. -/
theorem WellKept.get?_foldl (h : cache.WellKept) (hid : id < cache.nextId) (calls : List Call) :
    (calls.foldl Call.run cache).get? id =
      if ∃ call ∈ calls, call.TakesOut id then none else cache.get? id := by
  induction calls generalizing cache with
  | nil => rw [List.foldl_nil, if_neg nofun]
  | cons call rest ih =>
      have hlater : id < (call.run cache).nextId :=
        Nat.lt_of_lt_of_le hid (nextId_le_run cache call)
      rw [List.foldl_cons, ih (h.run call) hlater, h.get?_run hid]
      simp only [List.exists_mem_cons_iff]
      by_cases hcall : call.TakesOut id
      · rw [if_pos hcall, ite_self, if_pos (Or.inl hcall)]
      · simp only [hcall, false_or, if_false]

/-- A new stage is found under its id until it is taken out, and then nothing is. -/
theorem WellKept.get?_of_newStage? (h : cache.WellKept)
    (hnew : call.newStage? cache = some (id, shared)) (after : List Call) :
    ((call :: after).foldl Call.run cache).get? id =
      if ∃ later ∈ after, later.TakesOut id then none else some shared := by
  obtain ⟨hid, hrun⟩ := run_of_newStage? hnew
  have hlt : id < (call.run cache).nextId := by
    rw [hrun, nextId_insert, hid]
    exact Nat.lt_succ_self _
  rw [List.foldl_cons, (h.run call).get?_foldl hlt, hrun, get?_insert, if_pos hid]

/-- Opening a file gives a stage that was read from this file, and which is kept from then on. -/
theorem WellKept.get?_of_openFile (h : cache.WellKept) {files : Files} {mark : Nat} {file : String}
    {kept : Nat × SharedStage} {changed : Cache}
    (hopen : cache.openFile files mark file = .ok (kept, changed)) :
    changed.get? kept.1 = some kept.2 ∧ kept.2.key? = some (keyOf files file) := by
  rw [openFile] at hopen
  cases hfetch : cache.fetch? (cache.find? files file) with
  | some found =>
      rw [hfetch] at hopen
      obtain ⟨rfl, rfl⟩ := Prod.mk.inj (Except.ok.inj hopen)
      obtain ⟨id, hfind, hget⟩ := Option.bind_eq_some_iff.mp hfetch
      obtain ⟨shared, hshared, rfl⟩ := Option.map_eq_some_iff.mp hget
      obtain ⟨same, hsame, hkey⟩ := h.get?_of_lookup hfind
      obtain rfl : same = shared := Option.some.inj (hsame.symm.trans hshared)
      exact ⟨hshared, hkey⟩
  | none =>
      rw [hfetch] at hopen
      cases hread : Stage.openFile files file with
      | error error =>
          rw [hread] at hopen
          cases hopen
      | ok stage =>
          rw [hread] at hopen
          have hadopt : cache.adopt ⟨mark, stage⟩ = (kept, changed) := Except.ok.inj hopen
          have hread : SharedStage.key? ⟨mark, stage⟩ = some (keyOf files file) :=
            key?_of_openFile hread
          have hself := h.get?_adopt_self hread
          rwa [hadopt] at hself

/-- After opening a file, what was given is kept and was read from this file. -/
theorem WellKept.readFrom_of_openFile (h : cache.WellKept) {files : Files} {mark : Nat}
    {file : String} {kept : Nat × SharedStage} {changed : Cache}
    (hopen : cache.openFile files mark file = .ok (kept, changed)) :
    changed.get? kept.1 = some kept.2 ∧ kept.2.ReadFrom (files.canonicalOf file) := by
  obtain ⟨hget, hkey⟩ := h.get?_of_openFile hopen
  exact ⟨hget, readFrom_canonicalOf_iff.mpr hkey⟩

/-- **The cache keeps its word**, after any calls.

* A remembered file leads to a stage that is kept and was read from this file: its source path is
  the one that is remembered.
* So looking for a file never finds an id of no stage, or of a stage of another file, and opening a
  file never gives a stage of another file.
* The ids of new stages are 1, 2, 3 and so on, so each is larger than those before.
* Every stage that is kept was newly kept under its id by a call.
* From this call on it is found under its id until it is taken out, and then nothing is.
* Erasing an id changes nothing under other ids.
* Opening fails exactly if no stage is kept for the file and the file cannot be read; then the whole
  cache stays as it is. -/
theorem kept_until_taken_out (calls : List Call) :
    let cache : Cache := calls.foldl Call.run {}
    let ids := (newStages {} calls).map Prod.fst
    (∀ key id, (key, id) ∈ cache.sources →
        ∃ shared source, cache.get? id = some shared ∧ shared.stage.source = some source ∧
          fileKey source = key ∧ ∀ path, fileKey path = key → shared.ReadFrom path) ∧
      (∀ files file id, cache.find? files file = some id →
        ∃ shared, cache.get? id = some shared ∧ shared.ReadFrom (files.canonicalOf file)) ∧
      (∀ files mark file kept changed, cache.openFile files mark file = .ok (kept, changed) →
        changed.get? kept.1 = some kept.2 ∧ kept.2.ReadFrom (files.canonicalOf file)) ∧
      ids = List.range' 1 ids.length ∧ ids.Pairwise (· < ·) ∧
      (∀ id shared, cache.get? id = some shared → (id, shared) ∈ newStages {} calls) ∧
      (∀ before call after id shared, calls = before ++ call :: after →
        call.newStage? (before.foldl Call.run {}) = some (id, shared) →
          cache.get? id = if ∃ later ∈ after, later.TakesOut id then none else some shared) ∧
      (∀ id other, other ≠ id → (cache.erase id).2.get? other = cache.get? other) ∧
      ∀ files mark file error,
        (cache.openFile files mark file = .error error ↔
          cache.fetch? (cache.find? files file) = none ∧
            Stage.openFile files file = .error error) ∧
        (cache.openFile files mark file = .error error →
          (Call.openFile files mark file).run cache = cache) := by
  intro cache ids
  have h : cache.WellKept := WellKept.empty.foldl calls
  have hids : ids = List.range' 1 ids.length := by
    rw [List.length_map]
    exact ids_newStages calls
  have hascending : ids.Pairwise (· < ·) := by
    rw [hids]
    exact List.pairwise_lt_range' ..
  refine ⟨?_, ?_, ?_, hids, hascending, ?_, ?_, ?_, ?_⟩
  · intro key id hsource
    exact h.exists_readFrom_of_mem hsource
  · intro files file id hfind
    exact h.exists_readFrom_of_find? hfind
  · intro files mark file kept changed hopen
    exact h.readFrom_of_openFile hopen
  · intro id shared hget
    exact (mem_stages_foldl (mem_of_lookup hget)).resolve_left nofun
  · intro before call after id shared hcalls hnew
    have hcache : cache = (call :: after).foldl Call.run (before.foldl Call.run {}) := by
      rw [← List.foldl_append, ← hcalls]
    have hbefore : (before.foldl Call.run {}).WellKept := WellKept.empty.foldl before
    rw [hcache, hbefore.get?_of_newStage? hnew]
  · intro id other hne
    rw [h.get?_erase, if_neg hne]
  · intro files mark file error
    refine ⟨openFile_eq_error_iff, fun hopen => ?_⟩
    rw [Call.run, hopen]

/-- Two files with empty scenes, one of them at two paths. -/
def lampFiles : Files := fun path =>
  if path = "lamp.json" ∨ path = "./lamp.json" then .found "/room/lamp.json" (some "{}")
  else if path = "vase.json" then .found "/room/vase.json" (some "{}")
  else .missing

/-- A lamp is opened and also kept a second time, and the second stage is taken out.  This makes the
file forgotten, so it is read again.  Then a vase is opened, and a file that is not there. -/
def lampHistory : List Call :=
  [.openFile lampFiles 0 "lamp.json",
    .insert ⟨1, { name := "/room/lamp.json", source := some "/room/lamp.json" }⟩,
    .erase 2, .openFile lampFiles 2 "./lamp.json", .openFile lampFiles 3 "vase.json",
    .openFile lampFiles 4 "jug.json"]

/-- The stages that are left have their own ids, the id that was taken out is not given out again,
and each of the two files leads to its own stage. -/
theorem lampHistory_kept :
    let cache : Cache := lampHistory.foldl Call.run {}
    let lamp : Stage := { name := "/room/lamp.json", source := some "/room/lamp.json" }
    let vase : Stage := { name := "/room/vase.json", source := some "/room/vase.json" }
    newStages {} lampHistory = [(1, ⟨0, lamp⟩), (2, ⟨1, lamp⟩), (3, ⟨2, lamp⟩), (4, ⟨3, vase⟩)] ∧
      cache.get? 1 = some ⟨0, lamp⟩ ∧ cache.get? 2 = none ∧
      (∃ shared, cache.get? 3 = some shared ∧ shared.ReadFrom "/room/lamp.json" ∧
        ¬ shared.ReadFrom "/room/vase.json") ∧
      ∃ shared, cache.get? 4 = some shared ∧ shared.ReadFrom "/room/vase.json" ∧
        ¬ shared.ReadFrom "/room/lamp.json" := by
  intro cache lamp vase
  obtain ⟨_, hfind, _, _, _, _, hkept, _⟩ := kept_until_taken_out lampHistory
  have hfiles : pathParts "/room/lamp.json" ≠ pathParts "/room/vase.json" := by decide
  obtain ⟨third, hthird, hlamp⟩ := hfind lampFiles "lamp.json" 3 (by decide)
  obtain ⟨fourth, hfourth, hvase⟩ := hfind lampFiles "vase.json" 4 (by decide)
  refine ⟨by decide, ?_, ?_, ⟨third, hthird, hlamp, fun hother => ?_⟩,
    ⟨fourth, hfourth, hvase, fun hother => ?_⟩⟩
  · rw [hkept [] _ _ 1 ⟨0, lamp⟩ rfl (by decide)]
    rfl
  · rw [hkept [.openFile lampFiles 0 "lamp.json"] _ _ 2 ⟨1, lamp⟩ rfl (by decide)]
    rfl
  · exact hfiles (hlamp.pathParts_eq hother)
  · exact hfiles (hother.pathParts_eq hvase)

end Cache

end MaterialBinding
