import MaterialBinding.Proofs.Files.WellKept

/-!
# Callers who open files at the same time

Opening a file takes up to four steps: look for the id of the file, get the stage of that id, read
the file, adopt what was read.  Each step looks at the cache once, or not at all, and `Progress`
says how far a caller has come.  A caller whom nobody disturbs gets what `Cache.openFile` gives
(`Progress.advance_alone`).

In a `Session` any number of callers take their steps in any order, and stages are erased and the
cache is cleared in between.  At no time are two stages of one file in the cache
(`EachFileOnce`), because a caller who has read a file looks once more before the stage is kept.
As long as nothing is taken out, all who open one file get the same stage, and those who open
different files get different stages (`Session.same_stage_of_same_file`).
-/

namespace MaterialBinding

namespace Cache

/-- How far a caller has come who opens a file. -/
inductive Progress where
  /-- The caller has done nothing yet. -/
  | waiting
  /-- The file is remembered under an id. -/
  | found (id : Nat)
  /-- No stage is kept for the file. -/
  | missed
  /-- The file was read. -/
  | read (shared : SharedStage)
  /-- The caller has an answer. -/
  | done (answer : Except Error (Nat × SharedStage))

/-- The next step of a caller, and the cache after it; a stage that is read now has the given
mark. -/
def Progress.advance (files : Files) (file : String) (mark : Nat) (cache : Cache) :
    Progress → Progress × Cache
  | waiting =>
    match cache.find? files file with
    | some id => (found id, cache)
    | none => (missed, cache)
  | found id =>
    match cache.get? id with
    | some shared => (done (.ok (id, shared)), cache)
    | none => (missed, cache)
  | missed =>
    match Stage.openFile files file with
    | .ok stage => (read ⟨mark, stage⟩, cache)
    | .error error => (done (.error error), cache)
  | read shared => (done (.ok (cache.adopt shared).1), (cache.adopt shared).2)
  | done answer => (done answer, cache)

/-- **Alone.**  If nobody comes in between, the steps of a caller make up `Cache.openFile`. -/
theorem Progress.advance_alone (files : Files) (file : String) (mark : Nat) (cache : Cache) :
    let next := fun state : Progress × Cache => state.1.advance files file mark state.2
    next (next (next (next (waiting, cache)))) =
      match cache.openFile files mark file with
      | .ok (kept, changed) => (done (.ok kept), changed)
      | .error error => (done (.error error), cache) := by
  intro next
  -- A caller who has missed is done after two more steps.
  have hmissed : next (next (missed, cache)) =
      match Stage.openFile files file with
      | .ok stage => (done (.ok (cache.adopt ⟨mark, stage⟩).1), (cache.adopt ⟨mark, stage⟩).2)
      | .error error => (done (.error error), cache) := by
    simp only [next, advance]
    cases Stage.openFile files file <;> rfl
  have hdone : ∀ answer changed, next (done answer, changed) = (done answer, changed) :=
    fun _ _ => rfl
  rw [openFile]
  cases hfind : cache.find? files file with
  | none =>
      have hfirst : next (waiting, cache) = (missed, cache) := by simp only [next, advance, hfind]
      rw [hfirst, hmissed]
      cases Stage.openFile files file <;> rfl
  | some id =>
      have hfirst : next (waiting, cache) = (found id, cache) := by simp only [next, advance, hfind]
      rw [hfirst]
      cases hget : cache.get? id with
      | none =>
          have hsecond : next (found id, cache) = (missed, cache) := by
            simp only [next, advance, hget]
          rw [hsecond, hmissed]
          simp only [fetch?, Option.bind_some, hget, Option.map_none]
          cases Stage.openFile files file <;> rfl
      | some shared =>
          have hsecond : next (found id, cache) = (done (.ok (id, shared)), cache) := by
            simp only [next, advance, hget]
          rw [hsecond, hdone, hdone]
          simp only [fetch?, Option.bind_some, hget, Option.map_some]

/-! ## Sessions -/

/-- A cache and the callers who use it at the same time. -/
structure Session where
  /-- The cache. -/
  cache : Cache := {}
  /-- The mark for the next stage that is read. -/
  nextMark : Nat := 0
  /-- The file that each caller opens, and how far the caller has come. -/
  callers : List (String × Progress)

/-- What can happen next: a caller takes a step, or stages are taken out. -/
inductive Move where
  | advance (caller : Nat)
  | erase (id : Nat)
  | clear
deriving DecidableEq

namespace Session

/-- All callers are about to begin, and the cache is empty. -/
def start (requests : List String) : Session :=
  { callers := requests.map fun file => (file, .waiting) }

/-- What happens in a move. -/
def move (files : Files) (session : Session) : Move → Session
  | .advance caller =>
    match session.callers[caller]? with
    | none => session
    | some (file, progress) =>
      let after := progress.advance files file session.nextMark session.cache
      { cache := after.2
        nextMark := session.nextMark + 1
        callers := session.callers.set caller (file, after.1) }
  | .erase id => { session with cache := (session.cache.erase id).2 }
  | .clear => { session with cache := session.cache.clear }

end Session

/-! ## Every file once -/

/-- Every stage was read from a file, and the file leads to it. -/
def EachFileOnce (cache : Cache) : Prop :=
  ∀ id shared, cache.get? id = some shared →
    ∃ key, shared.key? = some key ∧ cache.sources.lookup key = some id

variable {cache : Cache} {shared : SharedStage} {id : Nat} {key : List String} {files : Files}
  {file : String} {mark : Nat}

namespace EachFileOnce

/-- The empty cache has no stage of any file. -/
theorem empty : EachFileOnce {} := nofun

/-- A cleared cache has no stage of any file. -/
theorem clear : cache.clear.EachFileOnce := nofun

/-- Two stages of one file are one. -/
theorem eq_of_key? (honce : cache.EachFileOnce) {other : Nat} {kept : SharedStage}
    (hget : cache.get? id = some shared) (hother : cache.get? other = some kept)
    (hkey : shared.key? = kept.key?) : (id, shared) = (other, kept) := by
  obtain ⟨key, hshared, hlookup⟩ := honce id shared hget
  obtain ⟨key', hkept, hlookup'⟩ := honce other kept hother
  obtain rfl : key = key' := Option.some.inj (hshared.symm.trans (hkey.trans hkept))
  obtain rfl : id = other := Option.some.inj (hlookup.symm.trans hlookup')
  rw [Option.some.inj (hget.symm.trans hother)]

/-- The file of a stage that is kept leads to it. -/
theorem exists_lookup_source (honce : cache.EachFileOnce) (hget : cache.get? id = some shared) :
    ∃ source, shared.stage.source = some source ∧
      cache.sources.lookup (fileKey source) = some id := by
  obtain ⟨key, hkey, hlookup⟩ := honce id shared hget
  obtain ⟨source, hsource, rfl⟩ := Option.map_eq_some_iff.mp hkey
  exact ⟨source, hsource, hlookup⟩

/-- Whoever looks for the file of a stage that is kept finds this stage. -/
theorem find?_eq_of_readFrom (honce : cache.EachFileOnce) (hget : cache.get? id = some shared)
    (hfrom : shared.ReadFrom (files.canonicalOf file)) : cache.find? files file = some id := by
  obtain ⟨key, hkey, hlookup⟩ := honce id shared hget
  rw [readFrom_canonicalOf_iff] at hfrom
  have hsame : key = keyOf files file := Option.some.inj (hkey.symm.trans hfrom)
  rwa [find?, ← hsame]

/-- Two stages that are kept are one exactly if their files are. -/
theorem eq_iff_pathParts_eq (honce : cache.EachFileOnce) {other : Nat} {kept : SharedStage}
    {path otherPath : String} (hget : cache.get? id = some shared)
    (hother : cache.get? other = some kept) (hfrom : shared.ReadFrom path)
    (hotherFrom : kept.ReadFrom otherPath) :
    (other, kept) = (id, shared) ↔ pathParts otherPath = pathParts path := by
  constructor
  · intro heq
    obtain ⟨rfl, rfl⟩ := Prod.mk.inj heq
    exact hotherFrom.pathParts_eq hfrom
  · intro hparts
    have hkey : shared.key? = some (fileKey path) := SharedStage.readFrom_iff_key?.mp hfrom
    have hotherKey : kept.key? = some (fileKey otherPath) :=
      SharedStage.readFrom_iff_key?.mp hotherFrom
    have hsame : kept.key? = shared.key? := by rw [hotherKey, hkey, fileKey_eq_iff.mpr hparts]
    exact honce.eq_of_key? hother hget hsame

variable (h : cache.WellKept)

include h

/-- Taking a stage out makes no second one of its file. -/
theorem erase (honce : cache.EachFileOnce) (id : Nat) : (cache.erase id).2.EachFileOnce := by
  intro other shared hget
  rw [h.get?_erase] at hget
  by_cases hne : other = id
  · rw [if_pos hne] at hget
    cases hget
  · rw [if_neg hne] at hget
    obtain ⟨key, hkey, hlookup⟩ := honce other shared hget
    refine ⟨key, hkey, ?_⟩
    rw [lookup_eq_some_iff_mem (h.erase id).nodup_keys, h.mem_sources_erase]
    exact ⟨mem_of_lookup hlookup, hne⟩

/-- A stage is kept only if its file leads nowhere, so no stage of this file is in the cache. -/
theorem adopt (honce : cache.EachFileOnce) (hkey : shared.key? = some key) :
    (cache.adopt shared).2.EachFileOnce := by
  obtain ⟨kept, _, hadopt⟩ | ⟨hrival, hadopt⟩ := cache.adopt_cases shared
  · rwa [hadopt]
  · have hfree : cache.sources.lookup key = none := h.lookup_eq_none hkey hrival
    rw [hadopt]
    intro id other hget
    simp only [lookup_eq_some_iff_mem (h.insert shared).nodup_keys, mem_sources_insert]
    rw [get?_insert] at hget
    by_cases hid : id = cache.nextId
    · rw [if_pos hid] at hget
      obtain rfl := Option.some.inj hget
      exact ⟨key, hkey, Or.inl ⟨hkey, hid⟩⟩
    · rw [if_neg hid] at hget
      obtain ⟨otherKey, hother, hlookup⟩ := honce id other hget
      have hne : shared.key? ≠ some otherKey := by
        rw [hkey]
        rintro heq
        rw [← Option.some.inj heq, hfree] at hlookup
        cases hlookup
      exact ⟨otherKey, hother, Or.inr ⟨hne, mem_of_lookup hlookup⟩⟩

end EachFileOnce

/-! ## What callers know -/

/-- A caller who has read a file has a stage of this file, and a caller who has failed could not
read it. -/
def Progress.OfFile (files : Files) (file : String) : Progress → Prop
  | read shared => shared.key? = some (keyOf files file)
  | done (.error error) => Stage.openFile files file = .error error
  | waiting | found _ | missed | done (.ok _) => True

/-- The most steps that a caller can still take. -/
def Progress.stepsLeft : Progress → Nat
  | waiting => 4
  | found _ => 3
  | missed => 2
  | read _ => 1
  | done _ => 0

/-- What a caller has found is kept, and is a stage of the file. -/
def Progress.Agrees (files : Files) (file : String) (cache : Cache) : Progress → Prop
  | found id => ∃ shared, cache.get? id = some shared ∧ shared.key? = some (keyOf files file)
  | done (.ok (id, shared)) =>
    cache.get? id = some shared ∧ shared.key? = some (keyOf files file)
  | waiting | missed | read _ | done (.error _) => True

namespace Progress

variable {progress : Progress}

/-- Only a caller who has read a file changes the cache. -/
theorem advance_cases (files : Files) (file : String) (mark : Nat) (cache : Cache)
    (progress : Progress) :
    (progress.advance files file mark cache).2 = cache ∨
      ∃ shared, progress = .read shared ∧ progress.advance files file mark cache =
        (.done (.ok (cache.adopt shared).1), (cache.adopt shared).2) := by
  cases progress with
  | waiting | found | missed =>
      left
      rw [advance]
      split <;> rfl
  | read shared => exact Or.inr ⟨shared, rfl, rfl⟩
  | done answer => exact Or.inl rfl

/-- A step keeps the cache in order and takes nothing out. -/
theorem cache_advance (h : cache.WellKept) (honce : cache.EachFileOnce)
    (hprogress : progress.OfFile files file) :
    let after := (progress.advance files file mark cache).2
    after.WellKept ∧ after.EachFileOnce ∧
      ∀ id shared, cache.get? id = some shared → after.get? id = some shared := by
  intro after
  obtain hsame | ⟨shared, rfl, hadvance⟩ := advance_cases files file mark cache progress
  · have hafter : after = cache := hsame
    rw [hafter]
    exact ⟨h, honce, fun _ _ => id⟩
  · have hafter : after = (cache.adopt shared).2 := congrArg Prod.snd hadvance
    rw [hafter]
    exact ⟨h.adopt shared, honce.adopt h hprogress, fun _ _ hget => h.get?_adopt hget shared⟩

/-- A step reads no other file. -/
theorem ofFile_advance (hprogress : progress.OfFile files file) :
    (progress.advance files file mark cache).1.OfFile files file := by
  cases progress with
  | waiting | found =>
      rw [advance]
      split <;> trivial
  | missed =>
      rw [advance]
      cases hopen : Stage.openFile files file with
      | ok stage => exact key?_of_openFile hopen
      | error error => exact hopen
  | read shared => trivial
  | done answer => exact hprogress

/-- A caller without steps left has an answer. -/
theorem eq_done_of_stepsLeft (hzero : progress.stepsLeft = 0) :
    ∃ answer, progress = .done answer := by
  cases progress with
  | done answer => exact ⟨answer, rfl⟩
  | waiting | found | missed | read => exact absurd hzero (Nat.succ_ne_zero _)

/-- Each step of a caller takes one off those that are left. -/
theorem stepsLeft_advance :
    (progress.advance files file mark cache).1.stepsLeft ≤ progress.stepsLeft - 1 := by
  cases progress with
  | waiting | found | missed =>
      rw [advance]
      split <;> simp [stepsLeft]
  | read | done => exact Nat.le_refl _

/-- What a caller has found stays found in a cache that keeps more. -/
theorem Agrees.mono {other : Cache} (hagrees : progress.Agrees files file cache)
    (hgrows : ∀ id shared, cache.get? id = some shared → other.get? id = some shared) :
    progress.Agrees files file other := by
  match progress, hagrees with
  | found id, ⟨shared, hget, hkey⟩ => exact ⟨shared, hgrows id shared hget, hkey⟩
  | done (.ok (id, shared)), ⟨hget, hkey⟩ => exact ⟨hgrows id shared hget, hkey⟩
  | waiting, _ | missed, _ | read _, _ | done (.error _), _ => trivial

/-- What a step finds is kept, and is a stage of the file. -/
theorem agrees_advance (h : cache.WellKept) (hprogress : progress.OfFile files file)
    (hagrees : progress.Agrees files file cache) :
    (progress.advance files file mark cache).1.Agrees files file
      (progress.advance files file mark cache).2 := by
  cases progress with
  | waiting =>
      rw [advance]
      cases hfind : cache.find? files file with
      | some id => exact h.get?_of_lookup hfind
      | none => trivial
  | found id =>
      obtain ⟨shared, hget, hkey⟩ := hagrees
      rw [advance, hget]
      exact ⟨hget, hkey⟩
  | missed =>
      rw [advance]
      split <;> trivial
  | read shared => exact h.get?_adopt_self hprogress
  | done answer => exact hagrees

end Progress

/-! ## What happens in a session -/

namespace Session

/-- Every file is in the cache at most once, and callers have read the files that they open. -/
structure Orderly (files : Files) (session : Session) : Prop where
  wellKept : session.cache.WellKept
  eachFileOnce : session.cache.EachFileOnce
  ofFile : ∀ caller ∈ session.callers, caller.2.OfFile files caller.1

/-- The callers have found nothing but what is in the cache. -/
def Settled (files : Files) (session : Session) : Prop :=
  ∀ caller ∈ session.callers, caller.2.Agrees files caller.1 session.cache

variable {session : Session}

/-- Callers that have not begun are in order. -/
theorem orderly_start (requests : List String) : (start requests).Orderly files where
  wellKept := WellKept.empty
  eachFileOnce := EachFileOnce.empty
  ofFile caller hmem := by
    obtain ⟨file, _, rfl⟩ := List.mem_map.mp hmem
    trivial

/-- Callers that have not begun have found nothing. -/
theorem settled_start (requests : List String) : (start requests).Settled files := by
  intro caller hmem
  obtain ⟨file, _, rfl⟩ := List.mem_map.mp hmem
  trivial

/-- **No move brings a file into the cache twice.** -/
theorem Orderly.move (h : session.Orderly files) (move : Move) :
    (session.move files move).Orderly files := by
  cases move with
  | erase id => exact ⟨h.wellKept.erase id, h.eachFileOnce.erase h.wellKept id, h.ofFile⟩
  | clear => exact ⟨WellKept.clear, EachFileOnce.clear, h.ofFile⟩
  | advance caller =>
      rw [Session.move]
      cases hcaller : session.callers[caller]? with
      | none => exact h
      | some entry =>
          obtain ⟨file, progress⟩ := entry
          have hprogress : progress.OfFile files file := h.ofFile _ (List.mem_of_getElem? hcaller)
          obtain ⟨hkept, honce, _⟩ := progress.cache_advance h.wellKept h.eachFileOnce hprogress
          refine ⟨hkept, honce, fun other hother => ?_⟩
          obtain hmem | rfl := List.mem_or_eq_of_mem_set hother
          · exact h.ofFile other hmem
          · exact Progress.ofFile_advance hprogress

/-- **No step of a caller makes what another has found vanish.** -/
theorem Settled.advance (h : session.Orderly files) (hsettled : session.Settled files)
    (caller : Nat) : (session.move files (.advance caller)).Settled files := by
  rw [Session.move]
  cases hcaller : session.callers[caller]? with
  | none => exact hsettled
  | some entry =>
      obtain ⟨file, progress⟩ := entry
      have hmem := List.mem_of_getElem? hcaller
      have hprogress : progress.OfFile files file := h.ofFile _ hmem
      obtain ⟨_, _, hgrows⟩ := progress.cache_advance h.wellKept h.eachFileOnce hprogress
      intro other hother
      obtain hother | rfl := List.mem_or_eq_of_mem_set hother
      · exact (hsettled other hother).mono hgrows
      · exact Progress.agrees_advance h.wellKept hprogress (hsettled _ hmem)

/-- **The session stays in order** after any moves. -/
theorem Orderly.foldl (h : session.Orderly files) (moves : List Move) :
    (moves.foldl (Session.move files) session).Orderly files := by
  induction moves generalizing session with
  | nil => exact h
  | cons move rest ih => exact ih (h.move move)

/-- **What was found stays in the cache** while the callers alone move. -/
theorem Settled.foldl (h : session.Orderly files) (hsettled : session.Settled files)
    {moves : List Move} (hquiet : ∀ move ∈ moves, ∃ caller, move = .advance caller) :
    (moves.foldl (Session.move files) session).Settled files := by
  induction moves generalizing session with
  | nil => exact hsettled
  | cons move rest ih =>
      obtain ⟨⟨caller, rfl⟩, hrest⟩ := List.forall_mem_cons.mp hquiet
      exact ih (h.move _) (hsettled.advance h caller) hrest

/-- A caller who takes a step has fewer steps left, and no other move brings a caller back. -/
theorem stepsLeft_move (files : Files) {caller : Nat} {progress : Progress}
    (hcaller : session.callers[caller]? = some (file, progress)) (move : Move) :
    ∃ after, (session.move files move).callers[caller]? = some (file, after) ∧
      after.stepsLeft ≤ progress.stepsLeft - [move].count (.advance caller) := by
  cases move with
  | erase id => exact ⟨progress, hcaller, Nat.le_refl _⟩
  | clear => exact ⟨progress, hcaller, Nat.le_refl _⟩
  | advance other =>
      rw [Session.move]
      by_cases heq : other = caller
      · subst heq
        rw [hcaller, List.count_singleton_self]
        have hlt : other < session.callers.length := (List.getElem?_eq_some_iff.mp hcaller).1
        exact ⟨_, List.getElem?_set_self hlt, Progress.stepsLeft_advance⟩
      · have hcount : [Move.advance other].count (.advance caller) = 0 := by
          rw [List.count_eq_zero, List.mem_singleton]
          exact fun hsame => heq (Move.advance.inj hsame).symm
        rw [hcount]
        cases session.callers[other]? with
        | none => exact ⟨progress, hcaller, Nat.le_refl _⟩
        | some entry =>
            refine ⟨progress, ?_, Nat.le_refl _⟩
            rw [← hcaller]
            exact List.getElem?_set_ne heq

/-- Each move of a caller takes one off its steps, and moves of others take off none. -/
theorem stepsLeft_foldl (files : Files) {caller : Nat} {progress : Progress}
    (hcaller : session.callers[caller]? = some (file, progress)) (moves : List Move) :
    ∃ after, (moves.foldl (Session.move files) session).callers[caller]? = some (file, after) ∧
      after.stepsLeft ≤ progress.stepsLeft - moves.count (.advance caller) := by
  induction moves generalizing session progress with
  | nil => exact ⟨progress, hcaller, Nat.le_refl _⟩
  | cons move rest ih =>
      obtain ⟨next, hnext, hstep⟩ := stepsLeft_move files hcaller move
      obtain ⟨after, hafter, hrest⟩ := ih hnext
      refine ⟨after, hafter, ?_⟩
      rw [← List.singleton_append, List.count_append]
      omega

/-- The entries of a file are the one that is known. -/
theorem Orderly.filter_eq (h : session.Orderly files) {path : String}
    (hget : session.cache.get? id = some shared) (hfrom : shared.ReadFrom path) :
    (session.cache.stages.filter fun entry =>
      entry.2.stage.source.map pathParts = some (pathParts path)) = [(id, shared)] := by
  have hkey : shared.key? = some (fileKey path) := SharedStage.readFrom_iff_key?.mp hfrom
  have hnodup : (session.cache.stages.filter fun entry =>
      entry.2.stage.source.map pathParts = some (pathParts path)).Nodup :=
    (List.Nodup.of_map _ h.wellKept.nodup_ids).filter _
  refine List.perm_singleton.mp
    ((List.perm_ext_iff_of_nodup hnodup (List.nodup_singleton _)).mpr fun entry => ?_)
  obtain ⟨other, kept⟩ := entry
  rw [List.mem_filter, List.mem_singleton, ← h.wellKept.get?_eq_some_iff, decide_eq_true_eq,
    SharedStage.map_pathParts_eq_iff]
  constructor
  · rintro ⟨hother, hsame⟩
    exact h.eachFileOnce.eq_of_key? hother hget (hsame.trans hkey.symm)
  · rintro heq
    obtain ⟨rfl, rfl⟩ := Prod.mk.inj heq
    exact ⟨hget, hkey⟩

/-- A caller who has moved four times has an answer, and it is an error only if the file cannot be
read. -/
theorem Orderly.exists_answer {requests : List String} {moves : List Move}
    (h : (moves.foldl (Session.move files) (start requests)).Orderly files) {caller : Nat}
    (hrequest : requests[caller]? = some file) (hsteps : 4 ≤ moves.count (.advance caller)) :
    ∃ answer, (moves.foldl (Session.move files) (start requests)).callers[caller]? =
        some (file, .done answer) ∧
      ∀ error, answer = .error error → Stage.openFile files file = .error error := by
  have hcaller : (start requests).callers[caller]? = some (file, .waiting) := by
    rw [start, List.getElem?_map, hrequest]
    rfl
  obtain ⟨progress, hprogress, hleft⟩ := stepsLeft_foldl files hcaller moves
  have hzero : progress.stepsLeft = 0 := by
    rw [Progress.stepsLeft] at hleft
    omega
  obtain ⟨answer, rfl⟩ := Progress.eq_done_of_stepsLeft hzero
  have hanswer : (Progress.done answer).OfFile files file :=
    h.ofFile _ (List.mem_of_getElem? hprogress)
  refine ⟨answer, hprogress, fun error herror => ?_⟩
  subst herror
  exact hanswer

/-- **Callers who open one file share one stage**, after any moves of any number of callers.

* Every stage in the cache was read from a file that leads to it, and no file is in the cache twice.
* If nothing was taken out, then each caller with an answer was given a stage of the very file that
  the caller opens, which is the one stage of this file in the cache, and to which the file leads.
  Two callers were given the same stage under the same id exactly if their files are the same, by
  whatever paths they came.
* A caller has an answer after four steps, and it is an error only if the file cannot be read.
* The four steps of a caller whom nobody disturbs make up `Cache.openFile`. -/
theorem same_stage_of_same_file (files : Files) (requests : List String) (moves : List Move) :
    let session := moves.foldl (Session.move files) (start requests)
    let stages := session.cache.stages
    (∀ entry ∈ stages, ∃ source, entry.2.stage.source = some source ∧
        session.cache.sources.lookup (fileKey source) = some entry.1) ∧
      (∀ first ∈ stages, ∀ second ∈ stages, ∀ path,
        first.2.ReadFrom path → second.2.ReadFrom path → first = second) ∧
      ((∀ move ∈ moves, ∃ caller, move = .advance caller) →
        ∀ file kept, (file, .done (.ok kept)) ∈ session.callers →
          let path := files.canonicalOf file
          kept.2.ReadFrom path ∧ session.cache.find? files file = some kept.1 ∧
            (stages.filter fun entry =>
              entry.2.stage.source.map pathParts = some (pathParts path)) = [kept] ∧
            ∀ other otherKept, (other, .done (.ok otherKept)) ∈ session.callers →
              (otherKept = kept ↔ pathParts (files.canonicalOf other) = pathParts path)) ∧
      (∀ (caller : Nat) file, requests[caller]? = some file →
        4 ≤ moves.count (.advance caller) →
          ∃ answer, session.callers[caller]? = some (file, .done answer) ∧
            ∀ error, answer = .error error → Stage.openFile files file = .error error) ∧
      ∀ file mark cache,
        let next := fun state : Progress × Cache => state.1.advance files file mark state.2
        next (next (next (next (.waiting, cache)))) =
          match cache.openFile files mark file with
          | .ok (kept, changed) => (.done (.ok kept), changed)
          | .error error => (.done (.error error), cache) := by
  intro session stages
  have h : session.Orderly files := (orderly_start requests).foldl moves
  have hkept : ∀ id shared, (id, shared) ∈ stages → session.cache.get? id = some shared :=
    fun id shared hmem => h.wellKept.get?_eq_some_iff.mpr hmem
  refine ⟨?_, ?_, ?_, ?_, fun file mark cache => Progress.advance_alone files file mark cache⟩
  · intro entry hmem
    obtain ⟨id, shared⟩ := entry
    exact h.eachFileOnce.exists_lookup_source (hkept id shared hmem)
  · intro first hfirst second hsecond path hfrom hsecondFrom
    obtain ⟨id, shared⟩ := first
    obtain ⟨other, kept⟩ := second
    exact (h.eachFileOnce.eq_iff_pathParts_eq (hkept other kept hsecond) (hkept id shared hfirst)
      hsecondFrom hfrom).mpr rfl
  · intro hquiet file kept hfile path
    obtain ⟨id, shared⟩ := kept
    have hsettled : session.Settled files :=
      (settled_start requests).foldl (orderly_start requests) hquiet
    have hanswer : ∀ other otherId otherShared,
        (other, .done (.ok (otherId, otherShared))) ∈ session.callers →
          session.cache.get? otherId = some otherShared ∧
            otherShared.ReadFrom (files.canonicalOf other) := by
      intro other otherId otherShared hother
      obtain ⟨hget, hkey⟩ := hsettled _ hother
      exact ⟨hget, readFrom_canonicalOf_iff.mpr hkey⟩
    obtain ⟨hget, hfrom⟩ := hanswer file id shared hfile
    refine ⟨hfrom, h.eachFileOnce.find?_eq_of_readFrom hget hfrom, h.filter_eq hget hfrom, ?_⟩
    intro other otherKept hother
    obtain ⟨hotherGet, hotherFrom⟩ := hanswer other otherKept.1 otherKept.2 hother
    exact h.eachFileOnce.eq_iff_pathParts_eq hget hotherGet hfrom hotherFrom
  · intro caller file hrequest hsteps
    exact h.exists_answer hrequest hsteps

/-- Two files with empty scenes, one of them at two paths. -/
def vaseFiles : Files := fun path =>
  if path = "vase.json" ∨ path = "./vase.json" then .found "/room/vase.json" (some "{}")
  else if path = "jug.json" then .found "/room/jug.json" (some "{}")
  else .missing

/-- Two callers read one file under different paths before either has kept a stage, and the second
is faster; a third one comes later.  A fourth opens another file in the meantime. -/
def vaseMoves : List Move :=
  [.advance 0, .advance 1, .advance 3, .advance 0, .advance 1, .advance 1, .advance 3, .advance 0,
    .advance 3, .advance 2, .advance 2]

/-- The three who open the vase are given the stage that the second caller has read, and the fourth
is given another. -/
theorem vaseMoves_same_stage :
    let session := vaseMoves.foldl (Session.move vaseFiles)
      (start ["vase.json", "./vase.json", "vase.json", "jug.json"])
    let vase : SharedStage :=
      ⟨4, { name := "/room/vase.json", source := some "/room/vase.json" }⟩
    let jug : SharedStage := ⟨6, { name := "/room/jug.json", source := some "/room/jug.json" }⟩
    session.callers = [("vase.json", .done (.ok (1, vase))), ("./vase.json", .done (.ok (1, vase))),
        ("vase.json", .done (.ok (1, vase))), ("jug.json", .done (.ok (2, jug)))] ∧
      (∀ move ∈ vaseMoves, ∃ caller, move = .advance caller) ∧
      vase.ReadFrom "/room/vase.json" ∧
      (session.cache.stages.filter fun entry =>
        entry.2.stage.source.map pathParts = some (pathParts "/room/vase.json")) = [(1, vase)] ∧
      pathParts (vaseFiles.canonicalOf "jug.json") ≠ pathParts "/room/vase.json" := by
  intro session vase jug
  have hcallers : session.callers = [("vase.json", .done (.ok (1, vase))),
      ("./vase.json", .done (.ok (1, vase))), ("vase.json", .done (.ok (1, vase))),
      ("jug.json", .done (.ok (2, jug)))] := by rfl
  have hquiet : ∀ move ∈ vaseMoves, ∃ caller, move = .advance caller := by
    simp [vaseMoves]
  have hvase : ("./vase.json", .done (.ok (1, vase))) ∈ session.callers := by
    rw [hcallers]
    exact List.mem_cons_of_mem _ (List.mem_cons_self ..)
  have hjug : ("jug.json", .done (.ok (2, jug))) ∈ session.callers := by
    rw [hcallers]
    exact List.mem_of_getElem? (i := 3) rfl
  obtain ⟨_, _, hshared, _⟩ := same_stage_of_same_file vaseFiles
    ["vase.json", "./vase.json", "vase.json", "jug.json"] vaseMoves
  obtain ⟨hfrom, _, hentries, hothers⟩ := hshared hquiet "./vase.json" (1, vase) hvase
  refine ⟨hcallers, hquiet, hfrom, hentries, fun hparts => ?_⟩
  have hsame : (2, jug) = (1, vase) := (hothers "jug.json" (2, jug) hjug).mpr hparts
  exact absurd (congrArg Prod.fst hsame) (by decide)

end Session

end Cache

end MaterialBinding
