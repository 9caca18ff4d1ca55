import MaterialBinding.Files.Basic

/-!
# A cache of stages

A cache keeps stages under ids and remembers which file was read under which id, so that a file is
read once.  Ids are given out in ascending order and never twice, also after stages were taken
out.

Opening a file is made of steps that each look at the cache once: find the id of the file
(`Cache.find?`), get the stage of that id (`Cache.get?`), read the file, and adopt what was read
(`Cache.adopt`).  Several callers may take these steps in any order among each other; whoever
reads a file that another caller has adopted in the meantime is given that caller's stage.
-/

namespace MaterialBinding

/-- A stage that its holders share.  Reading a file twice gives two stages; `mark` tells them
apart. -/
structure SharedStage where
  /-- The mark of the reading that the stage comes from. -/
  mark : Nat
  /-- The stage. -/
  stage : Stage
deriving DecidableEq

/-- The key under which a file is remembered: the names in its path, without those that lead
nowhere.  It begins with a slash if the path starts at the root. -/
def fileKey (path : String) : List String :=
  let names := (path.toList.splitOn '/').map String.ofList
  let telling := names.filter fun name => name ≠ "" && name ≠ "."
  if path.toList.head? = some '/' then "/" :: telling
  else if names.head? = some "." then "." :: telling
  else telling

/-- Stages under ids, and the ids of files. -/
structure Cache where
  /-- The id that is given out next. -/
  nextId : Nat := 1
  /-- The stages by id. -/
  stages : List (Nat × SharedStage) := []
  /-- The ids by file. -/
  sources : List (List String × Nat) := []
deriving DecidableEq

namespace Cache

/-- The number of stages. -/
def size (cache : Cache) : Nat := cache.stages.length

/-- There are no stages. -/
def isEmpty (cache : Cache) : Bool := cache.stages.isEmpty

/-- The stage under an id. -/
def get? (cache : Cache) (id : Nat) : Option SharedStage := cache.stages.lookup id

/-- The key of the file that a path leads to; the path itself, if it leads nowhere. -/
def keyOf (files : Files) (file : String) : List String :=
  match files file with
  | .found canonical _ | .outOfReach canonical => fileKey canonical
  | .missing => fileKey file

/-- The id of the stage that was read from the file. -/
def find? (cache : Cache) (files : Files) (file : String) : Option Nat :=
  cache.sources.lookup (keyOf files file)

/-- Remembers the id of a file in the stead of any older one. -/
def remember (sources : List (List String × Nat)) (key : List String) (id : Nat) :
    List (List String × Nat) :=
  (key, id) :: sources.filter fun source => source.1 ≠ key

/-- Keeps a stage under a new id. -/
def insert (cache : Cache) (shared : SharedStage) : Nat × Cache :=
  (cache.nextId,
    { nextId := cache.nextId + 1
      stages := (cache.nextId, shared) :: cache.stages
      sources :=
        match shared.stage.source with
        | some source => remember cache.sources (fileKey source) cache.nextId
        | none => cache.sources })

/-- Takes out the stage under an id, and returns it. -/
def erase (cache : Cache) (id : Nat) : Option SharedStage × Cache :=
  match cache.get? id with
  | none => (none, cache)
  | some shared =>
    (some shared,
      { cache with
        stages := cache.stages.filter fun entry => entry.1 ≠ id
        sources := cache.sources.filter fun source => source.2 ≠ id })

/-- Takes out all stages; the ids go on from where they were. -/
def clear (cache : Cache) : Cache := { cache with stages := [], sources := [] }

/-- The stage under the id, if both are there. -/
def fetch? (cache : Cache) (id : Option Nat) : Option (Nat × SharedStage) :=
  id.bind fun id => (cache.get? id).map (id, ·)

/-- The stage that is kept for the file of a stage. -/
def rival? (cache : Cache) (shared : SharedStage) : Option (Nat × SharedStage) :=
  cache.fetch? (shared.stage.source.bind fun source => cache.sources.lookup (fileKey source))

/-- Keeps a stage that was read from a file, unless one is kept for that file already; then that
one is given back. -/
def adopt (cache : Cache) (shared : SharedStage) : (Nat × SharedStage) × Cache :=
  match cache.rival? shared with
  | some kept => (kept, cache)
  | none => (((cache.insert shared).1, shared), (cache.insert shared).2)

/-- The stage of a file: the one that is kept, or else the file is read and kept; a stage that is
read now has the given mark. -/
def openFile (cache : Cache) (files : Files) (mark : Nat) (file : String) :
    Except Error ((Nat × SharedStage) × Cache) :=
  match cache.fetch? (cache.find? files file) with
  | some kept => .ok (kept, cache)
  | none =>
    match Stage.openFile files file with
    | .error error => .error error
    | .ok stage => .ok (cache.adopt ⟨mark, stage⟩)

/-- Several callers, one for each mark, open the same file. -/
def openMany (files : Files) (file : String) :
    Cache → List Nat → Except Error (List (Nat × SharedStage) × Cache)
  | cache, [] => .ok ([], cache)
  | cache, mark :: marks =>
    match cache.openFile files mark file with
    | .error error => .error error
    | .ok (kept, cache) =>
      match openMany files file cache marks with
      | .error error => .error error
      | .ok (others, cache) => .ok (kept :: others, cache)

end Cache

end MaterialBinding
