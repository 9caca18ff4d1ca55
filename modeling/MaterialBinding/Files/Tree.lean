import MaterialBinding.Files.Basic

/-!
# A file tree in memory

Directories, files and symbolic links, each at a list of names below the root.
`FileTree.resolve?` follows a path as an operating system does: one name after the other, through
links, up at `..`, and only through directories.  Links may lead in circles, so only so many are
followed.

`FileTree.write` follows a path in the same way, except that nothing need stand at its end: the
file is made there.  So a text that is written to a link which leads nowhere yet makes the file
that the link is for.
-/

namespace MaterialBinding

/-- What stands at a place of a file tree. -/
inductive FileEntry where
  /-- A file with its text; a file without text holds something else. -/
  | file (content : Option String)
  /-- A directory. -/
  | directory
  /-- A symbolic link. -/
  | link (target : String)
deriving DecidableEq

/-- Files and directories below a root, and the directory from which paths start. -/
structure FileTree where
  /-- What stands where; the root itself is always a directory. -/
  entries : List (List String × FileEntry) := []
  /-- The directory from which relative paths start. -/
  workingDirectory : List String := []
deriving DecidableEq

namespace FileTree

/-- The names in a path, those that say nothing among them. -/
def namesOf (path : String) : List String := (path.toList.splitOn '/').map String.ofList

/-- The path starts at the root. -/
def isAbsolute (path : String) : Bool := path.toList.head? = some '/'

/-- What stands at a place. -/
def entry? (tree : FileTree) (place : List String) : Option FileEntry :=
  if place = [] then some .directory else tree.entries.lookup place

/-- The place is a directory. -/
def isDirectory (tree : FileTree) (place : List String) : Bool :=
  tree.entry? place = some .directory

/-- The number of links that may be followed on the way of one path. -/
def linkLimit : Nat := 40

/-- The bytes that a name may have. -/
def nameLimit : Nat := 255

/-- The bytes that a path may have to be opened. -/
def pathLimit : Nat := 4095

/-- An entry can have that name. -/
def isEntryName (name : String) : Bool :=
  name.utf8ByteSize ≤ nameLimit && '\x00' ∉ name.toList

/-- Follows names from a place on, through at most so many links.  Something must stand at every
place on the way, except that the last one may be free if `making` says so. -/
def follow? (tree : FileTree) (making : Bool) (links : Nat) (place : List String) :
    List String → Option (List String)
  | [] => some place
  | name :: names =>
    if !tree.isDirectory place then none
    else if name = "" || name = "." then tree.follow? making links place names
    else if name = ".." then tree.follow? making links place.dropLast names
    else
      match tree.entry? (place ++ [name]), links with
      | none, _ => if making && names = [] && isEntryName name then some (place ++ [name]) else none
      | some (.link _), 0 => none
      | some (.link target), links + 1 =>
        tree.follow? making links (if isAbsolute target then [] else place)
          (namesOf target ++ names)
      | some _, links => tree.follow? making links (place ++ [name]) names
termination_by names => (links, names.length)

/-- The place from which a path starts. -/
def startOf (tree : FileTree) (path : String) : List String :=
  if isAbsolute path then [] else tree.workingDirectory

/-- The place that a path leads to. -/
def resolve? (tree : FileTree) (path : String) : Option (List String) :=
  if path = "" then none else tree.follow? false linkLimit (tree.startOf path) (namesOf path)

/-- The place of the file that is written at a path, whether it is there or is to be made. -/
def destination? (tree : FileTree) (path : String) : Option (List String) :=
  if path = "" || path.utf8ByteSize > pathLimit then none
  else tree.follow? true linkLimit (tree.startOf path) (namesOf path)

/-- The path of a place. -/
def pathOf (place : List String) : String := "/" ++ String.intercalate "/" place

/-- Where paths lead. -/
def files (tree : FileTree) : Files := fun path =>
  match tree.resolve? path with
  | none => .missing
  | some place =>
    if path.utf8ByteSize > pathLimit then .outOfReach (pathOf place)
    else
      match tree.entry? place with
      | some (.file content) => .found (pathOf place) content
      | _ => .found (pathOf place) none

/-- Takes out what stands at a place. -/
def eraseAt (tree : FileTree) (place : List String) : FileTree :=
  { tree with entries := tree.entries.filter fun entry => entry.1 ≠ place }

/-- Puts an entry at a place, in the stead of what stands there. -/
def putAt (tree : FileTree) (place : List String) (entry : FileEntry) : FileTree :=
  { tree.eraseAt place with entries := (place, entry) :: (tree.eraseAt place).entries }

/-- Follows names from a place on and makes the directories that are missing on the way. -/
def enter (tree : FileTree) (place : List String) : List String → FileTree × List String
  | [] => (tree, place)
  | name :: names =>
    match tree.follow? false linkLimit place [name] with
    | some place => tree.enter place names
    | none => (tree.putAt (place ++ [name]) .directory).enter (place ++ [name]) names

/-- Puts an entry at a path, in the stead of a file or link there, and makes the directories above
it; a directory stays.  The path may end in slashes. -/
def put (tree : FileTree) (path : String) (entry : FileEntry) : FileTree :=
  let names := (namesOf path).filter fun name => name ≠ "" && name ≠ "."
  match names.getLast? with
  | none | some ".." => tree
  | some name =>
    let (tree, above) := tree.enter (tree.startOf path) names.dropLast
    if tree.isDirectory (above ++ [name]) then tree else tree.putAt (above ++ [name]) entry

/-- The place of the entry that a path ends in, which may be a link; the path may not end in a
slash. -/
def entryPlace? (tree : FileTree) (path : String) : Option (List String) :=
  match (namesOf path).getLast? with
  | none | some "" | some "." | some ".." => none
  | some name =>
    if path.utf8ByteSize > pathLimit then none
    else
      (tree.follow? false linkLimit (tree.startOf path) (namesOf path).dropLast).map (· ++ [name])

/-- Takes out the file or link with that path; a directory stays. -/
def erase (tree : FileTree) (path : String) : FileTree :=
  match tree.entryPlace? path with
  | none => tree
  | some place => if tree.isDirectory place then tree else tree.eraseAt place

/-- Writes a text to a file, which is made if there is none. -/
def write (tree : FileTree) (path text : String) : Except Error FileTree :=
  match tree.destination? path with
  | none => .error .fileUnusable
  | some place =>
    if tree.isDirectory place then .error .fileUnusable
    else .ok (tree.putAt place (.file (some text)))

end FileTree

/-- Writes a stage to a file. -/
def Stage.save (stage : Stage) (tree : FileTree) (path : String) : Except Error FileTree :=
  tree.write path stage.toJson

end MaterialBinding
