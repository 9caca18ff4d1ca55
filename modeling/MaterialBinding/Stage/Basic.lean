import MaterialBinding.Stage.Siblings

/-!
# Stages

A stage is a scene in memory: a tree of prims below the root, with a name and perhaps the file it
was read from.  This module looks things up; nothing is found at the path of a property, and the
root is a prim that holds nothing but its children.
-/

namespace MaterialBinding

/-- A scene in memory. -/
structure Stage where
  /-- What the stage is called: its file, if it has one. -/
  name : String := "anonymous"
  /-- The file that the stage was read from. -/
  source : Option String := none
  /-- The prims below the root. -/
  tree : Siblings := .nil
deriving DecidableEq

namespace Stage

instance : Inhabited Stage := ⟨{}⟩

/-- The number of prims, the root not counted. -/
def size (stage : Stage) : Nat := stage.tree.size

/-- The prim at the path. -/
def node? (stage : Stage) (path : ScenePath) : Option Node :=
  if path.isProperty then none else stage.tree.node? path.prim

/-- There is a prim at the path. -/
def hasPrim (stage : Stage) (path : ScenePath) : Bool := (stage.node? path).isSome

/-- The children of the prim at the path, in authored order. -/
def children (stage : Stage) (path : ScenePath) : List PrimPath :=
  match stage.node? path with
  | some node => node.children.names.map path.prim.child
  | none => []

/-- What is authored on the prim at the path; nothing, if there is no prim. -/
def prim (stage : Stage) (path : ScenePath) : Prim :=
  match stage.node? path with
  | some node => node.prim
  | none => {}

/-- The relationships on the prim at the path, in authored order. -/
def relationships (stage : Stage) (path : ScenePath) : List Relationship :=
  (stage.prim path).relationships

/-- The relationship of that name on the prim at the path. -/
def relationship? (stage : Stage) (path : ScenePath) (name : String) : Option Relationship :=
  (stage.relationships path).find? (·.name = name)

/-- The collections of the prim at the path, in authored order. -/
def collections (stage : Stage) (path : ScenePath) : List Collection :=
  (stage.prim path).collections

/-- The collection of that name of the prim at the path. -/
def collection? (stage : Stage) (path : ScenePath) (name : String) : Option Collection :=
  (stage.collections path).find? (·.name = name)

/-- The collection with that address. -/
def collectionAt? (stage : Stage) (address : ScenePath) : Option Collection :=
  match address.asCollection? with
  | some (owner, name) => stage.collection? owner name
  | none => none

/-- The paths of all prims below the root, each before those of its children. -/
def traverse (stage : Stage) : List PrimPath := Siblings.walk (stage.tree.entries .root)

/-- The prims are listed as the recursion on the tree lists them. -/
theorem traverse_eq_paths (stage : Stage) : stage.traverse = stage.tree.paths .root := by
  rw [traverse, Siblings.walk_eq_flatMap_paths, Siblings.paths_eq_flatMap_entries]

end Stage

end MaterialBinding
