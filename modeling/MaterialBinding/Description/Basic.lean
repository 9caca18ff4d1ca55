import MaterialBinding.Binding.Strength
import MaterialBinding.Stage.Authoring

/-!
# Descriptions of scenes

A description is a scene as a file holds it: texts where the stage has paths, and nothing checked
yet.  `Description.build` makes a tree of prims out of one, or finds the first thing wrong with
it; `Siblings.describe` says what a tree would be described as.

The two agree: what a tree is described as can be built, and gives the tree again, up to the order
of metadata entries, which a description holds sorted by key and with the strength apart.
-/

namespace MaterialBinding

/-- A relationship as a file describes it: the strength stands apart, and the metadata is sorted by
key with each key once. -/
structure RelationshipDescription where
  name : String := ""
  targets : List String := []
  bindMaterialAs : Option String := none
  metadata : List (String × String) := []
deriving DecidableEq

/-- A collection as a file describes it. -/
structure CollectionDescription where
  name : String := ""
  includes : List String := []
  excludes : List String := []
  expansionRule : Option String := none
  includeRoot : Bool := false
deriving DecidableEq

/-- A prim without its children as a file describes it. -/
structure PrimDescription where
  name : String := ""
  relationships : List RelationshipDescription := []
  collections : List CollectionDescription := []
deriving DecidableEq

/-- Prims side by side as a file describes them, each with its children. -/
inductive Description where
  | nil
  | cons (prim : PrimDescription) (children rest : Description)
deriving DecidableEq

/-- Puts an entry into a list that is sorted by key; one with the same key gives way. -/
def insertByKey (key value : String) : List (String × String) → List (String × String)
  | [] => [(key, value)]
  | (k, v) :: rest =>
    if key < k then (key, value) :: (k, v) :: rest
    else if key = k then (key, value) :: rest
    else (k, v) :: insertByKey key value rest

/-- Sorts pairs by key; of several with one key the last stays. -/
def sortByKey (pairs : List (String × String)) : List (String × String) :=
  pairs.foldl (fun sorted pair => insertByKey pair.1 pair.2 sorted) []

namespace Description

instance : Inhabited Description := ⟨nil⟩

/-- Prims side by side. -/
def ofList : List (PrimDescription × Description) → Description
  | [] => nil
  | (prim, children) :: rest => cons prim children (ofList rest)

/-- The number of prims, those below included. -/
def size : Description → Nat
  | nil => 0
  | cons _ children rest => 1 + children.size + rest.size

end Description

/-- Reads a path in the description of a prim. -/
def readDescribedPath (prim : PrimPath) (text : String) : Except Error ScenePath :=
  match ScenePath.parse text with
  | .ok path => .ok path
  | .error cause => .error (.invalidPath (.inDescription prim cause))

/-- Checks the name of a property of a prim. -/
def requirePropertyName (name : String) : Except Error Unit :=
  if isPropertyName name.toList then .ok () else .error (.invalidPath (.badPropertyName name))

/-- Makes the relationship of a prim. -/
def RelationshipDescription.build (prim : PrimPath) (description : RelationshipDescription) :
    Except Error Relationship := do
  let targets ← description.targets.mapM (readDescribedPath prim)
  requirePropertyName description.name
  let metadata := Metadata.ofList description.metadata
  .ok {
    name := description.name
    targets
    metadata :=
      match description.bindMaterialAs with
      | some token => metadata.set Metadata.strengthKey token
      | none => metadata }

/-- Makes the collection of a prim. -/
def CollectionDescription.build (prim : PrimPath) (description : CollectionDescription) :
    Except Error Collection := do
  let includes ← description.includes.mapM (readDescribedPath prim)
  let excludes ← description.excludes.mapM (readDescribedPath prim)
  requirePropertyName (Collection.nameLead ++ description.name)
  .ok {
    name := description.name
    includes
    excludes
    expansionRule :=
      match description.expansionRule with
      | some token => .ofToken token
      | none => .expandPrims
    includeRoot := description.includeRoot }

/-- Makes the relationships of a prim; `seen` are the names of those before. -/
def buildRelationships (prim : PrimPath) :
    List String → List RelationshipDescription → Except Error (List Relationship)
  | _, [] => .ok []
  | seen, description :: rest =>
    if description.name ∈ seen then
      .error (.invalidScene (.relationship description.name prim))
    else do
      let relationship ← description.build prim
      let relationships ← buildRelationships prim (description.name :: seen) rest
      .ok (relationship :: relationships)

/-- Makes the collections of a prim; `seen` are the names of those before. -/
def buildCollections (prim : PrimPath) :
    List String → List CollectionDescription → Except Error (List Collection)
  | _, [] => .ok []
  | seen, description :: rest =>
    if description.name ∈ seen then
      .error (.invalidScene (.collection description.name prim))
    else do
      let collection ← description.build prim
      let collections ← buildCollections prim (description.name :: seen) rest
      .ok (collection :: collections)

/-- Makes the children of the prim at `parent`, each with its own before the next; `seen` are the
names of those before. -/
def Description.build (parent : PrimPath) (seen : List String) :
    Description → Except Error Siblings
  | nil => .ok .nil
  | cons prim children rest =>
    if prim.name ∈ seen then .error (.invalidScene (.prim prim.name parent))
    else
      match PrimName.ofString? prim.name with
      | none => .error (.invalidPath (.badPrimName prim.name))
      | some name => do
        let path := parent.child name
        let relationships ← buildRelationships path [] prim.relationships
        let collections ← buildCollections path [] prim.collections
        let below ← children.build path []
        let after ← rest.build parent (prim.name :: seen)
        .ok (.cons name { relationships, collections } below after)

/-- What a relationship is described as. -/
def Relationship.describe (relationship : Relationship) : RelationshipDescription where
  name := relationship.name
  targets := relationship.targets.map ScenePath.text
  bindMaterialAs := relationship.metadata.get? Metadata.strengthKey
  metadata := sortByKey (relationship.metadata.erase Metadata.strengthKey).entries

/-- What a collection is described as. -/
def Collection.describe (collection : Collection) : CollectionDescription where
  name := collection.name
  includes := collection.includes.map ScenePath.text
  excludes := collection.excludes.map ScenePath.text
  expansionRule := some collection.expansionRule.token
  includeRoot := collection.includeRoot

/-- What a tree of prims is described as. -/
def Siblings.describe : Siblings → Description
  | nil => .nil
  | cons name prim children rest =>
    .cons
      { name := name.text
        relationships := prim.relationships.map Relationship.describe
        collections := prim.collections.map Collection.describe }
      children.describe rest.describe

/-- Makes a stage out of a description. -/
def Stage.ofDescription (description : Description) : Except Error Stage :=
  match description.build .root [] with
  | .ok tree => .ok { tree }
  | .error error => .error error

end MaterialBinding
