import MaterialBinding.Stage.Basic
import MaterialBinding.Error

/-!
# Authoring

The operations that change a stage.  Each checks all of its conditions first and changes the stage
in one step, so a refused operation leaves nothing behind: it returns an error and no stage at
all.

Relationships and collections are known by their names.  Writing one that exists keeps its place,
and writing a new one appends it.
-/

namespace MaterialBinding

namespace Prim

/-- Changes the relationship of that name, or appends what `f` makes of a bare one. -/
def putRelationshipIn (name : String) (f : Relationship → Relationship) :
    List Relationship → List Relationship
  | [] => [f { name }]
  | relationship :: rest =>
    if relationship.name = name then f relationship :: rest
    else relationship :: putRelationshipIn name f rest

/-- Changes the first relationship of that name, if there is one. -/
def modifyRelationshipIn (name : String) (f : Relationship → Relationship) :
    List Relationship → List Relationship
  | [] => []
  | relationship :: rest =>
    if relationship.name = name then f relationship :: rest
    else relationship :: modifyRelationshipIn name f rest

/-- Puts the collection in the place of the first one of its name, or at the end. -/
def putCollectionIn (collection : Collection) : List Collection → List Collection
  | [] => [collection]
  | other :: rest =>
    if other.name = collection.name then collection :: rest
    else other :: putCollectionIn collection rest

/-- Changes the relationship of that name, or appends what `f` makes of a bare one. -/
def putRelationship (prim : Prim) (name : String) (f : Relationship → Relationship) : Prim :=
  { prim with relationships := putRelationshipIn name f prim.relationships }

/-- Changes the relationship of that name, if there is one. -/
def modifyRelationship (prim : Prim) (name : String) (f : Relationship → Relationship) : Prim :=
  { prim with relationships := modifyRelationshipIn name f prim.relationships }

/-- Takes out the relationships of that name. -/
def eraseRelationship (prim : Prim) (name : String) : Prim :=
  { prim with relationships := prim.relationships.filter (·.name ≠ name) }

/-- Puts the collection in the place of the one of its name, or at the end. -/
def putCollection (prim : Prim) (collection : Collection) : Prim :=
  { prim with collections := putCollectionIn collection prim.collections }

end Prim

namespace Stage

/-- Changes what is authored on the prim at the path; the root and properties hold nothing. -/
def modifyPrim (stage : Stage) (path : ScenePath) (f : Prim → Prim) : Stage :=
  match path.property, path.prim with
  | none, .child above name =>
    { stage with
      tree := stage.tree.editAt above (Siblings.modify name fun node =>
        { node with prim := f node.prim }) }
  | _, _ => stage

/-- Checks that the path is that of a prim which can hold relationships and collections. -/
def requirePrim (stage : Stage) (path : ScenePath) : Except Error Unit :=
  if path.isRoot then .error (.invalidPath .rootHoldsNothing)
  else if stage.hasPrim path then .ok ()
  else .error (.primNotFound path)

/-- Makes sure that there is a prim at the path and at every path above it. -/
def definePrim (stage : Stage) (path : ScenePath) : Except Error Stage :=
  if path.isProperty then .error (.invalidPath (.notPrim path))
  else .ok { stage with tree := stage.tree.define path.prim }

/-- Takes out the prim at the path with everything below it, and says whether there was one. -/
def removePrim (stage : Stage) (path : ScenePath) : Bool × Stage :=
  match path.prim with
  | .root => (false, stage)
  | .child above name =>
    if stage.hasPrim path then
      (true, { stage with tree := stage.tree.editAt above (Siblings.erase name) })
    else (false, stage)

/-- Changes the relationship of that name on a prim, making a bare one first if there is none. -/
def putRelationship (stage : Stage) (prim : ScenePath) (name : String)
    (f : Relationship → Relationship) : Except Error Stage :=
  match prim.appendProperty name with
  | .error cause => .error (.invalidPath cause)
  | .ok _ =>
    match stage.requirePrim prim with
    | .error error => .error error
    | .ok _ => .ok (stage.modifyPrim prim (·.putRelationship name f))

/-- Writes a relationship; one that exists keeps its place and its metadata. -/
def createRelationship (stage : Stage) (prim : ScenePath) (name : String)
    (targets : List ScenePath) : Except Error Stage :=
  stage.putRelationship prim name (·.setTargets targets)

/-- Changes a relationship that exists, and says whether it does. -/
def modifyRelationship (stage : Stage) (prim : ScenePath) (name : String)
    (f : Relationship → Relationship) : Bool × Stage :=
  if (stage.relationship? prim name).isSome then
    (true, stage.modifyPrim prim (·.modifyRelationship name f))
  else (false, stage)

/-- Replaces the targets of a relationship, and says whether it exists. -/
def setTargets (stage : Stage) (prim : ScenePath) (name : String) (targets : List ScenePath) :
    Bool × Stage :=
  stage.modifyRelationship prim name (·.setTargets targets)

/-- Appends a target to a relationship, and says whether it exists. -/
def addTarget (stage : Stage) (prim : ScenePath) (name : String) (target : ScenePath) :
    Bool × Stage :=
  stage.modifyRelationship prim name (·.addTarget target)

/-- Drops a metadata key of a relationship, and returns the value it had. -/
def removeMetadata (stage : Stage) (prim : ScenePath) (name key : String) :
    Option String × Stage :=
  ((stage.relationship? prim name).bind (·.metadata.get? key),
    (stage.modifyRelationship prim name (·.eraseMetadata key)).2)

/-- Gives a metadata key of a relationship a value. -/
def setMetadata (stage : Stage) (prim : ScenePath) (name key value : String) :
    Except Error Stage :=
  match stage.requirePrim prim with
  | .error error => .error error
  | .ok _ =>
    match stage.modifyRelationship prim name (·.setMetadata key value) with
    | (true, changed) => .ok changed
    | (false, _) => .error (.relationshipNotFound name prim)

/-- Takes out a relationship, and says whether there was one. -/
def removeRelationship (stage : Stage) (prim : ScenePath) (name : String) : Bool × Stage :=
  if (stage.relationship? prim name).isSome then
    (true, stage.modifyPrim prim (·.eraseRelationship name))
  else (false, stage)

/-- Writes a collection on a prim, in the place of the one of its name, and returns its address. -/
def defineCollection (stage : Stage) (prim : ScenePath) (collection : Collection) :
    Except Error (ScenePath × Stage) :=
  match prim.collection collection.name with
  | .error cause => .error (.invalidPath cause)
  | .ok address =>
    match stage.requirePrim prim with
    | .error error => .error error
    | .ok _ => .ok (address, stage.modifyPrim prim (·.putCollection collection))

end Stage

end MaterialBinding
