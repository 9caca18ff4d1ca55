import MaterialBinding.Binding.Name
import MaterialBinding.Binding.Strength
import MaterialBinding.Collection.Membership

/-!
# Bindings on a prim

The relationships of a prim, read as bindings.  A direct binding points at a material; only its
first target counts.  A collection binding points at a collection and at a material, in this order
and at nothing else, and gives the material to the members of the collection; a relationship with
the name of a collection binding but other targets is none.

A material is known by the path of its prim, and only if there is a prim at that path.
-/

namespace MaterialBinding

open Text

/-- The material at the path: the prim there, if there is one. -/
def Stage.material? (stage : Stage) (path : ScenePath) : Option PrimPath :=
  if stage.hasPrim path then some path.prim else none

/-- A relationship that points at a material. -/
structure DirectBinding where
  relationship : Relationship
  purpose : Purpose
deriving DecidableEq

/-- A relationship that points at a collection and at a material. -/
structure CollectionBinding where
  relationship : Relationship
  purpose : Purpose
  bindingName : String
  collectionPath : ScenePath
  owner : PrimPath
  collectionName : String
  materialPath : ScenePath
deriving DecidableEq

/-- A binding of either kind. -/
inductive Binding where
  /-- A material for the prim and what is below it. -/
  | direct (binding : DirectBinding)
  /-- A material for the members of a collection. -/
  | collection (binding : CollectionBinding)
deriving DecidableEq

namespace DirectBinding

/-- The path of the material. -/
def materialPath? (binding : DirectBinding) : Option ScenePath := binding.relationship.firstTarget?

/-- The strength of the binding. -/
def strength (binding : DirectBinding) : Strength := binding.relationship.strength

/-- The material, if there is a prim at its path. -/
def material? (binding : DirectBinding) (stage : Stage) : Option PrimPath :=
  binding.materialPath?.bind stage.material?

end DirectBinding

namespace CollectionBinding

/-- Reads a relationship as a collection binding for the purpose. -/
def ofRelationship? (purpose : Purpose) (relationship : Relationship) :
    Option CollectionBinding :=
  match purpose.bindingName? relationship.name, relationship.targets with
  | some bindingName, [collectionPath, materialPath] =>
    match collectionPath.asCollection? with
    | some (owner, collectionName) =>
      some { relationship, purpose, bindingName, collectionPath, owner, collectionName,
             materialPath }
    | none => none
  | _, _ => none

/-- The strength of the binding. -/
def strength (binding : CollectionBinding) : Strength := binding.relationship.strength

/-- The material, if there is a prim at its path. -/
def material? (binding : CollectionBinding) (stage : Stage) : Option PrimPath :=
  stage.material? binding.materialPath

/-- The collection, if its owner has one of that name. -/
def collection? (binding : CollectionBinding) (stage : Stage) : Option Collection :=
  stage.collection? binding.owner binding.collectionName

/-- The path is a member of the collection.  A collection that is missing or includes itself has
no members; the warning that is logged of the latter is left out. -/
def isMember (binding : CollectionBinding) (stage : Stage) (path : ScenePath) : Bool :=
  match binding.collection? stage with
  | none => false
  | some collection =>
    match MemberRules.compute stage binding.owner collection with
    | .ok rules => rules.contains path
    | .error _ => false

end CollectionBinding

namespace Binding

/-- The relationship that makes the binding. -/
def relationship : Binding → Relationship
  | direct binding => binding.relationship
  | collection binding => binding.relationship

/-- What the binding is for. -/
def purpose : Binding → Purpose
  | direct binding => binding.purpose
  | collection binding => binding.purpose

/-- The strength of the binding. -/
def strength (binding : Binding) : Strength := binding.relationship.strength

/-- The path of the material; a direct binding may lack it. -/
def materialPath? : Binding → Option ScenePath
  | direct binding => binding.materialPath?
  | collection binding => some binding.materialPath

/-- The material, if there is a prim at its path. -/
def material? (stage : Stage) : Binding → Option PrimPath
  | direct binding => binding.material? stage
  | collection binding => binding.material? stage

/-- A binding with its parts, for debugging output. -/
def shown : Binding → String
  | direct binding =>
    "DirectBinding \x7b relationship: " ++ quoted binding.relationship.name ++
      ", purpose: " ++ binding.purpose.constructorName ++ ", material: " ++
      (match binding.materialPath? with
        | some path => "Some(" ++ path.shown ++ ")"
        | none => "None") ++ " \x7d"
  | collection binding =>
    "CollectionBinding \x7b relationship: " ++ quoted binding.relationship.name ++
      ", purpose: " ++ binding.purpose.constructorName ++ ", collection: " ++
      binding.collectionPath.shown ++ ", material: " ++ binding.materialPath.shown ++
      " \x7d"

end Binding

namespace Stage

/-- The relationship that binds a material directly to the prim. -/
def directRelationship? (stage : Stage) (prim : ScenePath) (purpose : Purpose) :
    Option Relationship :=
  stage.relationship? prim purpose.directName

/-- The direct binding of the prim. -/
def directBinding? (stage : Stage) (prim : ScenePath) (purpose : Purpose) : Option DirectBinding :=
  (stage.directRelationship? prim purpose).map fun relationship => { relationship, purpose }

/-- The strength of the direct binding of the prim; weak if there is none. -/
def directStrength (stage : Stage) (prim : ScenePath) (purpose : Purpose) : Strength :=
  match stage.directRelationship? prim purpose with
  | some relationship => relationship.strength
  | none => .weaker

/-- The material that the direct binding of the prim gives. -/
def directMaterial? (stage : Stage) (prim : ScenePath) (purpose : Purpose) : Option PrimPath :=
  (stage.directBinding? prim purpose).bind (·.material? stage)

/-- The relationships of the prim that are named as collection bindings, whatever their targets. -/
def collectionRelationships (stage : Stage) (prim : ScenePath) (purpose : Purpose) :
    List Relationship :=
  (stage.relationships prim).filter fun relationship =>
    (purpose.bindingName? relationship.name).isSome

/-- The collection bindings of the prim, in authored order. -/
def collectionBindings (stage : Stage) (prim : ScenePath) (purpose : Purpose) :
    List CollectionBinding :=
  (stage.collectionRelationships prim purpose).filterMap (CollectionBinding.ofRelationship? purpose)

/-- The bindings of the prim: the direct one, then those of collections. -/
def bindings (stage : Stage) (prim : ScenePath) (purpose : Purpose) : List Binding :=
  (stage.directBinding? prim purpose).toList.map .direct ++
    (stage.collectionBindings prim purpose).map .collection

end Stage

end MaterialBinding
