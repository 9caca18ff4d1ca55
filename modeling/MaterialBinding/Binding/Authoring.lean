import MaterialBinding.Binding.Basic
import MaterialBinding.Stage.Authoring

/-!
# Authoring bindings

Binding writes a relationship with the name that the purpose asks for, with its targets and its
strength; whatever else its metadata held stays.  Unbinding takes the relationship out by its
name.
-/

namespace MaterialBinding.Stage

/-- Binds a material to a prim. -/
def bind (stage : Stage) (prim material : ScenePath) (strength : Strength) (purpose : Purpose) :
    Except Error Stage :=
  stage.putRelationship prim purpose.directName fun relationship =>
    (relationship.setTargets [material]).setStrength strength

/-- Binds a material to the members of a collection; without a name of its own the binding is
called like the collection. -/
def bindCollection (stage : Stage) (prim collection material : ScenePath) (bindingName : String)
    (strength : Strength) (purpose : Purpose) : Except Error Stage :=
  match collection.asCollection? with
  | none => .error (.invalidPath (.notCollection collection))
  | some (_, collectionName) =>
    let name := if bindingName = "" then collectionName else bindingName
    if ':' ∈ name.toList then .error (.invalidPath (.bindingNameColon name))
    else
      stage.putRelationship prim (purpose.collectionName name) fun relationship =>
        (relationship.setTargets [collection, material]).setStrength strength

/-- Takes out the direct binding of a prim, and says whether there was one. -/
def unbindDirect (stage : Stage) (prim : ScenePath) (purpose : Purpose) : Bool × Stage :=
  stage.removeRelationship prim purpose.directName

/-- Takes out a collection binding of a prim, and says whether there was one. -/
def unbindCollection (stage : Stage) (prim : ScenePath) (bindingName : String)
    (purpose : Purpose) : Bool × Stage :=
  stage.removeRelationship prim (purpose.collectionName bindingName)

end MaterialBinding.Stage
