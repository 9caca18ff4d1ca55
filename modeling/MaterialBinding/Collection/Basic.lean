import MaterialBinding.Path.Parse

/-!
# Collections

A collection is a named set of paths, owned by a prim and described by paths to include and paths
to exclude.  It is addressed as a property of its owner, `/Desk.collection:Pens`.

`ScenePath.collection` builds that address and `ScenePath.asCollection?` takes it apart.
-/

namespace MaterialBinding

/-- How far an included path reaches. -/
inductive ExpansionRule where
  /-- Only the path itself is a member. -/
  | explicitOnly
  /-- The prims below are members too. -/
  | expandPrims
  /-- The prims below and the properties of all of them are members too. -/
  | expandPrimsAndProperties
deriving DecidableEq

namespace ExpansionRule

/-- The spelling of a rule. -/
def token : ExpansionRule → String
  | explicitOnly => "explicitOnly"
  | expandPrims => "expandPrims"
  | expandPrimsAndProperties => "expandPrimsAndProperties"

/-- Reads a rule; an unknown text means `expandPrims`. -/
def ofToken (token : String) : ExpansionRule :=
  if token = explicitOnly.token then explicitOnly
  else if token = expandPrimsAndProperties.token then expandPrimsAndProperties
  else expandPrims

end ExpansionRule

/-- A named set of paths, given by what it includes and what it excludes. -/
structure Collection where
  name : String
  includes : List ScenePath := []
  excludes : List ScenePath := []
  expansionRule : ExpansionRule := .expandPrims
  includeRoot : Bool := false
deriving DecidableEq

namespace Collection

/-- Nothing can be a member. -/
def isEmpty (collection : Collection) : Bool :=
  collection.includes.isEmpty && !collection.includeRoot

/-- Excludes one more path. -/
def exclude (collection : Collection) (path : ScenePath) : Collection :=
  { collection with excludes := collection.excludes ++ [path] }

/-- The namespace of collections among the properties of a prim. -/
def nameLead : String := "collection:"

end Collection

namespace ScenePath

/-- The address of the collection of that name on a prim. -/
def collection (owner : ScenePath) (name : String) : Except PathError ScenePath :=
  owner.appendProperty (Collection.nameLead ++ name)

/-- The owner and the name of the collection that the path addresses. -/
def asCollection? (path : ScenePath) : Option (PrimPath × String) :=
  match path.property with
  | none => none
  | some property =>
    match Collection.nameLead.toList.isPrefixOf? property.text.toList with
    | none | some [] => none
    | some name => some (path.prim, String.ofList name)

end ScenePath

end MaterialBinding
