import MaterialBinding.Path.Basic
import MaterialBinding.Metadata

/-!
# Relationships

A relationship is a named list of paths that a prim points at, with metadata of its own.
-/

namespace MaterialBinding

/-- A named, ordered list of targets on a prim. -/
structure Relationship where
  name : String
  targets : List ScenePath := []
  metadata : Metadata := {}
deriving DecidableEq

namespace Relationship

/-- The first target. -/
def firstTarget? (relationship : Relationship) : Option ScenePath := relationship.targets.head?

/-- Appends a target. -/
def addTarget (relationship : Relationship) (target : ScenePath) : Relationship :=
  { relationship with targets := relationship.targets ++ [target] }

/-- Replaces all targets. -/
def setTargets (relationship : Relationship) (targets : List ScenePath) : Relationship :=
  { relationship with targets }

/-- Gives a metadata key a value. -/
def setMetadata (relationship : Relationship) (key value : String) : Relationship :=
  { relationship with metadata := relationship.metadata.set key value }

/-- Drops a metadata key. -/
def eraseMetadata (relationship : Relationship) (key : String) : Relationship :=
  { relationship with metadata := relationship.metadata.erase key }

end Relationship

end MaterialBinding
