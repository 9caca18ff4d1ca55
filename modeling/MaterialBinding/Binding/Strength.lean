import MaterialBinding.Relationship

/-!
# Strength of a binding

A weak binding gives way to bindings further down the tree; a strong one overrides them.  The
strength is a metadata entry of the binding's relationship, and anything but the token of the
strong kind means weak.
-/

namespace MaterialBinding

/-- Whether a binding overrides those on prims below. -/
inductive Strength where
  /-- Bindings below win. -/
  | weaker
  /-- This binding wins over those below. -/
  | stronger
deriving DecidableEq

namespace Strength

/-- The spelling of a strength. -/
def token : Strength → String
  | weaker => "weakerThanDescendents"
  | stronger => "strongerThanDescendents"

/-- Reads a strength; an unknown text means weak. -/
def ofToken (token : String) : Strength :=
  if token = stronger.token then stronger else weaker

/-- The strength overrides bindings below. -/
def isStronger (strength : Strength) : Bool := strength == stronger

end Strength

/-- The strength written on a relationship. -/
def Relationship.strength (relationship : Relationship) : Strength :=
  match relationship.metadata.get? Metadata.strengthKey with
  | some token => .ofToken token
  | none => .weaker

/-- Writes the strength; weak is written by the absence of the entry. -/
def Relationship.setStrength (relationship : Relationship) : Strength → Relationship
  | .stronger => relationship.setMetadata Metadata.strengthKey Strength.stronger.token
  | .weaker => relationship.eraseMetadata Metadata.strengthKey

end MaterialBinding
