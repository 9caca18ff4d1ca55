/-!
# Purposes

A material is bound for a rendering purpose.  `allPurpose` stands for every purpose and is the
fallback of the other two, `full` and `preview`.
-/

namespace MaterialBinding

/-- The rendering context that a binding is for. -/
inductive Purpose where
  /-- Every purpose. -/
  | allPurpose
  /-- Rendering in final quality. -/
  | full
  /-- Interactive rendering. -/
  | preview
deriving DecidableEq

namespace Purpose

/-- The purposes, in the order in which they are listed to a reader. -/
def all : List Purpose := [allPurpose, full, preview]

/-- The spelling of a purpose. -/
def token : Purpose → String
  | allPurpose => "allPurpose"
  | full => "full"
  | preview => "preview"

/-- Reads a purpose; the empty text spells `allPurpose` too. -/
def ofToken? (token : String) : Option Purpose :=
  if token = "" then some allPurpose else all.find? (·.token = token)

/-- The name part that marks a relationship as made for the purpose. -/
def suffix? : Purpose → Option String
  | allPurpose => none
  | purpose => some purpose.token

/-- The passes of a search for the purpose: its own bindings, then those for every purpose. -/
def passes : Purpose → List Purpose
  | allPurpose => [allPurpose]
  | purpose => [purpose, allPurpose]

/-- The name of a purpose as a constructor, for debugging output. -/
def constructorName : Purpose → String
  | allPurpose => "AllPurpose"
  | full => "Full"
  | preview => "Preview"

/-- A purpose is read back from its spelling. -/
@[simp] theorem ofToken?_token (purpose : Purpose) : ofToken? purpose.token = some purpose := by
  cases purpose <;> decide

end Purpose

end MaterialBinding
