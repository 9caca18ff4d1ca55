import MaterialBinding.Binding.Purpose

/-!
# Names of binding relationships

A relationship binds a material by its name alone.  `material:binding` binds directly for every
purpose and `material:binding:full` for one; `material:binding:collection:pens` binds a collection
under the name `pens`, and `material:binding:collection:full:pens` does so for one purpose.

`Purpose.bindingName?` reads such a name.  Exactly one part may follow the namespace, so a binding
for one purpose is never taken for one that holds for every purpose.
-/

namespace MaterialBinding

/-- The name of direct binding relationships, and the namespace of all others. -/
def bindingNamespace : String := "material:binding"

namespace Purpose

/-- The name of the relationship that binds a material directly for the purpose. -/
def directName (purpose : Purpose) : String :=
  match purpose.suffix? with
  | none => bindingNamespace
  | some suffix => bindingNamespace ++ ":" ++ suffix

/-- The namespace of the relationships that bind collections for the purpose. -/
def collectionNamespace (purpose : Purpose) : String :=
  match purpose.suffix? with
  | none => bindingNamespace ++ ":collection"
  | some suffix => bindingNamespace ++ ":collection:" ++ suffix

/-- The name of the relationship that binds a collection under a binding name. -/
def collectionName (purpose : Purpose) (binding : String) : String :=
  purpose.collectionNamespace ++ ":" ++ binding

/-- The binding name in the name of a relationship that binds a collection for the purpose. -/
def bindingName? (purpose : Purpose) (name : String) : Option String :=
  match (purpose.collectionNamespace ++ ":").toList.isPrefixOf? name.toList with
  | none | some [] => none
  | some binding => if ':' ∈ binding then none else some (String.ofList binding)

end Purpose

end MaterialBinding
