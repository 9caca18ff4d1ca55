import MaterialBinding.Path.Error

/-!
# Reading and extending paths

A path text begins with a slash.  Its first dot, if there is one, divides it into the prim part
and the property; the prim part is cut at its slashes.  `ScenePath.parse` reports the first part
that is no name, prim names before the property.  `appendChild` and `appendProperty` extend a path
by one name.
-/

namespace MaterialBinding

/-- Goes down from the root by the given names, up to the first that is none. -/
def PrimPath.parse (text : String) (components : List (List Char)) : Except PathError PrimPath :=
  components.foldlM
    (fun path component =>
      match PrimName.ofString? (String.ofList component) with
      | some name => .ok (path.child name)
      | none => .error (.badComponent text (String.ofList component)))
    .root

namespace ScenePath

/-- Names a property of a prim below the root. -/
def ofProperty (above : PrimPath) (name : PrimName) (property : PropertyName) : ScenePath :=
  ⟨.child above name, some property, nofun⟩

/-- The property of that name. -/
def appendProperty (path : ScenePath) (name : String) : Except PathError ScenePath :=
  match path.property, path.prim with
  | none, .child above prim =>
    match PropertyName.ofString? name with
    | some property => .ok (ofProperty above prim property)
    | none => .error (.badPropertyName name)
  | _, _ => .error (.propertyOf path)

/-- The child of that name. -/
def appendChild (path : ScenePath) (name : String) : Except PathError ScenePath :=
  if path.isProperty then .error (.childOfProperty path)
  else
    match PrimName.ofString? name with
    | some child => .ok (ofPrim (path.prim.child child))
    | none => .error (.badPrimName name)

/-- Reads a path. -/
def parse (text : String) : Except PathError ScenePath :=
  match text.toList with
  | [] => .error .empty
  | ['/'] => .ok root
  | '/' :: rest => do
    let prim ← PrimPath.parse text ((rest.takeWhile (· ≠ '.')).splitOn '/')
    match rest.dropWhile (· ≠ '.') with
    | [] => .ok (ofPrim prim)
    | _ :: property =>
      match (ofPrim prim).appendProperty (String.ofList property) with
      | .ok path => .ok path
      | .error _ => .error (.badProperty text (String.ofList property))
  | _ => .error (.relative text)

end ScenePath

/-- Checks that a text can name a prim. -/
def checkPrimName (name : String) : Except PathError Unit :=
  if isPrimName name.toList then .ok () else .error (.badPrimName name)

end MaterialBinding
