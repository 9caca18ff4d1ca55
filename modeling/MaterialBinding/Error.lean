import MaterialBinding.Path.Error
import MaterialBinding.Binding.Purpose
import MaterialBinding.Json.Problem

/-!
# Errors

`Error` lists everything that the operations on scenes, files and settings can refuse, and
`Error.message` words it.
-/

namespace MaterialBinding

open Text

/-- What a scene description says twice. -/
inductive Duplicate where
  /-- Two children of one prim have the same name. -/
  | prim (name : String) (parent : PrimPath)
  /-- Two relationships of one prim have the same name. -/
  | relationship (name : String) (owner : PrimPath)
  /-- Two collections of one prim have the same name. -/
  | collection (name : String) (owner : PrimPath)
deriving DecidableEq

/-- The wording of a repetition. -/
def Duplicate.message : Duplicate → String
  | prim name parent => "duplicate prim " ++ quoted name ++ " under " ++ parent.text
  | relationship name owner => "duplicate relationship " ++ quoted name ++ " on " ++ owner.text
  | collection name owner => "duplicate collection " ++ quoted name ++ " on " ++ owner.text

/-- Why an operation is refused. -/
inductive Error where
  /-- A material is asked for at a place where there is no prim. -/
  | invalidPrim (path : ScenePath)
  /-- The text names no purpose, or none that is allowed. -/
  | invalidPurpose (token : String) (allowed : List Purpose)
  /-- A path or a name is refused. -/
  | invalidPath (cause : PathError)
  /-- There is no prim to write on. -/
  | primNotFound (path : ScenePath)
  /-- A collection includes itself, perhaps through others. -/
  | collectionCycle (path : ScenePath)
  /-- A scene description says something twice. -/
  | invalidScene (cause : Duplicate)
  /-- There is no such file. -/
  | fileNotFound (file : String)
  /-- The file cannot be read or written as text. -/
  | fileUnusable
  /-- A JSON text is not read. -/
  | json (problem : Json.Problem)
  /-- The prim has no relationship of that name. -/
  | relationshipNotFound (name : String) (prim : ScenePath)
deriving DecidableEq

namespace Error

/-- A purpose that is none of the three. -/
def unknownPurpose (token : String) : Error := invalidPurpose token Purpose.all

/-- The wording of an error. -/
def message : Error → String
  | invalidPrim path => "Prim \"" ++ path.text ++ "\" is not valid"
  | invalidPurpose token allowed =>
    "Purpose \"" ++ token ++ "\" is not valid. Options were: " ++
      String.intercalate ", " (allowed.map Purpose.token)
  | invalidPath cause => cause.message
  | primNotFound path => "Prim not found: " ++ path.text
  | collectionCycle path => "Collection include cycle at " ++ path.text
  | invalidScene cause => "Invalid scene description: " ++ cause.message
  | fileNotFound file => "File not found: " ++ file
  | fileUnusable => "I/O error"
  | json _ => "JSON error"
  | relationshipNotFound name prim =>
    "relationship " ++ name ++ " not found on " ++ prim.text

end Error

/-- Reads a purpose. -/
def Purpose.parse (token : String) : Except Error Purpose :=
  match Purpose.ofToken? token with
  | some purpose => .ok purpose
  | none => .error (.unknownPurpose token)

end MaterialBinding
