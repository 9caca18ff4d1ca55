import MaterialBinding.Path.Basic
import MaterialBinding.Text.Quoted

/-!
# Refused paths and names

`PathError` lists why a text is no path, or why a path does not fit where it is used, and
`PathError.message` words each reason.
-/

namespace MaterialBinding

open Text

/-- Why a path or a name is refused. -/
inductive PathError where
  /-- The text is empty. -/
  | empty
  /-- The text does not begin with a slash. -/
  | relative (text : String)
  /-- A part between slashes is no prim name. -/
  | badComponent (text component : String)
  /-- The part after the dot is no property name. -/
  | badProperty (text property : String)
  /-- The name given for a child is no prim name. -/
  | badPrimName (name : String)
  /-- The name given for a property is no property name. -/
  | badPropertyName (name : String)
  /-- A property has no children. -/
  | childOfProperty (path : ScenePath)
  /-- Only a prim below the root has properties. -/
  | propertyOf (path : ScenePath)
  /-- A prim cannot be defined at a property. -/
  | notPrim (path : ScenePath)
  /-- The root was asked for something that only other prims hold. -/
  | rootHoldsNothing
  /-- The path names no collection. -/
  | notCollection (path : ScenePath)
  /-- The name of a collection binding has a colon. -/
  | bindingNameColon (name : String)
  /-- A path written inside the description of a prim is refused. -/
  | inDescription (prim : PrimPath) (cause : PathError)
deriving DecidableEq

namespace PathError

/-- The words that open the message of every refused path. -/
def opening : String := "Invalid path: "

/-- What is wrong, without the opening words. -/
def detail : PathError → String
  | empty => "empty path"
  | relative text => text ++ ": path must be absolute"
  | badComponent text component => text ++ ": bad component " ++ quoted component
  | badProperty text property => text ++ ": bad property " ++ quoted property
  | badPrimName name => "invalid prim name " ++ quoted name
  | badPropertyName name => "invalid property name " ++ quoted name
  | childOfProperty path => path.text ++ ": cannot add a child to a property path"
  | propertyOf path => path.text ++ ": cannot hold properties"
  | notPrim path => path.text ++ ": not a prim path"
  | rootHoldsNothing => "the pseudo-root cannot hold properties"
  | notCollection path => path.text ++ ": not a collection path"
  | bindingNameColon name => "binding name " ++ quoted name ++ " must not contain ':'"
  | inDescription prim cause => prim.text ++ ": " ++ opening ++ cause.detail

/-- The whole message. -/
def message (error : PathError) : String := opening ++ error.detail

end PathError

end MaterialBinding
