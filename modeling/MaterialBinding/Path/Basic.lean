import MaterialBinding.Path.Name

/-!
# Scene paths

A scene is a tree of named prims below a nameless root.  A `PrimPath` says how to go down to a
prim, one name at a time; the last name is outermost, so going up is taking a constructor off.  A
`ScenePath` names a prim or one of its properties; the root has no properties.

The text of a path puts a slash before each name and a dot before the property: `/Desk/Cup`,
`/Desk.collection:Pens`; the root is `/`.  Paths are compared as texts (`ScenePath.sorted`,
`ScenePath.hasPrefix`), while `parent` and `ancestors` follow the tree.
-/

namespace MaterialBinding

/-- The way from the root down to a prim. -/
inductive PrimPath where
  /-- The root, which has no name. -/
  | root
  /-- The child of that name. -/
  | child (parent : PrimPath) (name : PrimName)
deriving DecidableEq

/-- The path of a prim or of a property of a prim. -/
@[ext] structure ScenePath where
  /-- The prim itself, or the owner of the property. -/
  prim : PrimPath
  /-- The property, if the path names one. -/
  property : Option PropertyName
  /-- The root has no properties. -/
  root_bare : prim = .root → property = none
deriving DecidableEq

namespace PrimPath

instance : Inhabited PrimPath := ⟨.root⟩

/-- The names on the way down, each after a slash. -/
def chars : PrimPath → List Char
  | root => []
  | child parent name => parent.chars ++ '/' :: name.text.toList

/-- The written form. -/
def text : PrimPath → String
  | root => "/"
  | path => String.ofList path.chars

/-- The last name; the root has the empty text. -/
def name : PrimPath → String
  | root => ""
  | child _ name => name.text

/-- The prim and those above it, nearest first, without the root. -/
def ancestors : PrimPath → List PrimPath
  | root => []
  | child parent name => child parent name :: parent.ancestors

end PrimPath

namespace ScenePath

/-- The path of a prim. -/
def ofPrim (path : PrimPath) : ScenePath := ⟨path, none, fun _ => rfl⟩

instance : Coe PrimPath ScenePath := ⟨ofPrim⟩

instance : Inhabited ScenePath := ⟨ofPrim .root⟩

/-- The path of the root. -/
def root : ScenePath := ofPrim .root

/-- The path is `/`. -/
def isRoot (path : ScenePath) : Bool := path.prim == .root

/-- The path names a property. -/
def isProperty (path : ScenePath) : Bool := path.property.isSome

/-- The property part of the written form, with its dot. -/
def propertyChars (path : ScenePath) : List Char :=
  match path.property with
  | none => []
  | some property => '.' :: property.text.toList

/-- The written form, character by character. -/
def chars (path : ScenePath) : List Char := path.prim.text.toList ++ path.propertyChars

/-- The written form. -/
def text (path : ScenePath) : String := String.ofList path.chars

/-- The written form between angle brackets, for debugging output. -/
def shown (path : ScenePath) : String := "<" ++ path.text ++ ">"

/-- The property, or else the last name of the prim. -/
def name (path : ScenePath) : String :=
  match path.property with
  | some property => property.text
  | none => path.prim.name

/-- One step up: from a property to its prim, from a prim to the prim above. -/
def parent (path : ScenePath) : Option ScenePath :=
  match path.property, path.prim with
  | some _, prim => some (ofPrim prim)
  | none, .root => none
  | none, .child above _ => some (ofPrim above)

/-- The prim of the path and those above it, nearest first, without the root. -/
def ancestors (path : ScenePath) : List PrimPath := path.prim.ancestors

/-- The text of `lead` begins the text of `path` and ends there where a name ends.  Every path
begins with the root; a property begins nothing but itself. -/
def hasPrefix (path lead : ScenePath) : Bool :=
  lead.isRoot ||
    (lead.chars.isPrefixOf path.chars &&
      match path.chars.drop lead.chars.length with
      | [] => true
      | c :: _ => !lead.isProperty && (c == '/' || c == '.'))

/-- The distinct paths of the list in the order of their texts. -/
def sorted (paths : List ScenePath) : List ScenePath :=
  paths.eraseDups.mergeSort fun p q => decide (p.text ≤ q.text)

end ScenePath

end MaterialBinding
