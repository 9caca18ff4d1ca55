import MaterialBinding.Resolution.Resolver

/-!
# What the commands print

The lines that the commands print about a stage: the tree of its prims, the bindings of one prim,
and the material of every prim.
-/

namespace MaterialBinding.Command

/-- What is told about a prim behind its name. -/
def notes (prim : Prim) : List String :=
  (if prim.relationships.isEmpty then [] else [toString prim.relationships.length ++ " rel"]) ++
    (if prim.collections.isEmpty then []
      else ["collections: " ++ String.intercalate ", " (prim.collections.map (·.name))])

/-- The line of a prim in a tree. -/
def treeLine (depth : Nat) (name : PrimName) (prim : Prim) : String :=
  String.ofList (List.replicate (2 * depth) ' ') ++ name.text ++
    if (notes prim).isEmpty then "" else "  [" ++ String.intercalate "; " (notes prim) ++ "]"

/-- The lines of a tree, each prim before its children. -/
def treeLines (depth : Nat) : Siblings → List String
  | .nil => []
  | .cons name prim children rest =>
    treeLine depth name prim :: (treeLines (depth + 1) children ++ treeLines depth rest)

/-- The line of a binding. -/
def bindingLine (binding : Binding) : String :=
  let target :=
    match binding.materialPath? with
    | some path => path.text
    | none => "<no target>"
  let strength := " (" ++ binding.strength.token ++ ")"
  match binding with
  | .direct _ => "  direct -> " ++ target ++ strength
  | .collection binding =>
    "  collection " ++ binding.bindingName ++ " [" ++ binding.collectionPath.text ++ "] -> " ++
      target ++ strength

/-- The lines of the bindings of a prim, under the purposes that have any. -/
def bindingLines (stage : Stage) (prim : ScenePath) : List String :=
  Purpose.all.flatMap fun purpose =>
    match stage.bindings prim purpose with
    | [] => []
    | bindings => (purpose.token ++ ":") :: bindings.map bindingLine

/-- The text of a material that was searched. -/
def materialText : Option PrimPath → String
  | some path => path.text
  | none => "<none>"

/-- The text with blanks behind it, up to a number of characters. -/
def padRight (width : Nat) (text : String) : String :=
  text ++ String.ofList (List.replicate (width - text.length) ' ')

/-- The line of a prim with its material. -/
def materialLine (width : Nat) (prim : PrimPath) (material : Option PrimPath) : String :=
  padRight width prim.text ++ "  " ++ materialText material

/-- The width of the column of paths: the number of bytes of the longest. -/
def columnWidth (prims : List PrimPath) : Nat :=
  (prims.map fun prim => prim.text.utf8ByteSize).foldl max 0

/-- The lines of prims with their materials, up to the first search that is refused. -/
def materialLines (width : Nat) :
    List (PrimPath × Except Error (Option PrimPath)) → List String × Option Error
  | [] => ([], none)
  | (_, .error error) :: _ => ([], some error)
  | (prim, .ok material) :: rest =>
    let (lines, error) := materialLines width rest
    (materialLine width prim material :: lines, error)

end MaterialBinding.Command
