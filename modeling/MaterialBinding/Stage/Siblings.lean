import MaterialBinding.Collection.Basic
import MaterialBinding.Relationship

/-!
# The tree of prims

`Siblings` is an ordered list of prims with everything below them: each entry holds a name, what
is authored on that prim, and the prim's own children.  Every operation is a recursion on this one
type.  Operations at a path (`editAt`, `define`) are recursions on the path, which peel off the
last name and act among the children of the prim above.

`paths` lists a tree depth first, each prim before its children; `walk` lists it from a stack of
places still to visit, and `walk_eq_flatMap_paths` says that both give the same list.
-/

namespace MaterialBinding

/-- What is authored on one prim. -/
structure Prim where
  relationships : List Relationship := []
  collections : List Collection := []
deriving DecidableEq

/-- Prims side by side in authored order, each with its children. -/
inductive Siblings where
  | nil
  | cons (name : PrimName) (prim : Prim) (children rest : Siblings)
deriving DecidableEq

/-- A prim without its name: what is authored on it, and its children. -/
structure Node where
  prim : Prim := {}
  children : Siblings := .nil
deriving DecidableEq

namespace Siblings

instance : Inhabited Siblings := ⟨nil⟩

/-- The number of prims, those below included. -/
def size : Siblings → Nat
  | nil => 0
  | cons _ _ children rest => 1 + children.size + rest.size

/-- The names side by side. -/
def names : Siblings → List PrimName
  | nil => []
  | cons name _ _ rest => name :: rest.names

/-- The sibling of that name. -/
def find? (name : PrimName) : Siblings → Option Node
  | nil => none
  | cons other prim children rest => if other = name then some ⟨prim, children⟩ else rest.find? name

/-- Changes the first sibling of that name. -/
def modify (name : PrimName) (f : Node → Node) : Siblings → Siblings
  | nil => nil
  | cons other prim children rest =>
    if other = name then
      cons other (f ⟨prim, children⟩).prim (f ⟨prim, children⟩).children rest
    else cons other prim children (rest.modify name f)

/-- Appends a bare prim of that name, unless there is one. -/
def insert (name : PrimName) : Siblings → Siblings
  | nil => cons name {} nil nil
  | cons other prim children rest =>
    if other = name then cons other prim children rest
    else cons other prim children (rest.insert name)

/-- Takes out the siblings of that name, with everything below. -/
def erase (name : PrimName) : Siblings → Siblings
  | nil => nil
  | cons other prim children rest =>
    if other = name then rest.erase name else cons other prim children (rest.erase name)

/-- Changes the children of the prim at the path; the root's children are the whole tree. -/
def editAt : PrimPath → (Siblings → Siblings) → Siblings → Siblings
  | .root, f => f
  | .child above name, f =>
    editAt above (modify name fun node => { node with children := f node.children })

/-- Makes sure that there is a prim at the path and at every path above it. -/
def define : PrimPath → Siblings → Siblings
  | .root, tree => tree
  | .child above name, tree => (tree.define above).editAt above (insert name)

/-- The prim at the path; at the root it is a bare one that holds the whole tree. -/
def node? (tree : Siblings) : PrimPath → Option Node
  | .root => some { children := tree }
  | .child above name => (tree.node? above).bind fun node => node.children.find? name

/-- The paths of the prims below `above`, each before those of its children. -/
def paths (above : PrimPath) : Siblings → List PrimPath
  | nil => []
  | cons name _ children rest =>
    above.child name :: (children.paths (above.child name) ++ rest.paths above)

/-- The paths of the siblings, each with what is below it. -/
def entries (above : PrimPath) : Siblings → List (PrimPath × Siblings)
  | nil => []
  | cons name _ children rest => (above.child name, children) :: rest.entries above

/-- The number of prims that a stack of places still holds. -/
def pending : List (PrimPath × Siblings) → Nat
  | [] => 0
  | place :: stack => place.2.size + 1 + pending stack

/-- A stack that is put on another one holds what both hold. -/
theorem pending_append (s t : List (PrimPath × Siblings)) :
    pending (s ++ t) = pending s + pending t := by
  induction s with
  | nil => simp [pending]
  | cons place s ih => simp only [List.cons_append, pending, ih]; omega

/-- The siblings hold all prims of their tree. -/
theorem pending_entries (above : PrimPath) (tree : Siblings) :
    pending (tree.entries above) = tree.size := by
  induction tree with
  | nil => rfl
  | cons name prim children rest _ ih => simp only [entries, pending, size, ih]; omega

/-- Visits the place on top of the stack and puts its children in its stead. -/
def walk : List (PrimPath × Siblings) → List PrimPath
  | [] => []
  | (path, children) :: stack => path :: walk (children.entries path ++ stack)
termination_by stack => pending stack
decreasing_by
  simp only [pending_append, pending_entries, pending]
  omega

/-- The paths of a tree are those of the siblings, each before those below it. -/
theorem paths_eq_flatMap_entries (above : PrimPath) (tree : Siblings) :
    tree.paths above =
      (tree.entries above).flatMap fun place => place.1 :: place.2.paths place.1 := by
  induction tree generalizing above with
  | nil => rfl
  | cons name prim children rest _ ih => simp [paths, entries, ih]

/-- The stack of places gives the prims in the order of the recursion. -/
theorem walk_eq_flatMap_paths (stack : List (PrimPath × Siblings)) :
    walk stack = stack.flatMap fun place => place.1 :: place.2.paths place.1 := by
  fun_induction walk stack with
  | case1 => rfl
  | case2 path children stack ih =>
    rw [ih, List.flatMap_append, ← paths_eq_flatMap_entries]
    simp

end Siblings

end MaterialBinding
