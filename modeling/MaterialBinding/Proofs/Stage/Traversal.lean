import Mathlib.Logic.Relation
import MaterialBinding.Proofs.Command.Inputs
import MaterialBinding.Proofs.Command.Printed
import MaterialBinding.Proofs.Description.Objects
import MaterialBinding.Proofs.Stage.Saved

/-!
# Visiting all prims

`Stage.Preorder` is the recursion over the lists of children: a path, what is below its children,
and then what is beside it.  On a reachable stage there is one such list below the root, and it is
the one that `Stage.traverse` gives (`preorder_iff_eq_traverse`).

A traversal with a stack has no recursion.  It keeps the paths that are still to visit, takes one at
a time and puts its children in its stead (`Traversal.next?`).  Whatever else is on the stack, it
lists what the recursion lists and then goes on with the rest (`Traversal.steps_of_preorder`), so it
ends, with the list of all prims.
-/

namespace MaterialBinding

namespace Stage

variable {stage : Stage}

/-! ## The recursion over children -/

/-- The second list has the paths of the first one and all below them: each path stands before what
is below its children, and this stands before the next path. -/
inductive Preorder (stage : Stage) : List PrimPath → List PrimPath → Prop
  | nil : Preorder stage [] []
  | cons {path : PrimPath} {rest below after : List PrimPath}
      (hbelow : Preorder stage (stage.children path) below)
      (hafter : Preorder stage rest after) :
      Preorder stage (path :: rest) (path :: (below ++ after))

/-- There is at most one list in this order. -/
theorem Preorder.unique {paths one other : List PrimPath} (hone : stage.Preorder paths one)
    (hother : stage.Preorder paths other) : one = other := by
  induction hone generalizing other with
  | nil =>
      cases hother
      rfl
  | cons _ _ ihbelow ihafter =>
      cases hother with
      | cons hbelow hafter => rw [ihbelow hbelow, ihafter hafter]

/-- Siblings that lie at a place are listed in this order. -/
theorem preorder_paths {above : PrimPath} {part : Siblings} (hwell : part.WellFormed)
    (hlies : Siblings.LiesAt stage.tree above part) :
    stage.Preorder (part.names.map above.child) (part.paths above) := by
  induction part generalizing above with
  | nil => exact .nil
  | cons name prim children rest ihchildren ihrest =>
      obtain ⟨hname, _, hchildren, hrest⟩ := hwell
      obtain ⟨hfirst, hothers⟩ := hlies.cons hname
      have hbelow := ihchildren hchildren (Siblings.liesAt_children hfirst)
      have hlisted : stage.children (above.child name) =
          children.names.map (above.child name).child := children_ofPrim hfirst
      rw [← hlisted] at hbelow
      exact .cons hbelow (ihrest hrest hothers)

/-- **The traversal lists the prims in the order of the recursion over their children**, and there
is no other list in that order. -/
theorem preorder_iff_eq_traverse (hwell : stage.tree.WellFormed) {listed : List PrimPath} :
    stage.Preorder (stage.children .root) listed ↔ listed = stage.traverse := by
  have hlisted : stage.children .root = stage.tree.names.map PrimPath.root.child := rfl
  have hpreorder : stage.Preorder _ (stage.tree.paths .root) :=
    preorder_paths hwell Siblings.liesAt_root
  rw [← hlisted, ← traverse_eq_paths] at hpreorder
  constructor
  · exact fun hother => hother.unique hpreorder
  · rintro rfl
    exact hpreorder

end Stage

/-! ## The loop with a stack -/

/-- A traversal under way. -/
structure Traversal where
  /-- The paths that are still to visit, the next one last. -/
  pending : List PrimPath
  /-- The paths that were visited. -/
  visited : List PrimPath := []

namespace Traversal

/-- At the beginning the children of the root are to visit, the first one next. -/
def start (stage : Stage) : Traversal := { pending := (stage.children .root).reverse }

/-- Takes the next path and puts its children in its stead, the first one next; nothing is done when
there is no next path. -/
def next? (stage : Stage) (traversal : Traversal) : Option Traversal :=
  match traversal.pending.getLast? with
  | none => none
  | some path =>
    some {
      pending := traversal.pending.dropLast ++ (stage.children path).reverse
      visited := traversal.visited ++ [path] }

/-- The loop goes from the first traversal to the second one. -/
def Steps (stage : Stage) : Traversal → Traversal → Prop :=
  Relation.ReflTransGen fun before after => before.next? stage = some after

variable {stage : Stage} {paths listed before visited : List PrimPath}

/-- A turn visits the path on top of the stack and puts its children in its stead. -/
theorem next?_append (path : PrimPath) :
    (Traversal.mk (before ++ [path]) visited).next? stage =
      some ⟨before ++ (stage.children path).reverse, visited ++ [path]⟩ := by
  simp [next?]

/-- **The stack stands for the recursion.**  Whatever lies deeper in the stack, the loop lists what
the recursion lists from the paths on top, and then has only the rest to visit. -/
theorem steps_of_preorder (hpreorder : stage.Preorder paths listed)
    (before visited : List PrimPath) :
    Steps stage ⟨before ++ paths.reverse, visited⟩ ⟨before, visited ++ listed⟩ := by
  induction hpreorder generalizing before visited with
  | nil =>
      rw [List.reverse_nil, List.append_nil, List.append_nil]
      exact .refl
  | @cons path rest below after _ _ ihbelow ihafter =>
      have hstep : (Traversal.mk (before ++ rest.reverse ++ [path]) visited).next? stage = some _ :=
        next?_append path
      have hchildren := ihbelow (before ++ rest.reverse) (visited ++ [path])
      have hrest := ihafter before (visited ++ [path] ++ below)
      rw [List.reverse_cons, ← List.append_assoc]
      have hlisted : visited ++ path :: (below ++ after) = visited ++ [path] ++ below ++ after := by
        simp
      rw [hlisted]
      exact .head hstep (hchildren.trans hrest)

end Traversal

namespace Stage

variable {stage : Stage}

/-! ## The printed tree -/

/-- The line of the prim at a path: two blanks for each prim above it, its name, and what is told
about it. -/
def lineAt (stage : Stage) (path : PrimPath) : String :=
  String.ofList (List.replicate (2 * (path.depth - 1)) ' ') ++ path.name ++
    if (Command.notes (stage.prim path)).isEmpty then ""
    else "  [" ++ String.intercalate "; " (Command.notes (stage.prim path)) ++ "]"

/-- Siblings that lie at a place are printed in the order of their paths. -/
theorem treeLines_eq_map {above : PrimPath} {part : Siblings} (hwell : part.WellFormed)
    (hlies : Siblings.LiesAt stage.tree above part) :
    Command.treeLines above.depth part = (part.paths above).map stage.lineAt := by
  induction part generalizing above with
  | nil => rfl
  | cons name prim children rest ihchildren ihrest =>
      obtain ⟨hname, _, hchildren, hrest⟩ := hwell
      obtain ⟨hfirst, hothers⟩ := hlies.cons hname
      have hprim : stage.prim (above.child name) = prim := by
        have hnode : stage.node? (above.child name) = some ⟨prim, children⟩ := hfirst
        rw [Stage.prim, hnode]
      have hline : stage.lineAt (above.child name) = Command.treeLine above.depth name prim := by
        rw [lineAt, hprim]
        rfl
      have hbelow : Command.treeLines (above.depth + 1) children = _ :=
        ihchildren hchildren (Siblings.liesAt_children hfirst)
      rw [Command.treeLines, Siblings.paths, List.map_cons, List.map_append, hline, hbelow,
        ihrest hrest hothers]

/-- A command line for a tree prints the tree of its scene. -/
theorem run_tree {files : Files} {commandLine : List String} {arguments : Command.Arguments}
    {file : String} (hrequest : Command.request? commandLine = some (.tree, .ok arguments))
    (hfile : arguments.positional[0]? = some file) (hopen : openFile files file = .ok stage) :
    Command.run files commandLine =
      .success (("Scene: " ++ stage.name) :: "" :: Command.treeLines 0 stage.tree) := by
  obtain ⟨line, _, hparse, hrun⟩ := Command.exists_run_of_request? hrequest
  have hlines : Command.runTree files line =
      .ok (("Scene: " ++ stage.name) :: "" :: Command.treeLines 0 stage.tree) := by
    simp only [Command.runTree, hparse, bind_eq_ok, Command.require_eq_ok_iff,
      Command.openScene_eq_ok_iff]
    exact ⟨arguments, rfl, file, hfile, stage, hopen, rfl⟩
  rw [hrun, Command.Name.run, hlines]
  rfl

/-- **The traversal is the recursion over the children**, and so are the printed tree and the
written scene.  On a reachable stage:

* The loop with a stack ends, with the list of the traversal.
* The traversal is the one list that puts each path before what is below its children, and this
  before the next path.
* It has each prim but the root once, and no other path.
* The printed tree has a line for each prim in this order, indented by its depth; this is the text
  that the command prints, below a line with the name of the stage and an empty one.
* The written scene is the page of what the tree is described as, which has the prims in this order,
  each under its path; and this description is what a reader gets who reads the page, as long as no
  more brackets are open on it at once than are read at all. -/
theorem Reachable.traverse_in_order (hreach : Reachable stage) :
    (Traversal.Steps stage (.start stage) ⟨[], stage.traverse⟩ ∧
      (Traversal.mk [] stage.traverse).next? stage = none) ∧
    (∀ listed, stage.Preorder (stage.children .root) listed ↔ listed = stage.traverse) ∧
    (stage.traverse.Nodup ∧ stage.traverse.length = stage.size ∧
      ∀ path, stage.hasPrim path = true ∧ path ≠ .root ↔
        ∃ place ∈ stage.traverse, path = .ofPrim place) ∧
    (Command.treeLines 0 stage.tree = stage.traverse.map stage.lineAt ∧
      ∀ files commandLine arguments file,
        Command.request? commandLine = some (.tree, .ok arguments) →
        arguments.positional[0]? = some file → openFile files file = .ok stage →
        (Command.run files commandLine).Prints
          (("Scene: " ++ stage.name) :: "" :: stage.traverse.map stage.lineAt)) ∧
    stage.toJson = stage.tree.describe.printer.page ∧
    (stage.tree.describe.objects "").map Prod.fst = stage.traverse.map PrimPath.text ∧
    Json.readText Description.reader stage.toJson =
      if stage.nesting ≤ Json.nestingLimit then .ok stage.tree.describe
      else .error .malformed := by
  have hwell := hreach.wellFormed
  have hconsistent := consistent_of_wellFormed hwell
  have hpreorder := (preorder_iff_eq_traverse hwell).mpr rfl
  have hlines : Command.treeLines 0 stage.tree = stage.traverse.map stage.lineAt := by
    rw [traverse_eq_paths]
    exact treeLines_eq_map hwell Siblings.liesAt_root
  refine ⟨⟨?_, rfl⟩, fun listed => preorder_iff_eq_traverse hwell, ⟨?_, ?_, ?_⟩, ⟨hlines, ?_⟩,
    rfl, ?_, Description.readText_page (Siblings.arranged_of_describe stage.tree)⟩
  · exact Traversal.steps_of_preorder hpreorder [] []
  · exact (List.nodup_cons.mp hconsistent.listed_once).2
  · exact Nat.succ.inj hconsistent.counted
  · intro path
    rw [hconsistent.listed]
    constructor
    · rintro ⟨⟨place, hmem, rfl⟩, hroot⟩
      rcases List.mem_cons.mp hmem with rfl | hmem
      · exact absurd rfl hroot
      · exact ⟨place, hmem, rfl⟩
    · rintro ⟨place, hmem, rfl⟩
      refine ⟨⟨place, List.mem_cons_of_mem _ hmem, rfl⟩, fun hroot => ?_⟩
      obtain rfl : place = .root := congrArg ScenePath.prim hroot
      exact (List.nodup_cons.mp hconsistent.listed_once).1 hmem
  · intro files commandLine arguments file hrequest hfile hopen
    rw [Command.Outcome.prints_iff, run_tree hrequest hfile hopen, hlines]
  · rw [traverse_eq_paths]
    exact Siblings.objects_describe stage.tree .root

/-- A cellar whose barrel gets a tap after an attic was added, and a rack beside the barrel. -/
def houseHistory : List Edit :=
  let cellar : PrimPath := .child .root ⟨"Cellar", by decide⟩
  let barrel : PrimPath := cellar.child ⟨"Barrel", by decide⟩
  let attic : PrimPath := .child .root ⟨"Attic", by decide⟩
  [.definePrim barrel, .definePrim attic, .definePrim (cellar.child ⟨"Rack", by decide⟩),
    .definePrim (barrel.child ⟨"Tap", by decide⟩), .createRelationship barrel "hoops" [attic]]

/-- The loop visits the tap right after its barrel, although it was defined last, and the printed
tree shows it there. -/
theorem houseHistory_in_order :
    Traversal.Steps (houseHistory.foldl Edit.run {}) (.start (houseHistory.foldl Edit.run {}))
      ⟨[], (houseHistory.foldl Edit.run {}).traverse⟩ ∧
    (houseHistory.foldl Edit.run {}).traverse.map PrimPath.text =
      ["/Cellar", "/Cellar/Barrel", "/Cellar/Barrel/Tap", "/Cellar/Rack", "/Attic"] ∧
    (houseHistory.foldl Edit.run {}).traverse.map (houseHistory.foldl Edit.run {}).lineAt =
      ["Cellar", "  Barrel  [1 rel]", "    Tap", "  Rack", "Attic"] := by
  have hreach : Reachable (houseHistory.foldl Edit.run {}) := Reachable.new.foldl houseHistory
  obtain ⟨⟨hsteps, _⟩, _, _, ⟨hlines, _⟩, _⟩ := hreach.traverse_in_order
  refine ⟨hsteps, ?_, ?_⟩
  · rw [traverse_eq_paths]
    decide
  · rw [← hlines]
    decide

end Stage

end MaterialBinding
