import MaterialBinding.Stage.Basic
import MaterialBinding.Error

/-!
# Membership of a collection

A collection is flattened into entries, each a path with a rule.  Included paths that address
other collections bring in the entries of those, and the excludes of a collection follow its
includes.  Of several entries for one path the last one counts.

A path is a member if its own entry includes it, or if it has none and the nearest path above with
an entry includes it and reaches that far (`MemberRules.contains`).

A collection that includes itself, directly or through others, has no membership: `entriesOf`
keeps the addresses of the collections it is inside of, and stops at the first that is entered
again.  Every collection entered from another one is on the stage, so the depth of the nesting is
bounded by their number, which is where `Stage.nestingLimit` comes from.
-/

namespace MaterialBinding

/-- What an entry says about its path. -/
inductive Rule where
  /-- The path is in, and the expansion rule says what below it. -/
  | included (expansion : ExpansionRule)
  /-- The path is out, with everything below. -/
  | excluded
deriving DecidableEq

/-- The rule puts its own path in. -/
def Rule.takesIn : Rule → Bool
  | included _ => true
  | excluded => false

/-- The rule puts in a path below its own. -/
def Rule.takesInBelow (path : ScenePath) : Rule → Bool
  | included .explicitOnly => false
  | included .expandPrims => !path.isProperty
  | included .expandPrimsAndProperties => true
  | excluded => false

/-- The number of collections on the prims of a tree. -/
def Siblings.collectionCount : Siblings → Nat
  | nil => 0
  | cons _ prim children rest =>
    prim.collections.length + children.collectionCount + rest.collectionCount

/-- Collections nest at most this deep: the first, every one on the stage, and one entered again. -/
def Stage.nestingLimit (stage : Stage) : Nat := stage.tree.collectionCount + 2

/-- The flattened rules of a collection. -/
structure MemberRules where
  /-- Paths with their rules, in the order in which they were written. -/
  entries : List (ScenePath × Rule)
deriving DecidableEq

namespace MemberRules

/-- The entries of the collection with that address, inside of the collections at `inside`. -/
def entriesOf (stage : Stage) :
    Nat → List ScenePath → ScenePath → Collection → Except Error (List (ScenePath × Rule))
  | 0, _, address, _ => .error (.collectionCycle address)
  | depth + 1, inside, address, collection =>
    if address ∈ inside then .error (.collectionCycle address)
    else do
      let rule := Rule.included collection.expansionRule
      let included ← collection.includes.mapM fun path =>
        if path.asCollection?.isNone then .ok [(path, rule)]
        else
          match stage.collectionAt? path with
          | some nested => entriesOf stage depth (address :: inside) path nested
          | none => .ok []
      .ok ((if collection.includeRoot then [(ScenePath.root, rule)] else []) ++ included.flatten ++
        collection.excludes.map fun path => (path, Rule.excluded))

/-- Flattens a collection that belongs to the prim at `owner`. -/
def compute (stage : Stage) (owner : ScenePath) (collection : Collection) :
    Except Error MemberRules :=
  match owner.collection collection.name with
  | .error cause => .error (.invalidPath cause)
  | .ok address =>
    match entriesOf stage stage.nestingLimit [] address collection with
    | .error error => .error error
    | .ok entries => .ok ⟨entries⟩

/-- The rule of a path: that of its last entry. -/
def rule? (rules : MemberRules) (path : ScenePath) : Option Rule :=
  rules.entries.reverse.lookup path

/-- The rule of the nearest prim at or above the path that has one. -/
def nearestRule? (rules : MemberRules) : PrimPath → Option Rule
  | .root => rules.rule? .root
  | .child above name =>
    match rules.rule? (ScenePath.ofPrim (.child above name)) with
    | some rule => some rule
    | none => rules.nearestRule? above

/-- The path is a member. -/
def contains (rules : MemberRules) (path : ScenePath) : Bool :=
  match rules.rule? path with
  | some rule => rule.takesIn
  | none =>
    match path.parent.bind fun above => rules.nearestRule? above.prim with
    | some rule => rule.takesInBelow path
    | none => false

/-- The number of paths with a rule. -/
def size (rules : MemberRules) : Nat := (rules.entries.map (·.1)).eraseDups.length

/-- No path has a rule. -/
def isEmpty (rules : MemberRules) : Bool := rules.entries.isEmpty

end MemberRules

end MaterialBinding
