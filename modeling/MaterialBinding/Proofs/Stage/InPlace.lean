import MaterialBinding.Binding.Authoring
import MaterialBinding.Proofs.Stage.Lookup

/-!
# Authoring in place

An operation on a stage checks all of its conditions and then writes in one step.  A stage that
lives in memory is written in several steps, with checks in between: a prim is defined after the
prims above it, and only then is its own name looked at; a binding is made as a relationship, which
gets its strength afterwards.  What was written before a check fails stays written.

`InPlace` is a call that works in this way, and `attempt` carries it out.  Each call ends as the
operation does that writes in one step (`attempt_definePrim`, `attempt_defineCollection` and so on):
with the same answer, and, if this is an error, with the stage as it was.
-/

namespace MaterialBinding

/-! ## Writing twice -/

namespace Siblings

variable {tree : Siblings} {name : PrimName} {path : PrimPath} {node : Node}

/-- Two changes of one sibling are one. -/
theorem modify_modify (f g : Node → Node) (tree : Siblings) :
    (tree.modify name f).modify name g = tree.modify name (g ∘ f) := by
  induction tree with
  | nil => rfl
  | cons other prim children rest _ ih =>
      by_cases hother : other = name
      · simp [modify, hother]
      · simp [modify, hother, ih]

/-- Two changes at one place are one. -/
theorem editAt_editAt (path : PrimPath) (f g : Siblings → Siblings) (tree : Siblings) :
    (tree.editAt path f).editAt path g = tree.editAt path (g ∘ f) := by
  induction path generalizing f g with
  | root => rfl
  | child above name ih =>
      rw [editAt, editAt, ih, editAt]
      congr 1
      funext children
      exact modify_modify _ _ children

/-! ## Changing one place -/

/-- Only the prim that is there is changed. -/
theorem modify_congr {f g : Node → Node} (hfind : tree.find? name = some node)
    (hsame : f node = g node) : tree.modify name f = tree.modify name g := by
  induction tree with
  | nil => rfl
  | cons first prim children rest _ ih =>
      by_cases hfirst : first = name
      · subst hfirst
        rw [find?_cons_self] at hfind
        rw [modify_cons_self, modify_cons_self, Option.some.inj hfind, hsame]
      · rw [find?_cons_of_ne hfirst] at hfind
        rw [modify_cons_of_ne hfirst, modify_cons_of_ne hfirst, ih hfind]

/-- Changing a sibling into itself changes nothing. -/
theorem modify_id (tree : Siblings) : tree.modify name id = tree := by
  induction tree with
  | nil => rfl
  | cons first prim children rest _ ih =>
      rw [modify, ih]
      exact ite_self _

/-- A change that does nothing to the sibling of that name does nothing. -/
theorem modify_eq_self {f : Node → Node} (hfind : tree.find? name = some node)
    (hsame : f node = node) : tree.modify name f = tree :=
  (modify_congr hfind hsame).trans (modify_id tree)

/-- Only the children that are there are changed. -/
theorem editAt_congr {f g : Siblings → Siblings} (hnode : tree.node? path = some node)
    (hsame : f node.children = g node.children) : tree.editAt path f = tree.editAt path g := by
  induction path generalizing f g node with
  | root =>
      obtain rfl := Option.some.inj hnode
      exact hsame
  | child above name ih =>
      rw [node?_child] at hnode
      obtain ⟨parent, hparent, hfind⟩ := Option.bind_eq_some_iff.mp hnode
      refine ih hparent (modify_congr hfind ?_)
      rw [hsame]

/-- Changing children into themselves changes nothing. -/
theorem editAt_id (path : PrimPath) (tree : Siblings) : tree.editAt path id = tree := by
  induction path with
  | root => rfl
  | child above name ih =>
      have hsame : Siblings.modify name (fun node => { node with children := id node.children }) =
          id := funext fun children => modify_id children
      rw [editAt, hsame, ih]

/-- A change that does nothing to the children at the place does nothing. -/
theorem editAt_eq_self {f : Siblings → Siblings} (hnode : tree.node? path = some node)
    (hsame : f node.children = node.children) : tree.editAt path f = tree :=
  (editAt_congr hnode hsame).trans (editAt_id path tree)

/-! ## Defining what is there -/

/-- Defining a prim that is there changes nothing. -/
theorem define_eq_self (hnode : tree.node? path = some node) : tree.define path = tree := by
  induction path generalizing node with
  | root => rfl
  | child above name ih =>
      rw [node?_child] at hnode
      obtain ⟨parent, hparent, hfind⟩ := Option.bind_eq_some_iff.mp hnode
      rw [define, ih hparent]
      exact editAt_eq_self hparent (insert_eq_self hfind)

end Siblings

/-- A relationship that is put and then changed could have been put as it is. -/
theorem Prim.modifyRelationshipIn_putRelationshipIn {name : String}
    {f : Relationship → Relationship} (g : Relationship → Relationship)
    (hname : ∀ relationship, (f relationship).name = relationship.name)
    (relationships : List Relationship) :
    modifyRelationshipIn name g (putRelationshipIn name f relationships) =
      putRelationshipIn name (g ∘ f) relationships := by
  induction relationships with
  | nil => simp [putRelationshipIn, modifyRelationshipIn, hname]
  | cons relationship rest ih =>
      by_cases heq : relationship.name = name
      · simp [putRelationshipIn, modifyRelationshipIn, hname, heq]
      · simp [putRelationshipIn, modifyRelationshipIn, heq, ih]

/-- Two changes of one prim are one. -/
theorem Stage.modifyPrim_modifyPrim (stage : Stage) (path : ScenePath) (f g : Prim → Prim) :
    (stage.modifyPrim path f).modifyPrim path g = stage.modifyPrim path (g ∘ f) := by
  obtain ⟨prim, property, hbare⟩ := path
  cases property with
  | some property => rfl
  | none =>
      cases prim with
      | root => rfl
      | child above name =>
          simp only [modifyPrim, Siblings.editAt_editAt]
          congr 2
          funext children
          exact Siblings.modify_modify _ _ children

/-! ## Calls -/

/-- A call that works on a stage in place. -/
abbrev InPlace := ExceptT Error (StateM Stage)

namespace InPlace

variable {α β : Type} {stage : Stage}

/-- Carries out the call: its answer, and the stage as the call leaves it. -/
def attempt (call : InPlace α) (stage : Stage) : Except Error α × Stage :=
  Id.run ((ExceptT.run call).run stage)

/-- A change of the stage always succeeds. -/
@[simp] theorem attempt_modify (f : Stage → Stage) :
    (modify f : InPlace Unit).attempt stage = (.ok (), f stage) := rfl

/-- What follows a call sees the stage that the call leaves; a failure ends it all there. -/
theorem attempt_bind (call : InPlace α) (next : α → InPlace β) :
    (call >>= next).attempt stage =
      match call.attempt stage with
      | (.ok value, after) => (next value).attempt after
      | (.error error, after) => (.error error, after) := by
  simp only [attempt, ExceptT.run_bind, StateT.run_bind, Id.run_bind]
  cases Id.run ((ExceptT.run call).run stage) with
  | mk result after => cases result <;> rfl

/-- Looking at the stage leaves it as it is. -/
theorem attempt_get_bind (next : Stage → InPlace β) :
    (get >>= next).attempt stage = (next stage).attempt stage := rfl

/-- A check that may fail and writes nothing. -/
def check : Except Error α → InPlace α
  | .ok value => pure value
  | .error error => throw error

/-- Goes on if the path is that of a prim which can hold relationships and collections. -/
def requirePrim (prim : ScenePath) : InPlace Unit := do
  check ((← get).requirePrim prim)

/-- Defines the prims above, then looks at the name of the last one and adds it. -/
def definePrimAt : PrimPath → InPlace Unit
  | .root => pure ()
  | .child above name => do
    if (← get).hasPrim (above.child name) then pure ()
    else
      definePrimAt above
      check ((checkPrimName name.text).mapError .invalidPath)
      modify fun stage =>
        { stage with tree := stage.tree.editAt above (Siblings.insert name) }

/-- Makes sure that there is a prim at the path and at every path above it. -/
def definePrim (path : ScenePath) : InPlace Unit :=
  if path.isProperty then throw (.invalidPath (.notPrim path)) else definePrimAt path.prim

/-- Writes a relationship; one that exists keeps its place and its metadata. -/
def createRelationship (prim : ScenePath) (name : String) (targets : List ScenePath) :
    InPlace Unit := do
  let _ ← check ((prim.appendProperty name).mapError .invalidPath)
  requirePrim prim
  modify (·.modifyPrim prim (·.putRelationship name (·.setTargets targets)))

/-- Writes the strength on a relationship that was just written. -/
def applyStrength (prim : ScenePath) (name : String) (strength : Strength) : InPlace Unit :=
  modify (·.modifyPrim prim (·.modifyRelationship name (·.setStrength strength)))

/-- Binds a material to a prim. -/
def bindMaterial (prim material : ScenePath) (strength : Strength) (purpose : Purpose) :
    InPlace Unit := do
  createRelationship prim purpose.directName [material]
  applyStrength prim purpose.directName strength

/-- Binds a material to the members of a collection. -/
def bindCollection (prim collection material : ScenePath) (bindingName : String)
    (strength : Strength) (purpose : Purpose) : InPlace Unit :=
  match collection.asCollection? with
  | none => throw (.invalidPath (.notCollection collection))
  | some (_, collectionName) => do
    let name := if bindingName = "" then collectionName else bindingName
    if ':' ∈ name.toList then throw (.invalidPath (.bindingNameColon name))
    else
      createRelationship prim (purpose.collectionName name) [collection, material]
      applyStrength prim (purpose.collectionName name) strength

/-- Gives a metadata key of a relationship a value. -/
def setMetadata (prim : ScenePath) (name key value : String) : InPlace Unit := do
  requirePrim prim
  if ((← get).relationship? prim name).isSome then
    modify (·.modifyPrim prim (·.modifyRelationship name (·.setMetadata key value)))
  else throw (.relationshipNotFound name prim)

/-- Writes a collection on a prim and returns its address. -/
def defineCollection (prim : ScenePath) (collection : Collection) : InPlace ScenePath := do
  let address ← check ((prim.collection collection.name).mapError .invalidPath)
  requirePrim prim
  modify (·.modifyPrim prim (·.putCollection collection))
  pure address

/-! ## Each call in one step -/

/-- How a call ends that either writes all or nothing: with the stage that is given, or else with
the one from before. -/
def ending (stage : Stage) : Except Error (α × Stage) → Except Error α × Stage
  | .ok (value, changed) => (.ok value, changed)
  | .error error => (.error error, stage)

/-- After a check that fails nothing is done. -/
theorem attempt_check_bind (result : Except Error α) (next : α → InPlace β) :
    (check result >>= next).attempt stage =
      match result with
      | .ok value => (next value).attempt stage
      | .error error => (.error error, stage) := by
  rw [attempt_bind]
  cases result <;> rfl

/-- Without the required prim nothing is done. -/
theorem attempt_requirePrim_bind (prim : ScenePath) (next : Unit → InPlace β) :
    (requirePrim prim >>= next).attempt stage =
      match stage.requirePrim prim with
      | .ok _ => (next ()).attempt stage
      | .error error => (.error error, stage) := by
  rw [requirePrim, bind_assoc, attempt_get_bind, attempt_check_bind]
  cases stage.requirePrim prim <;> rfl

/-- A name that stands in a path can name a prim, so defining a prim never fails halfway. -/
theorem attempt_definePrimAt (path : PrimPath) (stage : Stage) :
    (definePrimAt path).attempt stage =
      (.ok (), { stage with tree := stage.tree.define path }) := by
  induction path with
  | root => rfl
  | child above name ih =>
      rw [definePrimAt, attempt_get_bind]
      by_cases hthere : stage.hasPrim (above.child name) = true
      · obtain ⟨node, hnode⟩ := Option.isSome_iff_exists.mp hthere
        have hsame : stage.tree.define (above.child name) = stage.tree :=
          Siblings.define_eq_self hnode
        rw [if_pos hthere, hsame]
        rfl
      · have hname : checkPrimName name.text = .ok () := by
          rw [checkPrimName, if_pos name.well_formed]
        rw [if_neg hthere, attempt_bind, ih, hname]
        rfl

/-- Defining a prim step by step ends like the operation. -/
theorem attempt_definePrim (path : ScenePath) :
    (definePrim path).attempt stage =
      ending stage ((stage.definePrim path).map (Prod.mk ())) := by
  rw [definePrim, Stage.definePrim]
  split
  · rfl
  · exact attempt_definePrimAt path.prim stage

/-- Writing a relationship and then changing it is writing it in one step. -/
theorem attempt_createRelationship_modify (prim : ScenePath) (name : String)
    (targets : List ScenePath) (g : Relationship → Relationship) :
    (createRelationship prim name targets >>= fun _ =>
        (modify (·.modifyPrim prim (·.modifyRelationship name g)) : InPlace Unit)).attempt stage =
      ending stage
        ((stage.putRelationship prim name (g ∘ (·.setTargets targets))).map (Prod.mk ())) := by
  simp only [createRelationship, bind_assoc]
  rw [attempt_check_bind, Stage.putRelationship]
  cases prim.appendProperty name with
  | error cause => rfl
  | ok property =>
      refine (attempt_requirePrim_bind prim _).trans ?_
      cases stage.requirePrim prim with
      | error error => rfl
      | ok _ =>
          have htwice : (·.modifyRelationship name g) ∘
              (·.putRelationship name (·.setTargets targets)) =
                (·.putRelationship name (g ∘ (·.setTargets targets)) : Prim → Prim) := by
            funext held
            simp only [Function.comp_apply, Prim.modifyRelationship, Prim.putRelationship]
            rw [Prim.modifyRelationshipIn_putRelationshipIn]
            exact fun _ => rfl
          simp only [attempt_bind, attempt_modify, Stage.modifyPrim_modifyPrim, htwice]
          rfl

/-- Writing a relationship step by step ends like the operation. -/
theorem attempt_createRelationship (prim : ScenePath) (name : String)
    (targets : List ScenePath) :
    (createRelationship prim name targets).attempt stage =
      ending stage ((stage.createRelationship prim name targets).map (Prod.mk ())) := by
  rw [createRelationship, attempt_check_bind, Stage.createRelationship, Stage.putRelationship]
  cases prim.appendProperty name with
  | error cause => rfl
  | ok property =>
      refine (attempt_requirePrim_bind prim _).trans ?_
      cases stage.requirePrim prim <;> rfl

/-- Binding a material step by step ends like the operation. -/
theorem attempt_bindMaterial (prim material : ScenePath) (strength : Strength)
    (purpose : Purpose) :
    (bindMaterial prim material strength purpose).attempt stage =
      ending stage ((stage.bind prim material strength purpose).map (Prod.mk ())) :=
  attempt_createRelationship_modify prim purpose.directName [material] (·.setStrength strength)

/-- Binding a collection step by step ends like the operation. -/
theorem attempt_bindCollection (prim collection material : ScenePath) (bindingName : String)
    (strength : Strength) (purpose : Purpose) :
    (bindCollection prim collection material bindingName strength purpose).attempt stage =
      ending stage ((stage.bindCollection prim collection material bindingName strength purpose).map
        (Prod.mk ())) := by
  rw [bindCollection, Stage.bindCollection]
  cases collection.asCollection? with
  | none => rfl
  | some target =>
      simp only
      generalize (if bindingName = "" then target.2 else bindingName) = name
      split
      · rfl
      · exact attempt_createRelationship_modify prim (purpose.collectionName name)
          [collection, material] (·.setStrength strength)

/-- Setting metadata step by step ends like the operation. -/
theorem attempt_setMetadata (prim : ScenePath) (name key value : String) :
    (setMetadata prim name key value).attempt stage =
      ending stage ((stage.setMetadata prim name key value).map (Prod.mk ())) := by
  rw [setMetadata, attempt_requirePrim_bind, Stage.setMetadata]
  cases stage.requirePrim prim with
  | error error => rfl
  | ok _ =>
      simp only [attempt_get_bind, Stage.modifyRelationship]
      cases (stage.relationship? prim name).isSome <;> rfl

/-- Defining a collection step by step ends like the operation. -/
theorem attempt_defineCollection (prim : ScenePath) (collection : Collection) :
    (defineCollection prim collection).attempt stage =
      ending stage (stage.defineCollection prim collection) := by
  rw [defineCollection, attempt_check_bind, Stage.defineCollection]
  cases prim.collection collection.name with
  | error cause => rfl
  | ok address =>
      refine (attempt_requirePrim_bind prim _).trans ?_
      cases stage.requirePrim prim <;> rfl

end InPlace

end MaterialBinding
