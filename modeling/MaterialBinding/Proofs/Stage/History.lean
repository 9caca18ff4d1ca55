import MaterialBinding.Binding.Authoring
import MaterialBinding.Files.Basic
import MaterialBinding.Proofs.Metadata
import MaterialBinding.Proofs.Path.Text

/-!
# Histories of stages

A stage starts empty or is read from a scene, and then goes through any number of edits.  An `Edit`
is one call of an authoring operation with all its arguments; a refused call counts as an edit too
and leaves the stage as it was.  The reachable stages are those at the end of a history.

`Edit.outcome_run` says once what an edit can do to a stage: nothing, define a prim, cut one off,
or change what one prim holds.  The change is one of the four of `PrimChange`, and it makes only
properties with names that the grammar admits.
-/

namespace MaterialBinding

/-- A change of one relationship, which replaces or appends targets or edits the metadata. -/
inductive RelationshipEdit where
  | setTargets (targets : List ScenePath)
  | addTarget (target : ScenePath)
  | setMetadata (key value : String)
  | eraseMetadata (key : String)
deriving DecidableEq

/-- The relationship after the change. -/
def RelationshipEdit.run : RelationshipEdit → Relationship → Relationship
  | setTargets targets, relationship => relationship.setTargets targets
  | addTarget target, relationship => relationship.addTarget target
  | setMetadata key value, relationship => relationship.setMetadata key value
  | eraseMetadata key, relationship => relationship.eraseMetadata key

/-- One call of an operation that changes a stage, with its arguments. -/
inductive Edit where
  | definePrim (path : ScenePath)
  | removePrim (path : ScenePath)
  | createRelationship (prim : ScenePath) (name : String) (targets : List ScenePath)
  | changeRelationship (prim : ScenePath) (name : String) (change : RelationshipEdit)
  | setMetadata (prim : ScenePath) (name key value : String)
  | removeRelationship (prim : ScenePath) (name : String)
  | defineCollection (prim : ScenePath) (collection : Collection)
  | bind (prim material : ScenePath) (strength : Strength) (purpose : Purpose)
  | bindCollection (prim collection material : ScenePath) (bindingName : String)
      (strength : Strength) (purpose : Purpose)
  | unbindDirect (prim : ScenePath) (purpose : Purpose)
  | unbindCollection (prim : ScenePath) (bindingName : String) (purpose : Purpose)
deriving DecidableEq

/-- The stage after an operation that may be refused. -/
def Stage.afterwards (stage : Stage) : Except Error Stage → Stage
  | .ok changed => changed
  | .error _ => stage

/-- The stage after the call. -/
def Edit.run (stage : Stage) : Edit → Stage
  | definePrim path => stage.afterwards (stage.definePrim path)
  | removePrim path => (stage.removePrim path).2
  | createRelationship prim name targets =>
    stage.afterwards (stage.createRelationship prim name targets)
  | changeRelationship prim name change => (stage.modifyRelationship prim name change.run).2
  | setMetadata prim name key value => stage.afterwards (stage.setMetadata prim name key value)
  | removeRelationship prim name => (stage.removeRelationship prim name).2
  | defineCollection prim collection =>
    stage.afterwards ((stage.defineCollection prim collection).map Prod.snd)
  | bind prim material strength purpose =>
    stage.afterwards (stage.bind prim material strength purpose)
  | bindCollection prim collection material bindingName strength purpose =>
    stage.afterwards (stage.bindCollection prim collection material bindingName strength purpose)
  | unbindDirect prim purpose => (stage.unbindDirect prim purpose).2
  | unbindCollection prim bindingName purpose => (stage.unbindCollection prim bindingName purpose).2

/-- The stages at the end of a history. -/
inductive Stage.Reachable : Stage → Prop
  /-- An empty stage without a name of its own. -/
  | new : Reachable {}
  /-- An empty stage with a name. -/
  | named (name : String) : Reachable { name }
  /-- A stage read from the text of a scene. -/
  | read {text : String} {stage : Stage} (hread : Stage.ofJson text = .ok stage) :
      Reachable stage
  /-- A stage read from a file, which gives it its name. -/
  | opened {files : Files} {file : String} {stage : Stage}
      (hopen : Stage.openFile files file = .ok stage) : Reachable stage
  /-- One more edit. -/
  | edited {stage : Stage} (edit : Edit) (before : Reachable stage) : Reachable (edit.run stage)

/-- Any number of edits lead from a reachable stage to a reachable one. -/
theorem Stage.Reachable.foldl {stage : Stage} (before : Reachable stage) (edits : List Edit) :
    Reachable (edits.foldl Edit.run stage) := by
  induction edits generalizing stage with
  | nil => exact before
  | cons edit edits ih => exact ih (before.edited edit)

/-- What an edit may do to one relationship: its name stays, and no metadata key comes to stand
twice. -/
structure KeepsIdentity (f : Relationship → Relationship) : Prop where
  name_eq : ∀ relationship, (f relationship).name = relationship.name
  keys_nodup : ∀ relationship, relationship.metadata.keys.Nodup →
    (f relationship).metadata.keys.Nodup

/-- What an edit may do to one prim. -/
inductive PrimChange : (Prim → Prim) → Prop
  /-- A relationship with a name that a property may have is changed or made. -/
  | put {name : String} {f : Relationship → Relationship}
      (hname : isPropertyName name.toList = true) (hf : KeepsIdentity f) :
      PrimChange (·.putRelationship name f)
  /-- A relationship is changed. -/
  | modify {name : String} {f : Relationship → Relationship} (hf : KeepsIdentity f) :
      PrimChange (·.modifyRelationship name f)
  /-- A relationship is taken out. -/
  | erase (name : String) : PrimChange (·.eraseRelationship name)
  /-- A collection is written whose address a property may have. -/
  | collect {collection : Collection}
      (hname : isPropertyName (Collection.nameLead ++ collection.name).toList = true) :
      PrimChange (·.putCollection collection)

/-- Whatever is done to a relationship keeps its name, and its keys different. -/
theorem RelationshipEdit.keepsIdentity (change : RelationshipEdit) : KeepsIdentity change.run where
  name_eq := by cases change <;> intro relationship <;> rfl
  keys_nodup := by
    intro relationship hnodup
    cases change with
    | setTargets targets => exact hnodup
    | addTarget target => exact hnodup
    | setMetadata key value => exact Metadata.keys_nodup_set hnodup value
    | eraseMetadata key => exact Metadata.keys_nodup_erase hnodup

/-- Binding replaces the targets and then writes the strength. -/
theorem keepsIdentity_bind (targets : List ScenePath) (strength : Strength) :
    KeepsIdentity fun relationship =>
      (relationship.setTargets targets).setStrength strength where
  name_eq := by cases strength <;> intro relationship <;> rfl
  keys_nodup := by
    intro relationship hnodup
    cases strength with
    | weaker => exact Metadata.keys_nodup_erase hnodup
    | stronger => exact Metadata.keys_nodup_set hnodup _

/-- The ways in which an edit can end. -/
inductive Edit.Outcome (stage : Stage) : Stage → Prop
  /-- The call was refused, or there was nothing to do. -/
  | same : Outcome stage stage
  /-- Prims were made on the way to a path. -/
  | defined (path : PrimPath) : Outcome stage { stage with tree := stage.tree.define path }
  /-- A child of the prim at `above` was cut off. -/
  | removed (above : PrimPath) (name : PrimName) :
      Outcome stage { stage with tree := stage.tree.editAt above (Siblings.erase name) }
  /-- What one prim holds was changed. -/
  | changed (path : ScenePath) {change : Prim → Prim} (hchange : PrimChange change) :
      Outcome stage (stage.modifyPrim path change)

namespace Edit

variable {stage : Stage}

/-- Putting a relationship leaves the stage or changes one prim. -/
theorem outcome_putRelationship {prim : ScenePath} {name : String}
    {f : Relationship → Relationship} (hf : KeepsIdentity f) :
    Outcome stage (stage.afterwards (stage.putRelationship prim name f)) := by
  unfold Stage.putRelationship
  cases happend : prim.appendProperty name with
  | error cause => exact .same
  | ok property =>
      have hname : isPropertyName name.toList = true :=
        (ScenePath.appendProperty_ok_iff.mp ⟨property, happend⟩).2
      cases stage.requirePrim prim with
      | error error => exact .same
      | ok _ => exact .changed prim (.put hname hf)

/-- Changing a relationship leaves the stage or changes one prim. -/
theorem outcome_modifyRelationship {prim : ScenePath} {name : String}
    {f : Relationship → Relationship} (hf : KeepsIdentity f) :
    Outcome stage (stage.modifyRelationship prim name f).2 := by
  unfold Stage.modifyRelationship
  split
  · exact .changed prim (.modify hf)
  · exact .same

/-- Removing a relationship leaves the stage or changes one prim. -/
theorem outcome_removeRelationship (prim : ScenePath) (name : String) :
    Outcome stage (stage.removeRelationship prim name).2 := by
  unfold Stage.removeRelationship
  split
  · exact .changed prim (.erase name)
  · exact .same

/-- Setting metadata leaves the stage or changes one prim. -/
theorem outcome_setMetadata (prim : ScenePath) (name key value : String) :
    Outcome stage (stage.afterwards (stage.setMetadata prim name key value)) := by
  have hmodify : Outcome stage
      (stage.modifyRelationship prim name (·.setMetadata key value)).2 :=
    outcome_modifyRelationship (RelationshipEdit.keepsIdentity (.setMetadata key value))
  unfold Stage.setMetadata
  cases stage.requirePrim prim with
  | error error => exact .same
  | ok _ =>
      rcases hresult : stage.modifyRelationship prim name (·.setMetadata key value) with
        ⟨found, changed⟩
      rw [hresult] at hmodify
      cases found with
      | true => exact hmodify
      | false => exact .same

/-- Defining a collection leaves the stage or changes one prim. -/
theorem outcome_defineCollection (prim : ScenePath) (collection : Collection) :
    Outcome stage
      (stage.afterwards ((stage.defineCollection prim collection).map Prod.snd)) := by
  unfold Stage.defineCollection ScenePath.collection
  cases happend : prim.appendProperty (Collection.nameLead ++ collection.name) with
  | error cause => exact .same
  | ok address =>
      have hname : isPropertyName (Collection.nameLead ++ collection.name).toList = true :=
        (ScenePath.appendProperty_ok_iff.mp ⟨address, happend⟩).2
      cases stage.requirePrim prim with
      | error error => exact .same
      | ok _ => exact .changed prim (.collect hname)

/-- Binding a collection leaves the stage or changes one prim. -/
theorem outcome_bindCollection (prim collection material : ScenePath) (bindingName : String)
    (strength : Strength) (purpose : Purpose) :
    Outcome stage (stage.afterwards
      (stage.bindCollection prim collection material bindingName strength purpose)) := by
  unfold Stage.bindCollection
  cases collection.asCollection? with
  | none => exact .same
  | some target =>
      simp only
      generalize (if bindingName = "" then target.2 else bindingName) = name
      split
      · exact .same
      · exact outcome_putRelationship (keepsIdentity_bind _ _)

/-- **What an edit can do.** -/
theorem outcome_run (edit : Edit) : Outcome stage (edit.run stage) := by
  cases edit with
  | definePrim path =>
      rw [run, Stage.definePrim]
      split
      · exact .same
      · exact .defined path.prim
  | removePrim path =>
      rw [run, Stage.removePrim]
      split
      · exact .same
      · split
        · exact .removed _ _
        · exact .same
  | createRelationship prim name targets =>
      exact outcome_putRelationship (RelationshipEdit.keepsIdentity (.setTargets targets))
  | changeRelationship prim name change => exact outcome_modifyRelationship change.keepsIdentity
  | setMetadata prim name key value => exact outcome_setMetadata prim name key value
  | removeRelationship prim name => exact outcome_removeRelationship prim name
  | defineCollection prim collection => exact outcome_defineCollection prim collection
  | bind prim material strength purpose => exact outcome_putRelationship (keepsIdentity_bind _ _)
  | bindCollection prim collection material bindingName strength purpose =>
      exact outcome_bindCollection prim collection material bindingName strength purpose
  | unbindDirect prim purpose => exact outcome_removeRelationship prim _
  | unbindCollection prim bindingName purpose => exact outcome_removeRelationship prim _

end Edit

end MaterialBinding
