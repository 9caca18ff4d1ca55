import MaterialBinding.Proofs.Binding.Erased
import MaterialBinding.Proofs.Description.Loading
import MaterialBinding.Proofs.Stage.Table

/-!
# Histories of tables

A table goes through the same edits as a stage (`Table.run`).  Step by step the two stay in step
(`Stage.table_run`, `Stage.table_foldl`), and as a scene is loaded by edits too
(`InPlace.byEdits_addPrims`), the table of every reachable stage comes out of a history that begins
with the root alone (`Stage.Reachable.exists_table_history`).

`Table.Consistent` is the invariant of these tables: which paths have entries, and how the lists of
children agree with them.  `Stage.Reachable.consistent` puts all of it together.
-/

namespace MaterialBinding

/-! ## Edits of tables -/

namespace Table

/-- The table of an empty stage, with an entry of the root alone. -/
def empty : Table := fun path => if path = .root then some {} else none

/-- Changes a relationship or makes one, if a property may have its name. -/
def putRelationship (table : Table) (prim : ScenePath) (name : String)
    (f : Relationship → Relationship) : Table :=
  if isPropertyName name.toList then table.modifyPrim prim (·.putRelationship name f) else table

/-- The table after the call.  Where there is no entry to change, or no relationship of the name,
nothing happens, so only what the arguments say is checked. -/
def run (table : Table) : Edit → Table
  | .definePrim path => if path.isProperty then table else table.definePrim path.prim
  | .removePrim path => (table.removePrim path).2
  | .createRelationship prim name targets => table.putRelationship prim name (·.setTargets targets)
  | .changeRelationship prim name change =>
    table.modifyPrim prim (·.modifyRelationship name change.run)
  | .setMetadata prim name key value =>
    table.modifyPrim prim (·.modifyRelationship name (·.setMetadata key value))
  | .removeRelationship prim name => table.modifyPrim prim (·.eraseRelationship name)
  | .defineCollection prim collection =>
    if isPropertyName (Collection.nameLead ++ collection.name).toList then
      table.modifyPrim prim (·.putCollection collection)
    else table
  | .bind prim material strength purpose =>
    table.putRelationship prim purpose.directName fun relationship =>
      (relationship.setTargets [material]).setStrength strength
  | .bindCollection prim collection material bindingName strength purpose =>
    match collection.asCollection? with
    | none => table
    | some (_, collectionName) =>
      let name := if bindingName = "" then collectionName else bindingName
      if ':' ∈ name.toList then table
      else
        table.putRelationship prim (purpose.collectionName name) fun relationship =>
          (relationship.setTargets [collection, material]).setStrength strength
  | .unbindDirect prim purpose => table.modifyPrim prim (·.eraseRelationship purpose.directName)
  | .unbindCollection prim bindingName purpose =>
    table.modifyPrim prim (·.eraseRelationship (purpose.collectionName bindingName))

end Table

/-- Nothing changes where no relationship has the name. -/
theorem Prim.modifyRelationship_eq_self {prim : Prim} {name : String}
    {f : Relationship → Relationship}
    (hnew : ∀ relationship ∈ prim.relationships, relationship.name ≠ name) :
    prim.modifyRelationship name f = prim := by
  have hsame : ∀ relationships : List Relationship,
      (∀ relationship ∈ relationships, relationship.name ≠ name) →
        modifyRelationshipIn name f relationships = relationships := by
    intro relationships hne
    induction relationships with
    | nil => rfl
    | cons relationship rest ih =>
        obtain ⟨hfirst, hrest⟩ := List.forall_mem_cons.mp hne
        rw [modifyRelationshipIn, if_neg hfirst, ih hrest]
  rw [modifyRelationship, hsame prim.relationships hnew]

/-- In an empty tree there is no prim but the root. -/
theorem Siblings.node?_nil (above : PrimPath) (last : PrimName) :
    nil.node? (above.child last) = none := by
  induction above generalizing last with
  | root => rfl
  | child parent other ih =>
      rw [node?_child, ih]
      rfl

namespace Stage

variable {stage : Stage} {prim : ScenePath} {name : String}

/-- What stands in an entry is what is authored there. -/
theorem prim_of_table {path : ScenePath} {entry : Entry} (hentry : stage.table path = some entry) :
    stage.prim path = entry.prim := by
  rw [prim_eq_table, hentry]
  rfl

/-- The children that an entry names are those of the prim. -/
theorem children_of_table {path : ScenePath} {entry : Entry}
    (hentry : stage.table path = some entry) :
    stage.children path = entry.children.map path.prim.child := by
  rw [children_eq_table, hentry]
  rfl

/-- Where nothing can be held, a change of the table changes nothing. -/
theorem table_modifyPrim_of_refused (f : Prim → Prim)
    (hrefused : ¬ (stage.hasPrim prim = true ∧ prim ≠ .root)) :
    stage.table.modifyPrim prim f = stage.table := by
  refine Table.modifyPrim_eq_self fun entry hentry hroot => ?_
  have hthere : stage.hasPrim prim = true := by
    rw [hasPrim_eq_isSome_table, hentry]
    rfl
  exact absurd ⟨hthere, hroot⟩ hrefused

/-- Putting a relationship does the same to the table. -/
theorem table_putRelationship (f : Relationship → Relationship) :
    (stage.afterwards (stage.putRelationship prim name f)).table =
      stage.table.putRelationship prim name f := by
  rw [Table.putRelationship]
  cases hput : stage.putRelationship prim name f with
  | ok after =>
      obtain ⟨⟨_, hname⟩, rfl⟩ := putRelationship_eq_ok_iff.mp hput
      rw [if_pos hname, afterwards]
      exact table_modifyPrim stage prim _
  | error error =>
      have hfails : ¬ ((stage.hasPrim prim = true ∧ prim ≠ .root) ∧
          isPropertyName name.toList = true) := by
        rw [← putRelationship_ok_iff (f := f), hput]
        rintro ⟨changed, hchanged⟩
        cases hchanged
      by_cases hname : isPropertyName name.toList = true
      · rw [if_pos hname, table_modifyPrim_of_refused _ fun hholds => hfails ⟨hholds, hname⟩]
        rfl
      · rw [if_neg hname]
        rfl

/-- Changing a relationship does the same to the table. -/
theorem table_modifyRelationship (f : Relationship → Relationship) :
    (stage.modifyRelationship prim name f).2.table =
      stage.table.modifyPrim prim (·.modifyRelationship name f) := by
  rw [modifyRelationship]
  cases hfound : stage.relationship? prim name with
  | some relationship => exact table_modifyPrim stage prim _
  | none =>
      have hsame : stage.table.modifyPrim prim (·.modifyRelationship name f) = stage.table := by
        refine Table.modifyPrim_eq_self fun entry hentry _ => ?_
        rw [relationship?_eq_none_iff, relationships, prim_of_table hentry] at hfound
        exact Prim.modifyRelationship_eq_self hfound
      exact hsame.symm

/-- Removing a relationship does the same to the table. -/
theorem table_removeRelationship :
    (stage.removeRelationship prim name).2.table =
      stage.table.modifyPrim prim (·.eraseRelationship name) := by
  rw [removeRelationship]
  cases hfound : stage.relationship? prim name with
  | some relationship => exact table_modifyPrim stage prim _
  | none =>
      have hsame : stage.table.modifyPrim prim (·.eraseRelationship name) = stage.table := by
        refine Table.modifyPrim_eq_self fun entry hentry _ => ?_
        rw [relationship?_eq_none_iff, relationships, prim_of_table hentry] at hfound
        exact Prim.eraseRelationship_eq_self hfound
      exact hsame.symm

/-- Setting metadata is a change of a relationship, or nothing. -/
theorem afterwards_setMetadata (key value : String) :
    stage.afterwards (stage.setMetadata prim name key value) =
      (stage.modifyRelationship prim name (·.setMetadata key value)).2 := by
  cases hfound : stage.relationship? prim name with
  | some relationship =>
      have hprim : stage.requirePrim prim = .ok () :=
        requirePrim_ok_iff.mpr ⟨hasPrim_of_relationship? hfound, ne_root_of_relationship? hfound⟩
      simp only [setMetadata, hprim, modifyRelationship, hfound]
      rfl
  | none =>
      simp only [setMetadata, modifyRelationship, hfound]
      cases stage.requirePrim prim <;> rfl

/-- Defining a collection does the same to the table. -/
theorem table_defineCollection (collection : Collection) :
    (stage.afterwards ((stage.defineCollection prim collection).map Prod.snd)).table =
      stage.table.run (.defineCollection prim collection) := by
  rw [Table.run]
  cases hdefine : stage.defineCollection prim collection with
  | ok result =>
      obtain ⟨address, after⟩ := result
      have hname := (defineCollection_ok_iff.mp ⟨_, hdefine⟩).2
      obtain ⟨_, _, rfl⟩ := defineCollection_eq_ok_iff.mp hdefine
      rw [if_pos hname, Except.map, afterwards]
      exact table_modifyPrim stage prim _
  | error error =>
      have hfails : ¬ ((stage.hasPrim prim = true ∧ prim ≠ .root) ∧
          isPropertyName (Collection.nameLead ++ collection.name).toList = true) := by
        rw [← defineCollection_ok_iff, hdefine]
        rintro ⟨result, hresult⟩
        cases hresult
      by_cases hname : isPropertyName (Collection.nameLead ++ collection.name).toList = true
      · rw [if_pos hname, table_modifyPrim_of_refused _ fun hholds => hfails ⟨hholds, hname⟩]
        rfl
      · rw [if_neg hname]
        rfl

/-- Binding a collection does the same to the table. -/
theorem table_bindCollection (collection material : ScenePath) (bindingName : String)
    (strength : Strength) (purpose : Purpose) :
    (stage.afterwards
        (stage.bindCollection prim collection material bindingName strength purpose)).table =
      stage.table.run (.bindCollection prim collection material bindingName strength purpose) := by
  rw [bindCollection, Table.run]
  cases collection.asCollection? with
  | none => rfl
  | some target =>
      simp only
      generalize (if bindingName = "" then target.2 else bindingName) = effective
      by_cases hcolon : ':' ∈ effective.toList
      · rw [if_pos hcolon, if_pos hcolon]
        rfl
      · rw [if_neg hcolon, if_neg hcolon]
        exact table_putRelationship _

/-- **An edit does to the table what it does to the stage.** -/
theorem table_run (stage : Stage) (edit : Edit) :
    (edit.run stage).table = stage.table.run edit := by
  cases edit with
  | definePrim path =>
      rw [Edit.run, definePrim, Table.run]
      by_cases hproperty : path.isProperty = true
      · rw [if_pos hproperty, if_pos hproperty]
        rfl
      · rw [if_neg hproperty, if_neg hproperty]
        exact Siblings.table_define path.prim stage.tree
  | removePrim path => exact congrArg Prod.snd (table_removePrim stage path)
  | createRelationship prim name targets => exact table_putRelationship _
  | changeRelationship prim name change => exact table_modifyRelationship change.run
  | setMetadata prim name key value =>
      rw [Edit.run, afterwards_setMetadata]
      exact table_modifyRelationship _
  | removeRelationship prim name => exact table_removeRelationship
  | defineCollection prim collection => exact table_defineCollection collection
  | bind prim material strength purpose => exact table_putRelationship _
  | bindCollection prim collection material bindingName strength purpose =>
      exact table_bindCollection collection material bindingName strength purpose
  | unbindDirect prim purpose => exact table_removeRelationship
  | unbindCollection prim bindingName purpose => exact table_removeRelationship

/-- **A stage and its table stay in step** through any edits. -/
theorem table_foldl (stage : Stage) (edits : List Edit) :
    (edits.foldl Edit.run stage).table = edits.foldl Table.run stage.table := by
  induction edits generalizing stage with
  | nil => rfl
  | cons edit rest ih => rw [List.foldl_cons, List.foldl_cons, ih, table_run]

/-- The table of an empty stage has no entry but that of the root. -/
theorem table_of_tree_nil (htree : stage.tree = .nil) : stage.table = Table.empty := by
  rw [table, htree]
  refine Siblings.table_eq_of_prims (fun path hproperty => ?_) fun path => ?_
  · have hroot : path ≠ .root := by
      rintro rfl
      cases hproperty
    exact if_neg hroot
  · cases path with
    | root => rfl
    | child above last =>
        have hroot : ScenePath.ofPrim (above.child last) ≠ .root := fun heq =>
          PrimPath.child_ne_root (congrArg ScenePath.prim heq)
        rw [Siblings.entryAt?, Siblings.node?_nil, Table.empty, if_neg hroot]
        rfl

end Stage

/-! ## Loading by edits -/

namespace InPlace

variable {α β : Type} {call : InPlace α} {next : α → InPlace β}

/-- However the call ends, some edits make the table that it leaves. -/
def ByEdits (call : InPlace α) : Prop :=
  ∀ stage : Stage, ∃ edits : List Edit,
    (call.attempt stage).2.table = edits.foldl Table.run stage.table

/-- A call that leaves the stage as it was takes no edit. -/
theorem byEdits_of_same (hsame : ∀ stage, (call.attempt stage).2 = stage) : call.ByEdits :=
  fun stage => ⟨[], congrArg Stage.table (hsame stage)⟩

/-- A check is no edit. -/
theorem byEdits_check (result : Except Error α) : (check result).ByEdits :=
  byEdits_of_same fun stage => by cases result <;> rfl

/-- A call that is an edit takes this one. -/
theorem byEdits_of_edit (edit : Edit) (hedit : ∀ stage, (call.attempt stage).2 = edit.run stage) :
    call.ByEdits := by
  intro stage
  refine ⟨[edit], ?_⟩
  rw [hedit stage]
  exact Stage.table_run stage edit

/-- One call after the other takes the edits of both. -/
theorem ByEdits.bind (hcall : call.ByEdits) (hnext : ∀ value, (next value).ByEdits) :
    (call >>= next).ByEdits := by
  intro stage
  obtain ⟨edits, hedits⟩ := hcall stage
  rw [attempt_bind]
  rcases hresult : call.attempt stage with ⟨value | error, after⟩
  · rw [hresult] at hedits
    exact ⟨edits, hedits⟩
  · rw [hresult] at hedits
    obtain ⟨others, hothers⟩ := hnext _ after
    refine ⟨edits ++ others, ?_⟩
    rw [List.foldl_append, ← hedits, hothers]

/-- What is left of a stage by a call that writes all or nothing. -/
theorem snd_ending (stage : Stage) (result : Except Error (α × Stage)) :
    (ending stage result).2 = stage.afterwards (result.map Prod.snd) := by
  cases result <;> rfl

/-- Defining a prim is an edit, or nothing. -/
theorem byEdits_definePrim (path : ScenePath) : (definePrim path).ByEdits := by
  refine byEdits_of_edit (.definePrim path) fun stage => ?_
  rw [attempt_definePrim, snd_ending]
  cases hresult : stage.definePrim path <;> simp [Edit.run, hresult, Except.map]

/-- Writing a relationship is an edit, or nothing. -/
theorem byEdits_createRelationship (prim : ScenePath) (name : String)
    (targets : List ScenePath) : (createRelationship prim name targets).ByEdits := by
  refine byEdits_of_edit (.createRelationship prim name targets) fun stage => ?_
  rw [attempt_createRelationship, snd_ending]
  cases hresult : stage.createRelationship prim name targets <;>
    simp [Edit.run, hresult, Except.map]

/-- Defining a collection is an edit, or nothing. -/
theorem byEdits_defineCollection (prim : ScenePath) (collection : Collection) :
    (defineCollection prim collection).ByEdits := by
  refine byEdits_of_edit (.defineCollection prim collection) fun stage => ?_
  rw [attempt_defineCollection, snd_ending]
  rfl

/-- Setting metadata is an edit, or nothing. -/
theorem byEdits_annotate (prim : ScenePath) (name key value : String) :
    (annotate prim name key value).ByEdits :=
  fun stage => ⟨[.changeRelationship prim name (.setMetadata key value)],
    Stage.table_modifyPrim stage prim _⟩

/-- All metadata of a relationship is set by edits. -/
theorem byEdits_annotateAll (prim : ScenePath) (name : String) (pairs : List (String × String)) :
    (annotateAll prim name pairs).ByEdits := by
  induction pairs with
  | nil => exact byEdits_of_same fun _ => rfl
  | cons pair rest ih => exact (byEdits_annotate prim name pair.1 pair.2).bind fun _ => ih

/-- A described relationship is added by edits. -/
theorem byEdits_addRelationship (path : PrimPath) (description : RelationshipDescription) :
    (addRelationship path description).ByEdits := by
  refine (byEdits_check _).bind fun targets => ?_
  refine (byEdits_createRelationship _ _ targets).bind fun _ => ?_
  refine (byEdits_annotateAll _ _ _).bind fun _ => ?_
  cases description.bindMaterialAs with
  | none => exact byEdits_of_same fun _ => rfl
  | some token => exact byEdits_annotate _ _ _ token

/-- A described collection is added by edits. -/
theorem byEdits_addCollection (path : PrimPath) (description : CollectionDescription) :
    (addCollection path description).ByEdits := by
  refine (byEdits_check _).bind fun includes => (byEdits_check _).bind fun excludes => ?_
  exact (byEdits_defineCollection _ _).bind fun _ => byEdits_of_same fun _ => rfl

/-- Things that are added by edits are all added by edits. -/
theorem byEdits_addApart {name : α → String} {refusal : α → Error} {add : α → InPlace Unit}
    (hadd : ∀ item, (add item).ByEdits) (seen : List String) (items : List α) :
    (addApart name refusal add seen items).ByEdits := by
  induction items generalizing seen with
  | nil => exact byEdits_of_same fun _ => rfl
  | cons first rest ih =>
      rw [addApart]
      by_cases hseen : name first ∈ seen
      · rw [if_pos hseen]
        exact byEdits_of_same fun _ => rfl
      · rw [if_neg hseen]
        exact (hadd first).bind fun _ => ih (name first :: seen)

/-- **Prims are loaded by edits.** -/
theorem byEdits_addPrims (description : Description) (parent : PrimPath) (seen : List String) :
    (addPrims parent seen description).ByEdits := by
  induction description generalizing parent seen with
  | nil => exact byEdits_of_same fun _ => rfl
  | cons prim children rest ihchildren ihrest =>
      rw [addPrims]
      by_cases hseen : prim.name ∈ seen
      · rw [if_pos hseen]
        exact byEdits_of_same fun _ => rfl
      · rw [if_neg hseen]
        refine (byEdits_check _).bind fun path => ?_
        refine (byEdits_definePrim path).bind fun _ => ?_
        refine (byEdits_addApart (byEdits_addRelationship path.prim) _ _).bind fun _ => ?_
        refine (byEdits_addApart (byEdits_addCollection path.prim) _ _).bind fun _ => ?_
        exact (ihchildren path.prim []).bind fun _ => ihrest parent (prim.name :: seen)

/-- A description that is loaded leaves the stage that its calls leave. -/
theorem attempt_of_load {description : Description} {stage : Stage}
    (hload : load description = .ok stage) :
    ((addPrims .root [] description).attempt {}).2 = stage := by
  rw [load, outcome] at hload
  rcases hresult : (addPrims .root [] description).attempt {} with ⟨answer, after⟩
  rw [hresult] at hload
  cases answer with
  | error cause => cases hload
  | ok value => exact Except.ok.inj hload

end InPlace

namespace Stage

variable {stage : Stage}

/-- The table of a stage that was read from a scene. -/
theorem exists_table_history_of_ofJson {text : String} (hread : ofJson text = .ok stage) :
    ∃ edits : List Edit, stage.table = edits.foldl Table.run Table.empty := by
  rw [ofJson] at hread
  cases hdescription : Json.readText Description.reader text with
  | error problem =>
      rw [hdescription] at hread
      cases hread
  | ok description =>
      rw [hdescription] at hread
      have hload : InPlace.load description = .ok stage :=
        (InPlace.load_eq_ofDescription description).trans hread
      have hempty : ({} : Stage).table = Table.empty := table_of_tree_nil rfl
      obtain ⟨edits, hedits⟩ := InPlace.byEdits_addPrims description .root [] {}
      rw [InPlace.attempt_of_load hload, hempty] at hedits
      exact ⟨edits, hedits⟩

/-- **The table of a reachable stage comes out of a history** that begins with the root alone. -/
theorem Reachable.exists_table_history (hreach : Reachable stage) :
    ∃ edits : List Edit, stage.table = edits.foldl Table.run Table.empty := by
  induction hreach with
  | new => exact ⟨[], table_of_tree_nil rfl⟩
  | named name => exact ⟨[], table_of_tree_nil rfl⟩
  | read hread => exact exists_table_history_of_ofJson hread
  | @opened files file stage hopen =>
      rw [openFile] at hopen
      cases hfile : files.read file with
      | error error =>
          rw [hfile] at hopen
          cases hopen
      | ok found =>
          obtain ⟨canonical, text⟩ := found
          simp only [hfile] at hopen
          cases hread : ofJson text with
          | error error =>
              rw [hread] at hopen
              cases hopen
          | ok loaded =>
              rw [hread] at hopen
              obtain rfl := Except.ok.inj hopen
              obtain ⟨edits, hedits⟩ := exists_table_history_of_ofJson hread
              exact ⟨edits, hedits⟩
  | @edited stage edit _ ih =>
      obtain ⟨edits, hedits⟩ := ih
      refine ⟨edits ++ [edit], ?_⟩
      rw [List.foldl_append, ← hedits]
      exact table_run stage edit

end Stage

/-! ## The invariant of tables -/

/-- **How the entries of a table fit together**, given the paths that have one. -/
structure Table.Consistent (table : Table) (paths : List ScenePath) : Prop where
  paths_nodup : paths.Nodup
  mem_paths : ∀ path, path ∈ paths ↔ (table path).isSome = true
  /-- The root is there and holds nothing. -/
  root_entry : ∃ entry, table .root = some entry ∧ entry.prim = {}
  /-- Only paths of prims have entries. -/
  prims_only : ∀ path ∈ paths, path.isProperty = false
  /-- Above each prim but the root is a prim, which names it once. -/
  parent_entry : ∀ path ∈ paths, path ≠ .root → ∃ parent entry, path.parent = some parent ∧
    table parent = some entry ∧ (entry.children.map PrimName.text).count path.name = 1
  /-- Each child that is named has an entry right below. -/
  child_entry : ∀ path entry, table path = some entry → ∀ name ∈ entry.children,
    .ofPrim (path.prim.child name) ∈ paths
  relationship_names : ∀ path entry, table path = some entry →
    (entry.prim.relationships.map (·.name)).Nodup
  collection_names : ∀ path entry, table path = some entry →
    (entry.prim.collections.map (·.name)).Nodup
  /-- The name of each relationship makes a property of its prim. -/
  relationship_addresses : ∀ path entry, table path = some entry →
    ∀ relationship ∈ entry.prim.relationships,
      ∃ property, path.appendProperty relationship.name = .ok property
  /-- Each collection has an address. -/
  collection_addresses : ∀ path entry, table path = some entry →
    ∀ collection ∈ entry.prim.collections,
      ∃ address, path.collection collection.name = .ok address

namespace Stage

variable {stage : Stage}

/-- The paths that are listed are those with a prim. -/
theorem Consistent.listed_iff (h : stage.Consistent) {path : ScenePath} :
    path ∈ (.root :: stage.traverse : List PrimPath).map .ofPrim ↔ stage.hasPrim path = true := by
  rw [h.listed, List.mem_map]
  exact exists_congr fun place => and_congr_right fun _ => eq_comm

/-- **The table of a consistent stage is consistent**, with an entry under each path that is
listed. -/
theorem Consistent.table (h : stage.Consistent) :
    stage.table.Consistent ((.root :: stage.traverse : List PrimPath).map .ofPrim) where
  paths_nodup := List.Pairwise.map _ (fun _ _ => mt ScenePath.ofPrim_inj.mp) h.listed_once
  mem_paths path := by rw [h.listed_iff, hasPrim_eq_isSome_table]
  root_entry := by
    have hthere : (stage.table .root).isSome = true := hasPrim_eq_isSome_table ▸ h.root_there
    obtain ⟨entry, hentry⟩ := Option.isSome_iff_exists.mp hthere
    have hbare : stage.prim .root = {} :=
      congrArg₂ Prim.mk h.root_relationships h.root_collections
    refine ⟨entry, hentry, ?_⟩
    rw [← prim_of_table hentry, hbare]
  prims_only path hmem := h.prims_only path (h.listed_iff.mp hmem)
  parent_entry path hmem hroot := by
    obtain ⟨parent, hparent, hthere, hcount⟩ := h.parent_there path (h.listed_iff.mp hmem) hroot
    rw [hasPrim_eq_isSome_table] at hthere
    obtain ⟨entry, hentry⟩ := Option.isSome_iff_exists.mp hthere
    rw [children_of_table hentry, List.map_map] at hcount
    exact ⟨parent, entry, hparent, hentry, hcount⟩
  child_entry path entry hentry name hname := by
    have hchild : path.prim.child name ∈ stage.children path := by
      rw [children_of_table hentry]
      exact List.mem_map_of_mem hname
    exact h.listed_iff.mpr (h.child_there path _ hchild).1
  relationship_names path entry hentry := by
    rw [← prim_of_table hentry]
    exact h.relationship_names path
  collection_names path entry hentry := by
    rw [← prim_of_table hentry]
    exact h.collection_names path
  relationship_addresses path entry hentry := by
    rw [← prim_of_table hentry]
    exact h.relationship_addresses path
  collection_addresses path entry hentry := by
    rw [← prim_of_table hentry]
    exact h.collection_addresses path

/-- **Every reachable stage is consistent**, and so is its table: which paths have entries, whom
each entry names as its children, and what is authored there.  The table comes out of a history of
tables, and it stays in step with the stage through all further edits. -/
theorem Reachable.consistent (hreach : Reachable stage) :
    stage.Consistent ∧
      stage.table.Consistent ((.root :: stage.traverse : List PrimPath).map .ofPrim) ∧
      (∃ edits : List Edit, stage.table = edits.foldl Table.run Table.empty) ∧
      ∀ edits : List Edit,
        (edits.foldl Edit.run stage).table = edits.foldl Table.run stage.table := by
  have hconsistent : stage.Consistent := consistent_of_wellFormed hreach.wellFormed
  exact ⟨hconsistent, hconsistent.table, hreach.exists_table_history, table_foldl stage⟩

/-- A shelf with a vase and a lamp that was taken away; the vase is bound to a material that nobody
defined.  Two of the calls are refused: a property is no prim, and no relationship is called
`two names`. -/
def tidyHistory : List Edit :=
  let shelf : PrimPath := .child .root ⟨"Shelf", by decide⟩
  let vase : PrimPath := shelf.child ⟨"Vase", by decide⟩
  let lamp : PrimPath := .child .root ⟨"Lamp", by decide⟩
  let clay : PrimPath := .child .root ⟨"Clay", by decide⟩
  [.definePrim vase, .definePrim lamp,
    .definePrim (.ofProperty .root ⟨"Shelf", by decide⟩ ⟨"size", by decide⟩),
    .bind vase clay .stronger .full, .createRelationship vase "two names" [shelf],
    .defineCollection shelf { name := "all", includes := [shelf] }, .removePrim lamp]

/-- The stage after this history has two prims, the shelf and its vase, and its table has entries
for them and for the root. -/
theorem tidyHistory_consistent :
    let stage := tidyHistory.foldl Edit.run {}
    stage.Consistent ∧ stage.size = 2 ∧
      ∃ paths, stage.table.Consistent paths ∧
        paths.map ScenePath.text = ["/", "/Shelf", "/Shelf/Vase"] := by
  intro stage
  obtain ⟨hconsistent, htable, _⟩ := (Reachable.new.foldl tidyHistory).consistent
  refine ⟨hconsistent, by decide, _, htable, ?_⟩
  rw [traverse_eq_paths]
  decide

end Stage

end MaterialBinding
