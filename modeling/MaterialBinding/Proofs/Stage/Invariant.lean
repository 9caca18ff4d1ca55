import MaterialBinding.Proofs.Description.Checked
import MaterialBinding.Proofs.Stage.History

/-!
# The invariant of stages

A stage holds one tree, and whatever is asked about it is read off that tree: what the children of
a prim are, which paths have prims, how many there are.  The tree of every reachable stage is well
formed (`Reachable.wellFormed`), since it is so at the beginning of a history and each of the
outcomes of an edit keeps it.

`consistent_of_wellFormed` says what this means for the questions that can be asked.
-/

namespace MaterialBinding

namespace Prim

variable {name : String} {f : Relationship → Relationship} {relationships : List Relationship}

/-- A new name comes in as the last; one that is there stays in its place. -/
theorem names_putRelationshipIn (hf : ∀ relationship, (f relationship).name = relationship.name) :
    (putRelationshipIn name f relationships).map (·.name) =
      if name ∈ relationships.map (·.name) then relationships.map (·.name)
      else relationships.map (·.name) ++ [name] := by
  induction relationships with
  | nil => simp [putRelationshipIn, hf]
  | cons relationship rest ih =>
      by_cases hname : relationship.name = name
      · simp [putRelationshipIn, hname, hf]
      · have hne : name ≠ relationship.name := fun h => hname h.symm
        simp only [putRelationshipIn, if_neg hname, List.map_cons, ih, List.mem_cons, hne,
          false_or]
        split <;> rfl

/-- Putting a relationship is not seen by those who leave out its name. -/
theorem filter_putRelationshipIn (seen : String → Bool) (hunseen : seen name = false)
    (hf : ∀ relationship, (f relationship).name = relationship.name)
    (relationships : List Relationship) :
    (putRelationshipIn name f relationships).filter (fun r => seen r.name) =
      relationships.filter fun r => seen r.name := by
  induction relationships with
  | nil => simp [putRelationshipIn, hf, hunseen]
  | cons relationship rest ih =>
      rw [putRelationshipIn]
      split_ifs with hname
      · simp [hf, hname, hunseen]
      · rw [List.filter_cons, List.filter_cons, ih]

/-- Taking relationships out is not seen by those who leave out their name. -/
theorem filter_eraseRelationship (seen : String → Bool) (hunseen : seen name = false)
    (prim : Prim) :
    (prim.eraseRelationship name).relationships.filter (fun r => seen r.name) =
      prim.relationships.filter fun r => seen r.name := by
  rw [eraseRelationship, List.filter_filter]
  refine List.filter_congr fun relationship _ => ?_
  by_cases hname : relationship.name = name
  · simp [hname, hunseen]
  · simp [hname]

/-- Changing a relationship leaves the names. -/
theorem names_modifyRelationshipIn
    (hf : ∀ relationship, (f relationship).name = relationship.name) :
    (modifyRelationshipIn name f relationships).map (·.name) = relationships.map (·.name) := by
  induction relationships with
  | nil => rfl
  | cons relationship rest ih =>
      by_cases hname : relationship.name = name
      · simp [modifyRelationshipIn, hname, hf]
      · simp [modifyRelationshipIn, hname, ih]

/-- What the change keeps, and what holds of the new relationship, holds after putting it. -/
theorem forall_putRelationshipIn {P : Relationship → Prop} (hf : ∀ r, P r → P (f r))
    (hnew : P (f { name })) (hall : ∀ r ∈ relationships, P r) :
    ∀ r ∈ putRelationshipIn name f relationships, P r := by
  induction relationships with
  | nil => simpa [putRelationshipIn] using hnew
  | cons relationship rest ih =>
      obtain ⟨hfirst, hrest⟩ := List.forall_mem_cons.mp hall
      rw [putRelationshipIn]
      split
      · exact List.forall_mem_cons.mpr ⟨hf _ hfirst, hrest⟩
      · exact List.forall_mem_cons.mpr ⟨hfirst, ih hrest⟩

/-- What the change keeps holds after changing a relationship. -/
theorem forall_modifyRelationshipIn {P : Relationship → Prop} (hf : ∀ r, P r → P (f r))
    (hall : ∀ r ∈ relationships, P r) : ∀ r ∈ modifyRelationshipIn name f relationships, P r := by
  induction relationships with
  | nil => exact hall
  | cons relationship rest ih =>
      obtain ⟨hfirst, hrest⟩ := List.forall_mem_cons.mp hall
      rw [modifyRelationshipIn]
      split
      · exact List.forall_mem_cons.mpr ⟨hf _ hfirst, hrest⟩
      · exact List.forall_mem_cons.mpr ⟨hfirst, ih hrest⟩

variable {collection : Collection} {collections : List Collection}

/-- A new name comes in as the last; one that is there stays in its place. -/
theorem names_putCollectionIn :
    (putCollectionIn collection collections).map (·.name) =
      if collection.name ∈ collections.map (·.name) then collections.map (·.name)
      else collections.map (·.name) ++ [collection.name] := by
  induction collections with
  | nil => rfl
  | cons other rest ih =>
      by_cases hname : other.name = collection.name
      · simp [putCollectionIn, hname]
      · have hne : collection.name ≠ other.name := fun h => hname h.symm
        simp only [putCollectionIn, if_neg hname, List.map_cons, ih, List.mem_cons, hne, false_or]
        split <;> rfl

/-- What holds of the new collection and of the others holds after putting it. -/
theorem forall_putCollectionIn {P : Collection → Prop} (hnew : P collection)
    (hall : ∀ c ∈ collections, P c) : ∀ c ∈ putCollectionIn collection collections, P c := by
  induction collections with
  | nil => simpa [putCollectionIn] using hnew
  | cons other rest ih =>
      obtain ⟨hfirst, hrest⟩ := List.forall_mem_cons.mp hall
      rw [putCollectionIn]
      split
      · exact List.forall_mem_cons.mpr ⟨hnew, hrest⟩
      · exact List.forall_mem_cons.mpr ⟨hfirst, ih hrest⟩

end Prim

/-- What an edit may do to a prim keeps it well formed. -/
theorem PrimChange.wellFormed {change : Prim → Prim} (hchange : PrimChange change) {prim : Prim}
    (hprim : prim.WellFormed) : (change prim).WellFormed := by
  obtain ⟨hnames, hproperties, hkeys, hcollections, haddresses⟩ := hprim
  cases hchange with
  | @put name _ hname hf =>
      refine ⟨?_, ?_, ?_, hcollections, haddresses⟩
      · have hnew := nodup_append_new hnames name
        rwa [← Prim.names_putRelationshipIn hf.name_eq] at hnew
      · refine Prim.forall_putRelationshipIn (fun r hr => ?_) ?_ hproperties
        · rwa [hf.name_eq]
        · rwa [hf.name_eq]
      · exact Prim.forall_putRelationshipIn hf.keys_nodup
          (hf.keys_nodup _ List.nodup_nil) hkeys
  | modify hf =>
      refine ⟨?_, ?_, ?_, hcollections, haddresses⟩
      · rwa [← Prim.names_modifyRelationshipIn hf.name_eq] at hnames
      · refine Prim.forall_modifyRelationshipIn (fun r hr => ?_) hproperties
        rwa [hf.name_eq]
      · exact Prim.forall_modifyRelationshipIn hf.keys_nodup hkeys
  | erase name =>
      have hsublist := List.filter_sublist (p := (·.name ≠ name)) (l := prim.relationships)
      refine ⟨?_, ?_, ?_, hcollections, haddresses⟩
      · exact (hsublist.map _).nodup hnames
      · exact fun r hr => hproperties r (hsublist.subset hr)
      · exact fun r hr => hkeys r (hsublist.subset hr)
  | @collect collection hname =>
      refine ⟨hnames, hproperties, hkeys, ?_, ?_⟩
      · have hnew := nodup_append_new hcollections collection.name
        rwa [← Prim.names_putCollectionIn] at hnew
      · exact Prim.forall_putCollectionIn hname haddresses

/-- **An edit keeps the tree well formed**, whether it succeeds or not. -/
theorem Edit.Outcome.wellFormed {stage after : Stage} (houtcome : Edit.Outcome stage after)
    (hwell : stage.tree.WellFormed) : after.tree.WellFormed := by
  cases houtcome with
  | same => exact hwell
  | defined path => exact hwell.define
  | removed above name => exact hwell.editAt fun _ hchildren => hchildren.erase
  | changed path hchange =>
      rw [Stage.modifyPrim]
      split
      · refine hwell.editAt fun _ hchildren => hchildren.modify fun _ hnode => ?_
        exact ⟨hchange.wellFormed hnode.1, hnode.2⟩
      · exact hwell

namespace Stage

/-- A stage that is read from a text is well formed. -/
theorem ofJson_ok {text : String} {stage : Stage} (hread : ofJson text = .ok stage) :
    stage.tree.WellFormed := by
  rw [ofJson] at hread
  split at hread
  · exact ofDescription_ok hread
  · cases hread

/-- **The tree of a reachable stage is well formed.** -/
theorem Reachable.wellFormed {stage : Stage} (hreach : Reachable stage) :
    stage.tree.WellFormed := by
  induction hreach with
  | new => exact trivial
  | named name => exact trivial
  | read hread => exact ofJson_ok hread
  | opened hopen =>
      rw [openFile] at hopen
      split at hopen
      next => cases hopen
      next canonical text _ =>
        cases hread : ofJson text with
        | error cause =>
            rw [hread] at hopen
            cases hopen
        | ok stage =>
            rw [hread] at hopen
            obtain rfl := Except.ok.inj hopen
            have hwell := ofJson_ok hread
            exact hwell
  | edited edit _ ih => exact (edit.outcome_run).wellFormed ih

/-! ## What can be asked -/

variable {stage : Stage} {path : ScenePath}

/-- There is a prim at a path if the path names a place that is there. -/
theorem hasPrim_iff :
    stage.hasPrim path = true ↔
      ∃ prim, path = .ofPrim prim ∧ (stage.tree.node? prim).isSome = true := by
  obtain ⟨prim, property, hbare⟩ := path
  cases property with
  | some property =>
      constructor
      · nofun
      · intro hexists
        obtain ⟨other, heq, _⟩ := hexists
        exact absurd (congrArg ScenePath.property heq) nofun
  | none =>
      constructor
      · exact fun hthere => ⟨prim, rfl, hthere⟩
      · intro hexists
        obtain ⟨other, heq, hthere⟩ := hexists
        obtain rfl : prim = other := congrArg ScenePath.prim heq
        exact hthere

/-- What is authored somewhere is authored on a prim below the root. -/
theorem exists_node_of_prim_ne (hprim : stage.prim path ≠ {}) :
    ∃ above name node, path = .ofPrim (.child above name) ∧
      stage.tree.node? (.child above name) = some node ∧ stage.prim path = node.prim := by
  cases hnode : stage.node? path with
  | none => exact absurd (by rw [prim, hnode]) hprim
  | some node =>
      have hsame : stage.prim path = node.prim := by rw [prim, hnode]
      obtain ⟨place, rfl, _⟩ := hasPrim_iff.mp (by rw [hasPrim, hnode]; rfl)
      have hplace : stage.tree.node? place = some node := hnode
      cases place with
      | root =>
          obtain rfl := Option.some.inj hplace
          exact absurd hsame hprim
      | child above name => exact ⟨above, name, node, rfl, hplace, hsame⟩

/-- What is authored on a prim of a well-formed tree is well formed. -/
theorem wellFormed_prim (hwell : stage.tree.WellFormed) : (stage.prim path).WellFormed := by
  by_cases hbare : stage.prim path = {}
  · rw [hbare]
    exact Prim.wellFormed_bare
  · obtain ⟨above, name, node, _, hnode, hsame⟩ := exists_node_of_prim_ne hbare
    rw [hsame]
    exact (hwell.node? hnode).1

/-- The children of the prim that a tree path leads to. -/
theorem children_ofPrim {place : PrimPath} {node : Node}
    (hnode : stage.tree.node? place = some node) :
    stage.children (.ofPrim place) = node.children.names.map place.child := by
  have hat : stage.node? (.ofPrim place) = some node := hnode
  rw [children, hat]
  rfl

/-- **What can be relied on when a stage is asked.**  The root is there and holds nothing; no path
is listed twice, and no prim has two relationships or two collections of one name. -/
structure Consistent (stage : Stage) : Prop where
  root_there : stage.hasPrim .root = true
  root_relationships : stage.relationships .root = []
  root_collections : stage.collections .root = []
  /-- Only paths of prims lead to prims. -/
  prims_only : ∀ path, stage.hasPrim path = true → path.isProperty = false
  /-- The root and the paths that are listed are those with a prim. -/
  listed : ∀ path,
    stage.hasPrim path = true ↔ ∃ place ∈ .root :: stage.traverse, path = .ofPrim place
  listed_once : (.root :: stage.traverse : List PrimPath).Nodup
  /-- The size counts all prims but the root. -/
  counted : (.root :: stage.traverse : List PrimPath).length = stage.size + 1
  /-- Above each prim but the root is a prim, which has it as its child once. -/
  parent_there : ∀ path, stage.hasPrim path = true → path ≠ .root →
    ∃ parent, path.parent = some parent ∧ stage.hasPrim parent = true ∧
      ((stage.children parent).map PrimPath.name).count path.name = 1
  /-- Each child is a prim right below. -/
  child_there : ∀ path, ∀ child ∈ stage.children path,
    stage.hasPrim child = true ∧ (child : ScenePath).parent = some path
  relationship_names : ∀ path, ((stage.relationships path).map (·.name)).Nodup
  collection_names : ∀ path, ((stage.collections path).map (·.name)).Nodup
  /-- The name of each relationship makes a property of its prim. -/
  relationship_addresses : ∀ path, ∀ relationship ∈ stage.relationships path,
    ∃ property, path.appendProperty relationship.name = .ok property
  /-- Each collection has an address. -/
  collection_addresses : ∀ path, ∀ collection ∈ stage.collections path,
    ∃ address, path.collection collection.name = .ok address

/-- The paths with a prim are the root and those that are listed. -/
theorem hasPrim_iff_listed (hwell : stage.tree.WellFormed) :
    stage.hasPrim path = true ↔ ∃ place ∈ .root :: stage.traverse, path = .ofPrim place := by
  rw [hasPrim_iff, traverse_eq_paths]
  constructor
  · intro hexists
    obtain ⟨place, rfl, hthere⟩ := hexists
    refine ⟨place, ?_, rfl⟩
    by_cases hroot : place = .root
    · exact hroot ▸ List.mem_cons_self ..
    · exact List.mem_cons_of_mem _ ((Siblings.mem_paths_iff hwell).mpr ⟨hroot, hthere⟩)
  · intro hexists
    obtain ⟨place, hmem, rfl⟩ := hexists
    refine ⟨place, rfl, ?_⟩
    rcases List.mem_cons.mp hmem with rfl | hmem
    · rfl
    · exact ((Siblings.mem_paths_iff hwell).mp hmem).2

/-- No path is listed twice. -/
theorem nodup_listed (hwell : stage.tree.WellFormed) :
    (.root :: stage.traverse : List PrimPath).Nodup := by
  rw [traverse_eq_paths, List.nodup_cons]
  exact ⟨fun hmem => Siblings.ne_root_of_mem_paths hmem rfl, hwell.nodup_paths⟩

/-- Each prim is listed once among the children of its parent, which is there. -/
theorem parent_has_child_once (hwell : stage.tree.WellFormed) (hprim : stage.hasPrim path = true)
    (hroot : path ≠ .root) :
    ∃ parent, path.parent = some parent ∧ stage.hasPrim parent = true ∧
      ((stage.children parent).map PrimPath.name).count path.name = 1 := by
  obtain ⟨place, rfl, hthere⟩ := hasPrim_iff.mp hprim
  cases place with
  | root => exact absurd rfl hroot
  | child above name =>
      obtain ⟨node, hnode⟩ := Option.isSome_iff_exists.mp hthere
      obtain ⟨parent, hparent, hfind⟩ := Option.bind_eq_some_iff.mp hnode
      have hname : name ∈ parent.children.names :=
        Siblings.mem_names_iff.mpr (by rw [hfind]; rfl)
      have hnodup : (parent.children.names.map PrimName.text).Nodup := by
        rw [List.Nodup, List.pairwise_map]
        refine (hwell.node? hparent).2.nodup_names.imp fun hne heq => ?_
        exact hne (PrimName.text_inj.mp heq)
      refine ⟨.ofPrim above, rfl, hasPrim_iff.mpr ⟨above, rfl, by rw [hparent]; rfl⟩, ?_⟩
      rw [children_ofPrim hparent, List.map_map]
      exact hnodup.count.trans (if_pos (List.mem_map_of_mem hname))

/-- A child is there, and its parent is the prim that lists it. -/
theorem child_below {child : PrimPath} (hchild : child ∈ stage.children path) :
    stage.hasPrim child = true ∧ (child : ScenePath).parent = some path := by
  cases hnode : stage.node? path with
  | none => simp [children, hnode] at hchild
  | some node =>
      obtain ⟨place, rfl, _⟩ := hasPrim_iff.mp (by rw [hasPrim, hnode]; rfl)
      have hplace : stage.tree.node? place = some node := hnode
      rw [children_ofPrim hplace] at hchild
      obtain ⟨name, hname, rfl⟩ := List.mem_map.mp hchild
      refine ⟨hasPrim_iff.mpr ⟨_, rfl, ?_⟩, rfl⟩
      rw [Siblings.node?_child, hplace]
      exact Siblings.mem_names_iff.mp hname

/-- A prim is among the children of the one above it. -/
theorem mem_children_of_hasPrim {above : PrimPath} {name : PrimName}
    (hthere : stage.hasPrim (above.child name) = true) :
    above.child name ∈ stage.children above := by
  obtain ⟨node, hnode⟩ := Option.isSome_iff_exists.mp hthere
  obtain ⟨parent, hparent, hfind⟩ := Option.bind_eq_some_iff.mp hnode
  rw [children_ofPrim hparent]
  exact List.mem_map_of_mem (Siblings.mem_names_iff.mpr (by rw [hfind]; rfl))

/-- The children of a prim are the prims right below it. -/
theorem mem_children_iff {child : PrimPath} :
    child ∈ stage.children path ↔
      stage.hasPrim child = true ∧ (child : ScenePath).parent = some path := by
  constructor
  · exact child_below
  · rintro ⟨hthere, hparent⟩
    cases child with
    | root => cases hparent
    | child above name =>
        obtain rfl := Option.some.inj hparent
        exact mem_children_of_hasPrim hthere

/-- No child is listed twice. -/
theorem nodup_children (hwell : stage.tree.WellFormed) : (stage.children path).Nodup := by
  cases hnode : stage.node? path with
  | none =>
      rw [children, hnode]
      exact List.nodup_nil
  | some node =>
      obtain ⟨place, rfl, _⟩ := hasPrim_iff.mp (by rw [hasPrim, hnode]; rfl)
      have hplace : stage.tree.node? place = some node := hnode
      rw [children_ofPrim hplace, List.Nodup, List.pairwise_map]
      refine (hwell.node? hplace).2.nodup_names.imp fun hne heq => ?_
      exact hne (PrimPath.child.inj heq).2

/-- Whatever has a property name has a property under it on a prim that holds anything. -/
theorem exists_property {name : String} (hprim : stage.prim path ≠ {})
    (hname : isPropertyName name.toList = true) :
    ∃ property, path.appendProperty name = .ok property := by
  obtain ⟨above, last, _, rfl, _⟩ := exists_node_of_prim_ne hprim
  exact ScenePath.appendProperty_ok_iff.mpr ⟨⟨above, last, rfl⟩, hname⟩

/-- **A stage with a well-formed tree is consistent.** -/
theorem consistent_of_wellFormed (hwell : stage.tree.WellFormed) : stage.Consistent := by
  refine
    { root_there := rfl
      root_relationships := rfl
      root_collections := rfl
      prims_only := ?_
      listed := fun path => hasPrim_iff_listed hwell
      listed_once := nodup_listed hwell
      counted := ?_
      parent_there := fun path => parent_has_child_once hwell
      child_there := fun path child => child_below
      relationship_names := fun path => (wellFormed_prim hwell).relationship_names
      collection_names := fun path => (wellFormed_prim hwell).collection_names
      relationship_addresses := ?_
      collection_addresses := ?_ }
  · intro path hprim
    obtain ⟨place, rfl, _⟩ := hasPrim_iff.mp hprim
    rfl
  · rw [List.length_cons, traverse_eq_paths, Siblings.length_paths, size]
  · intro path relationship hmem
    have hprim : stage.prim path ≠ {} := by
      intro hbare
      rw [relationships, hbare] at hmem
      exact nomatch hmem
    exact exists_property hprim ((wellFormed_prim hwell).property_names _ hmem)
  · intro path collection hmem
    have hprim : stage.prim path ≠ {} := by
      intro hbare
      rw [collections, hbare] at hmem
      exact nomatch hmem
    exact exists_property hprim ((wellFormed_prim hwell).address_names _ hmem)

end Stage

end MaterialBinding
