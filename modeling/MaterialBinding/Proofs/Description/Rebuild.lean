import MaterialBinding.Proofs.Description.Accepted
import MaterialBinding.Proofs.Description.ByKey
import MaterialBinding.Proofs.Stage.Invariant

/-!
# Rebuilding undoes describing

What a well-formed tree is described as can be built, and gives the tree again with the metadata
of its relationships rearranged (`Siblings.arranged`): the keys ascend, and the strength comes
last.  So a stage that was saved and read once is in an order that does not change any more.

`build_describe` says what is built, and `describe_arranged` that the order is not seen in a
description.
-/

namespace MaterialBinding

namespace Metadata

/-- The entries in the order in which they are built: by key, with the strength after all
others. -/
def arranged (data : Metadata) : Metadata :=
  ⟨sortByKey (data.erase strengthKey).entries ++
    ((data.get? strengthKey).map fun token => (strengthKey, token)).toList⟩

variable {data : Metadata} {key : String}

/-- Taking an entry out and putting it last keeps all entries. -/
theorem perm_erase_append (entries : List (String × String)) :
    (eraseEntry key entries ++ ((entries.lookup key).map fun value => (key, value)).toList).Perm
      entries := by
  induction entries with
  | nil => exact List.Perm.refl _
  | cons entry rest ih =>
      obtain ⟨k, v⟩ := entry
      rw [eraseEntry, lookup_entry]
      by_cases hk : k = key
      · subst hk
        rw [if_pos rfl, if_pos rfl]
        exact List.perm_append_singleton _ _
      · have hkey : key ≠ k := fun heq => hk heq.symm
        rw [if_neg hk, if_neg hkey]
        exact ih.cons (k, v)

/-- Arranging changes nothing but the order. -/
theorem perm_arranged (hnodup : data.keys.Nodup) : data.arranged.entries.Perm data.entries :=
  ((perm_sortByKey (keys_nodup_erase hnodup)).append_right _).trans (perm_erase_append data.entries)

/-- Arranging keeps what is under each key. -/
theorem get?_arranged (hnodup : data.keys.Nodup) : data.arranged.get? key = data.get? key :=
  lookup_eq_of_perm (perm_arranged hnodup)
    (((perm_arranged hnodup).map Prod.fst).nodup_iff.mpr hnodup)

/-- The strength is not among the metadata that is sorted. -/
theorem strengthKey_not_mem (hnodup : data.keys.Nodup) :
    strengthKey ∉ (sortByKey (data.erase strengthKey).entries).map Prod.fst := by
  have herased : (data.erase strengthKey).keys.Nodup := keys_nodup_erase hnodup
  have hsorted := perm_sortByKey herased
  have hkeys : (data.erase strengthKey).keys = data.keys.erase strengthKey := keys_erase
  rw [keys] at hkeys
  rw [(hsorted.map Prod.fst).mem_iff, hkeys]
  exact hnodup.not_mem_erase

/-- An entry with a new key comes in as the last. -/
theorem setEntry_of_not_mem {entries : List (String × String)} (value : String)
    (hkey : key ∉ entries.map Prod.fst) :
    setEntry key value entries = entries ++ [(key, value)] := by
  induction entries with
  | nil => rfl
  | cons entry rest ih =>
      have hfirst : entry.1 ≠ key := (List.ne_of_not_mem_cons hkey).symm
      have hrest : key ∉ rest.map Prod.fst := List.not_mem_of_not_mem_cons hkey
      rw [setEntry, if_neg hfirst, ih hrest, List.cons_append]

/-- A key that the first entries do not have is taken out behind them. -/
theorem eraseEntry_of_not_mem {entries : List (String × String)}
    (hkey : key ∉ entries.map Prod.fst) (tail : List (String × String)) :
    eraseEntry key (entries ++ tail) = entries ++ eraseEntry key tail := by
  induction entries with
  | nil => rfl
  | cons entry rest ih =>
      have hfirst : entry.1 ≠ key := (List.ne_of_not_mem_cons hkey).symm
      have hrest : key ∉ rest.map Prod.fst := List.not_mem_of_not_mem_cons hkey
      rw [List.cons_append, eraseEntry, if_neg hfirst, ih hrest, List.cons_append]

/-- Setting different keys one after the other lists them in that order. -/
theorem setAll_of_nodup {pairs : List (String × String)}
    (hnodup : ((data.entries ++ pairs).map Prod.fst).Nodup) :
    data.setAll pairs = ⟨data.entries ++ pairs⟩ := by
  induction pairs generalizing data with
  | nil => rw [List.append_nil]; rfl
  | cons pair rest ih =>
      have hkey : pair.1 ∉ data.entries.map Prod.fst := by
        rw [List.map_append, List.nodup_append] at hnodup
        exact fun hmem => hnodup.2.2 _ hmem _ (List.mem_cons_self ..) rfl
      have hset : data.set pair.1 pair.2 = ⟨data.entries ++ [pair]⟩ := by
        rw [set, setEntry_of_not_mem _ hkey]
      have hstep : data.setAll (pair :: rest) = (data.set pair.1 pair.2).setAll rest := rfl
      rw [hstep, hset, ih (by simpa using hnodup)]
      simp

/-- Pairs with different keys are all kept, in their order. -/
theorem ofList_of_nodup {pairs : List (String × String)} (hnodup : (pairs.map Prod.fst).Nodup) :
    ofList pairs = ⟨pairs⟩ :=
  setAll_of_nodup hnodup

/-- Arranged metadata is not arranged any further. -/
theorem sortByKey_erase_arranged (hnodup : data.keys.Nodup) :
    sortByKey (data.arranged.erase strengthKey).entries =
      sortByKey (data.erase strengthKey).entries := by
  have hentries : (data.arranged.erase strengthKey).entries =
      sortByKey (data.erase strengthKey).entries := by
    refine (eraseEntry_of_not_mem (strengthKey_not_mem hnodup) _).trans ?_
    cases data.get? strengthKey with
    | none => exact List.append_nil _
    | some token => simp [eraseEntry]
  rw [hentries, sortByKey_of_ascending (ascending_sortByKey _)]

end Metadata

/-- The relationship as it is built from its description. -/
def Relationship.arranged (relationship : Relationship) : Relationship :=
  { relationship with metadata := relationship.metadata.arranged }

/-- What is authored on a prim as it is built from its description. -/
def Prim.arranged (prim : Prim) : Prim :=
  { prim with relationships := prim.relationships.map Relationship.arranged }

/-- The tree as it is built from its description. -/
def Siblings.arranged : Siblings → Siblings
  | nil => nil
  | cons name prim children rest => cons name prim.arranged children.arranged rest.arranged

/-! ## Building -/

/-- What a relationship is described as is built into it again, with its metadata arranged. -/
theorem Relationship.build_describe (prim : PrimPath) {relationship : Relationship}
    (hname : isPropertyName relationship.name.toList = true)
    (hkeys : relationship.metadata.keys.Nodup) :
    relationship.describe.build prim = .ok relationship.arranged := by
  have hpaths := mapM_readDescribedPath_text prim relationship.targets
  have hproperty : requirePropertyName relationship.name = .ok () :=
    requirePropertyName_eq_ok.mpr hname
  have hlist :
      Metadata.ofList (sortByKey (relationship.metadata.erase Metadata.strengthKey).entries) =
        ⟨sortByKey (relationship.metadata.erase Metadata.strengthKey).entries⟩ :=
    Metadata.ofList_of_nodup (ascending_sortByKey _).nodup_keys
  simp only [RelationshipDescription.build, describe, bind, Except.bind, hpaths, hproperty, hlist]
  rw [Relationship.arranged, Metadata.arranged]
  cases relationship.metadata.get? Metadata.strengthKey with
  | none => simp
  | some token =>
      simp [Metadata.set, Metadata.setEntry_of_not_mem _ (Metadata.strengthKey_not_mem hkeys)]

/-- What a collection is described as is built into it again. -/
theorem Collection.build_describe (prim : PrimPath) {collection : Collection}
    (hname : isPropertyName (nameLead ++ collection.name).toList = true) :
    collection.describe.build prim = .ok collection := by
  have hincludes := mapM_readDescribedPath_text prim collection.includes
  have hexcludes := mapM_readDescribedPath_text prim collection.excludes
  have hproperty : requirePropertyName (nameLead ++ collection.name) = .ok () :=
    requirePropertyName_eq_ok.mpr hname
  simp only [CollectionDescription.build, describe, bind, Except.bind, hincludes, hexcludes,
    hproperty, ExpansionRule.ofToken_token]

/-- What the relationships of a prim are described as is built into them again, with their metadata
arranged. -/
theorem buildRelationships_describe (prim : PrimPath) {relationships : List Relationship}
    (hnodup : (relationships.map (·.name)).Nodup)
    (hnames : ∀ relationship ∈ relationships, isPropertyName relationship.name.toList = true)
    (hkeys : ∀ relationship ∈ relationships, relationship.metadata.keys.Nodup) :
    buildRelationships prim [] (relationships.map Relationship.describe) =
      .ok (relationships.map Relationship.arranged) := by
  rw [buildRelationships_eq_buildApart, buildApart_eq_ok_iff, List.forall₂_map_left_iff,
    List.forall₂_map_right_iff, List.forall₂_same, List.map_map]
  exact ⟨fun relationship hmem => Relationship.build_describe prim (hnames relationship hmem)
    (hkeys relationship hmem), hnodup, fun _ _ => List.not_mem_nil⟩

/-- What the collections of a prim are described as is built into them again. -/
theorem buildCollections_describe (prim : PrimPath) {collections : List Collection}
    (hnodup : (collections.map (·.name)).Nodup)
    (hnames : ∀ collection ∈ collections,
      isPropertyName (Collection.nameLead ++ collection.name).toList = true) :
    buildCollections prim [] (collections.map Collection.describe) = .ok collections := by
  rw [buildCollections_eq_buildApart, buildApart_eq_ok_iff, List.forall₂_map_left_iff,
    List.forall₂_same, List.map_map]
  exact ⟨fun collection hmem => Collection.build_describe prim (hnames collection hmem), hnodup,
    fun _ _ => List.not_mem_nil⟩

/-- **What a tree is described as is built**, and gives the tree with its metadata arranged. -/
theorem Siblings.build_describe {tree : Siblings} (hwell : tree.WellFormed) {parent : PrimPath}
    {seen : List String} (hseen : ∀ name ∈ tree.names, name.text ∉ seen) :
    tree.describe.build parent seen = .ok tree.arranged := by
  induction tree generalizing parent seen with
  | nil => rfl
  | cons name prim children rest ihchildren ihrest =>
      obtain ⟨hname, hprim, hchildren, hrest⟩ := hwell
      have hfirst : name.text ∉ seen := hseen name (List.mem_cons_self ..)
      have hrelationships := buildRelationships_describe (parent.child name)
        hprim.relationship_names hprim.property_names hprim.metadata_keys
      have hcollections := buildCollections_describe (parent.child name)
        hprim.collection_names hprim.address_names
      have hbelow : children.describe.build (parent.child name) [] = .ok children.arranged :=
        ihchildren hchildren fun _ _ => nofun
      have hafter : rest.describe.build parent (name.text :: seen) = .ok rest.arranged := by
        refine ihrest hrest fun other hmem => ?_
        rw [List.mem_cons, not_or]
        refine ⟨fun heq => hname ?_, hseen other (List.mem_cons_of_mem _ hmem)⟩
        rwa [← PrimName.text_inj.mp heq]
      exact Description.build_cons_eq_ok_iff.mpr ⟨hfirst, name, _, _, _, _, rfl, hrelationships,
        hcollections, hbelow, hafter, rfl⟩

/-! ## Describing what was built -/

/-- Arranging a relationship is not seen in its description. -/
theorem Relationship.describe_arranged {relationship : Relationship}
    (hkeys : relationship.metadata.keys.Nodup) :
    relationship.arranged.describe = relationship.describe := by
  have hstrength : relationship.metadata.arranged.get? Metadata.strengthKey =
      relationship.metadata.get? Metadata.strengthKey := Metadata.get?_arranged hkeys
  have hentries := Metadata.sortByKey_erase_arranged hkeys
  simp only [describe, arranged, hstrength, hentries]

/-- **A description does not show the order of metadata.** -/
theorem Siblings.describe_arranged {tree : Siblings} (hwell : tree.WellFormed) :
    tree.arranged.describe = tree.describe := by
  induction tree with
  | nil => rfl
  | cons name prim children rest ihchildren ihrest =>
      obtain ⟨_, hprim, hchildren, hrest⟩ := hwell
      have hrelationships :
          (prim.relationships.map Relationship.arranged).map Relationship.describe =
            prim.relationships.map Relationship.describe := by
        rw [List.map_map]
        exact List.map_congr_left fun relationship hmem =>
          Relationship.describe_arranged (hprim.metadata_keys relationship hmem)
      rw [arranged, describe, describe, ihchildren hchildren, ihrest hrest, Prim.arranged,
        hrelationships]

/-! ## Lookups in what was built -/

/-- The prim as it is built from its description. -/
def Node.arranged (node : Node) : Node := ⟨node.prim.arranged, node.children.arranged⟩

/-- Arranging keeps the names and their order. -/
theorem Siblings.names_arranged (tree : Siblings) : tree.arranged.names = tree.names := by
  induction tree with
  | nil => rfl
  | cons name prim children rest _ ih => rw [arranged, names, names, ih]

/-- An arranged sibling is found under the same name. -/
theorem Siblings.find?_arranged (tree : Siblings) (name : PrimName) :
    tree.arranged.find? name = (tree.find? name).map Node.arranged := by
  induction tree with
  | nil => rfl
  | cons other prim children rest _ ih =>
      rw [arranged, find?, find?, ih]
      split <;> rfl

/-- An arranged prim is found at the same path. -/
theorem Siblings.node?_arranged (tree : Siblings) (path : PrimPath) :
    tree.arranged.node? path = (tree.node? path).map Node.arranged := by
  induction path with
  | root => rfl
  | child above name ih =>
      rw [node?_child, node?_child, ih]
      cases tree.node? above with
      | none => rfl
      | some node => exact find?_arranged node.children name

/-- The same relationship, but for the order of its metadata. -/
structure Relationship.SameButOrder (one other : Relationship) : Prop where
  name_eq : other.name = one.name
  targets_eq : other.targets = one.targets
  /-- The entries are the same. -/
  perm : other.metadata.entries.Perm one.metadata.entries
  /-- Each key has the same value. -/
  get?_eq : ∀ key, other.metadata.get? key = one.metadata.get? key

/-- Arranging a relationship changes nothing but the order of its metadata. -/
theorem Relationship.sameButOrder_arranged {relationship : Relationship}
    (hkeys : relationship.metadata.keys.Nodup) :
    relationship.SameButOrder relationship.arranged where
  name_eq := rfl
  targets_eq := rfl
  perm := Metadata.perm_arranged hkeys
  get?_eq := fun _ => Metadata.get?_arranged hkeys

namespace Stage

variable {stage : Stage}

/-- The stage that is built from the description of another. -/
def rebuilt (stage : Stage) : Stage := { tree := stage.tree.arranged }

/-- **A stage is built again from its description**, with its metadata arranged. -/
theorem ofDescription_describe (hwell : stage.tree.WellFormed) :
    ofDescription stage.tree.describe = .ok stage.rebuilt := by
  have hfresh : ∀ name ∈ stage.tree.names, name.text ∉ ([] : List String) := fun _ _ => nofun
  rw [ofDescription, Siblings.build_describe hwell hfresh, rebuilt]

/-- What is built again is found at the same path. -/
theorem node?_rebuilt (path : ScenePath) :
    stage.rebuilt.node? path = (stage.node? path).map Node.arranged := by
  rw [node?, node?]
  split
  · rfl
  · exact Siblings.node?_arranged stage.tree path.prim

/-- There are the same prims in the stage that is built again. -/
theorem hasPrim_rebuilt (path : ScenePath) : stage.rebuilt.hasPrim path = stage.hasPrim path := by
  rw [hasPrim, hasPrim, node?_rebuilt, Option.isSome_map]

/-- The prims have the same children in the stage that is built again. -/
theorem children_rebuilt (path : ScenePath) :
    stage.rebuilt.children path = stage.children path := by
  rw [children, children, node?_rebuilt]
  cases stage.node? path with
  | none => rfl
  | some node =>
      have hnames := Siblings.names_arranged node.children
      simp only [Option.map_some, Node.arranged, hnames]

/-- Each prim of the stage that is built again is the arranged one. -/
theorem prim_rebuilt (path : ScenePath) : stage.rebuilt.prim path = (stage.prim path).arranged := by
  rw [prim, prim, node?_rebuilt]
  cases stage.node? path <;> rfl

/-- The relationships of the stage that is built again are the same but for the order of their
metadata. -/
theorem relationships_rebuilt (hwell : stage.tree.WellFormed) (path : ScenePath) :
    List.Forall₂ Relationship.SameButOrder (stage.relationships path)
      (stage.rebuilt.relationships path) := by
  have hprim : (stage.prim path).WellFormed := wellFormed_prim hwell
  rw [relationships, relationships, prim_rebuilt, Prim.arranged, List.forall₂_map_right_iff,
    List.forall₂_same]
  intro relationship hmem
  exact Relationship.sameButOrder_arranged (hprim.metadata_keys relationship hmem)

/-- **Rebuilding undoes describing.**  What a reachable stage is described as is accepted, and
gives a stage with the same prims, relationships and collections.  Only the order of metadata may
be another; it is not seen in a description, and it does not change a second time. -/
theorem Reachable.rebuild_describe (hreach : Reachable stage) :
    ∃ rebuilt, ofDescription stage.tree.describe = .ok rebuilt ∧
      (∀ path, rebuilt.hasPrim path = stage.hasPrim path) ∧
      (∀ path, rebuilt.children path = stage.children path) ∧
      (∀ path, List.Forall₂ Relationship.SameButOrder (stage.relationships path)
        (rebuilt.relationships path)) ∧
      (∀ path, rebuilt.collections path = stage.collections path) ∧
      rebuilt.tree.describe = stage.tree.describe ∧
      ofDescription rebuilt.tree.describe = .ok rebuilt := by
  have hwell := hreach.wellFormed
  have hbuild := ofDescription_describe hwell
  have hdescribe : stage.rebuilt.tree.describe = stage.tree.describe :=
    Siblings.describe_arranged hwell
  refine ⟨stage.rebuilt, hbuild, hasPrim_rebuilt, children_rebuilt, relationships_rebuilt hwell,
    ?_, hdescribe, ?_⟩
  · intro path
    rw [collections, prim_rebuilt]
    rfl
  · rw [hdescribe, hbuild]

/-- A bowl whose strong binding was made before it got two notes, the later one with the earlier
key. -/
def annotatedHistory : List Edit :=
  let bowl : PrimPath := .child .root ⟨"Bowl", by decide⟩
  let glaze : PrimPath := .child .root ⟨"Glaze", by decide⟩
  [.definePrim bowl, .bind bowl glaze .stronger .allPurpose,
    .setMetadata bowl "material:binding" "note" "seen",
    .setMetadata bowl "material:binding" "author" "nobody"]

/-- Rebuilding rearranges the notes of the bowl, and does so only once. -/
theorem annotatedHistory_rebuilt :
    ∃ rebuilt,
      ofDescription (annotatedHistory.foldl Edit.run {}).tree.describe = .ok rebuilt ∧
      rebuilt ≠ annotatedHistory.foldl Edit.run {} ∧
      ofDescription rebuilt.tree.describe = .ok rebuilt := by
  have hreach : Reachable (annotatedHistory.foldl Edit.run {}) :=
    Reachable.new.foldl annotatedHistory
  obtain ⟨rebuilt, hbuild, _, _, _, _, _, hagain⟩ := hreach.rebuild_describe
  refine ⟨rebuilt, hbuild, ?_, hagain⟩
  have hsame := hbuild.symm.trans (ofDescription_describe hreach.wellFormed)
  rw [Except.ok.inj hsame]
  decide

end Stage

end MaterialBinding
