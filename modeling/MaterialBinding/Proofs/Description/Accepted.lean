import MaterialBinding.Description.Json
import MaterialBinding.Proofs.Description.Checked
import MaterialBinding.Proofs.Description.Objects
import MaterialBinding.Proofs.Path.Reading
import MaterialBinding.Proofs.Stage.Invariant

/-!
# Which scenes are accepted, and what is made of them

A description is accepted if all its names are names, all its paths are paths, and no two things of
one kind have one name side by side (`Description.Accepted`).  A stage is built from the accepted
descriptions and from no others.

What is built is what the description says (`Stage.Holds`): one prim for each object, in document
order, and on each prim the relationships and the collections that the object lists, in this order.
-/

namespace MaterialBinding

/-! ## Parts of lists -/

/-- Each item has a counterpart exactly if there is a list of counterparts. -/
theorem exists_forall₂_iff {α β : Type} {R : α → β → Prop} {items : List α} :
    (∃ results, List.Forall₂ R items results) ↔ ∀ item ∈ items, ∃ result, R item result := by
  induction items with
  | nil => exact ⟨nofun, fun _ => ⟨[], .nil⟩⟩
  | cons item rest ih =>
      rw [List.forall_mem_cons, ← ih]
      constructor
      · rintro ⟨results, hall⟩
        cases hall with
        | cons hfirst hrest => exact ⟨⟨_, hfirst⟩, _, hrest⟩
      · rintro ⟨⟨result, hfirst⟩, results, hrest⟩
        exact ⟨result :: results, .cons hfirst hrest⟩

/-- Things can be made under different names exactly if each of them can be made. -/
theorem exists_buildApart_iff {α β : Type} {name : α → String} {refusal : α → Error}
    {make : α → Except Error β} {items : List α} :
    (∃ results, buildApart name refusal make [] items = .ok results) ↔
      (items.map name).Nodup ∧ ∀ item ∈ items, ∃ result, make item = .ok result := by
  rw [← exists_forall₂_iff]
  constructor
  · rintro ⟨results, hmade⟩
    obtain ⟨hall, hnodup, _⟩ := buildApart_eq_ok_iff.mp hmade
    exact ⟨hnodup, results, hall⟩
  · rintro ⟨hnodup, results, hall⟩
    exact ⟨results, buildApart_eq_ok_iff.mpr ⟨hall, hnodup, fun _ _ => List.not_mem_nil⟩⟩

/-! ## Paths -/

/-- Of the texts only its own is read as a path. -/
theorem readDescribedPath_eq_ok_iff {prim : PrimPath} {text : String} {path : ScenePath} :
    readDescribedPath prim text = .ok path ↔ text = path.text := by
  have hparse : readDescribedPath prim text = .ok path ↔ ScenePath.parse text = .ok path := by
    rw [readDescribedPath]
    cases ScenePath.parse text <;> simp
  rw [hparse, ScenePath.parse_eq_ok_iff, eq_comm]

/-- The paths that are read are written as they were given. -/
theorem mapM_readDescribedPath_eq_ok_iff {prim : PrimPath} {texts : List String}
    {paths : List ScenePath} :
    texts.mapM (readDescribedPath prim) = .ok paths ↔ paths.map ScenePath.text = texts := by
  rw [mapM_eq_ok_iff, eq_comm, ← List.forall₂_eq_eq_eq, List.forall₂_map_right_iff]
  simp only [readDescribedPath_eq_ok_iff]

/-- The texts of paths are read as these paths, in their order. -/
theorem mapM_readDescribedPath_text (prim : PrimPath) (paths : List ScenePath) :
    (paths.map ScenePath.text).mapM (readDescribedPath prim) = .ok paths :=
  mapM_readDescribedPath_eq_ok_iff.mpr rfl

/-- Texts are paths. -/
def ArePaths (texts : List String) : Prop := ∀ text ∈ texts, ∃ path, ScenePath.parse text = .ok path

/-- Texts are read exactly if they are all texts of paths. -/
theorem exists_mapM_readDescribedPath_iff {prim : PrimPath} {texts : List String} :
    (∃ paths, texts.mapM (readDescribedPath prim) = .ok paths) ↔ ArePaths texts := by
  simp only [mapM_eq_ok_iff, exists_forall₂_iff, readDescribedPath_eq_ok_iff, ArePaths,
    ScenePath.parse_eq_ok_iff]
  exact forall₂_congr fun text _ => exists_congr fun path => eq_comm

/-! ## Expansion rules -/

namespace ExpansionRule

/-- An expansion rule is read back from its token. -/
theorem ofToken_token (rule : ExpansionRule) : ofToken rule.token = rule := by
  cases rule <;> decide

/-- A text that is no rule means `expandPrims`. -/
theorem ofToken_of_unknown {token : String}
    (hunknown : ∀ rule : ExpansionRule, token ≠ rule.token) : ofToken token = .expandPrims := by
  rw [ofToken, if_neg (hunknown _), if_neg (hunknown _)]

end ExpansionRule

/-! ## Metadata -/

namespace Metadata

variable {data : Metadata} {key : String}

/-- Of several values for a key the last one counts, and without one what was there. -/
theorem get?_setAll (pairs : List (String × String)) :
    (data.setAll pairs).get? key = (pairs.reverse.lookup key).or (data.get? key) := by
  induction pairs generalizing data with
  | nil => rfl
  | cons pair rest ih =>
      have hstep : data.setAll (pair :: rest) = (data.set pair.1 pair.2).setAll rest := rfl
      have hlast : (pair :: rest).reverse.lookup key =
          (rest.reverse.lookup key).or (if key = pair.1 then some pair.2 else none) := by
        rw [List.reverse_cons, List.lookup_append, lookup_entry]
        rfl
      rw [hstep, ih, hlast, get?_set, Option.or_assoc]
      split <;> rfl

end Metadata

/-! ## What is accepted -/

namespace RelationshipDescription

/-- The name is that of a property, and the targets are paths. -/
def Accepted (description : RelationshipDescription) : Prop :=
  isPropertyName description.name.toList = true ∧ ArePaths description.targets

/-- The value that is given for a metadata key: `bindMaterialAs` for the strength, if it is there,
and else the last value in the metadata. -/
def value? (description : RelationshipDescription) (key : String) : Option String :=
  if key = Metadata.strengthKey then
    description.bindMaterialAs.or (description.metadata.reverse.lookup key)
  else description.metadata.reverse.lookup key

/-- The relationship has the name, the targets and the metadata that are given. -/
structure Describes (description : RelationshipDescription) (relationship : Relationship) :
    Prop where
  name_eq : relationship.name = description.name
  targets_eq : relationship.targets.map ScenePath.text = description.targets
  keys_nodup : relationship.metadata.keys.Nodup
  metadata_eq : ∀ key, relationship.metadata.get? key = description.value? key

variable {description : RelationshipDescription} {prim : PrimPath} {relationship : Relationship}

theorem exists_build_iff :
    (∃ relationship, description.build prim = .ok relationship) ↔ description.Accepted := by
  rw [Accepted, ← exists_mapM_readDescribedPath_iff]
  constructor
  · rintro ⟨relationship, hbuild⟩
    obtain ⟨targets, htargets, hbuild⟩ := bind_eq_ok.mp hbuild
    obtain ⟨done, hname, _⟩ := bind_eq_ok.mp hbuild
    exact ⟨requirePropertyName_eq_ok.mp hname, targets, htargets⟩
  · rintro ⟨hname, targets, htargets⟩
    have hdone : requirePropertyName description.name = .ok () :=
      requirePropertyName_eq_ok.mpr hname
    exact ⟨_, bind_eq_ok.mpr ⟨targets, htargets, bind_eq_ok.mpr ⟨(), hdone, rfl⟩⟩⟩

theorem describes_of_build (hbuild : description.build prim = .ok relationship) :
    description.Describes relationship := by
  obtain ⟨hname, _, hkeys⟩ := build_ok hbuild
  obtain ⟨targets, htargets, hbuild⟩ := bind_eq_ok.mp hbuild
  obtain ⟨done, _, hbuild⟩ := bind_eq_ok.mp hbuild
  obtain rfl := Except.ok.inj hbuild
  refine ⟨rfl, mapM_readDescribedPath_eq_ok_iff.mp htargets, hkeys, fun key => ?_⟩
  have hgiven : (Metadata.ofList description.metadata).get? key =
      description.metadata.reverse.lookup key := by
    rw [Metadata.ofList, Metadata.get?_setAll]
    exact Option.or_none
  rw [value?]
  cases description.bindMaterialAs with
  | none =>
      rw [Option.none_or, ite_self]
      exact hgiven
  | some token =>
      rw [Option.some_or, ← hgiven]
      exact Metadata.get?_set token key

end RelationshipDescription

namespace CollectionDescription

/-- The name makes that of a property, and the includes and excludes are paths. -/
def Accepted (description : CollectionDescription) : Prop :=
  isPropertyName (Collection.nameLead ++ description.name).toList = true ∧
    ArePaths description.includes ∧ ArePaths description.excludes

/-- The collection has what is given, and the rule `expandPrims` if no known one is given. -/
structure Describes (description : CollectionDescription) (collection : Collection) : Prop where
  name_eq : collection.name = description.name
  includes_eq : collection.includes.map ScenePath.text = description.includes
  excludes_eq : collection.excludes.map ScenePath.text = description.excludes
  rule_known : ∀ rule : ExpansionRule, description.expansionRule = some rule.token →
    collection.expansionRule = rule
  rule_otherwise : (∀ rule : ExpansionRule, description.expansionRule ≠ some rule.token) →
    collection.expansionRule = .expandPrims
  includeRoot_eq : collection.includeRoot = description.includeRoot

variable {description : CollectionDescription} {prim : PrimPath} {collection : Collection}

theorem exists_build_iff :
    (∃ collection, description.build prim = .ok collection) ↔ description.Accepted := by
  rw [Accepted, ← exists_mapM_readDescribedPath_iff, ← exists_mapM_readDescribedPath_iff]
  constructor
  · rintro ⟨collection, hbuild⟩
    obtain ⟨includes, hincludes, hbuild⟩ := bind_eq_ok.mp hbuild
    obtain ⟨excludes, hexcludes, hbuild⟩ := bind_eq_ok.mp hbuild
    obtain ⟨done, hname, _⟩ := bind_eq_ok.mp hbuild
    exact ⟨requirePropertyName_eq_ok.mp hname, ⟨includes, hincludes⟩, excludes, hexcludes⟩
  · rintro ⟨hname, ⟨includes, hincludes⟩, excludes, hexcludes⟩
    have hdone : requirePropertyName (Collection.nameLead ++ description.name) = .ok () :=
      requirePropertyName_eq_ok.mpr hname
    exact ⟨_, bind_eq_ok.mpr ⟨includes, hincludes, bind_eq_ok.mpr ⟨excludes, hexcludes,
      bind_eq_ok.mpr ⟨(), hdone, rfl⟩⟩⟩⟩

theorem describes_of_build (hbuild : description.build prim = .ok collection) :
    description.Describes collection := by
  obtain ⟨includes, hincludes, hbuild⟩ := bind_eq_ok.mp hbuild
  obtain ⟨excludes, hexcludes, hbuild⟩ := bind_eq_ok.mp hbuild
  obtain ⟨done, _, hbuild⟩ := bind_eq_ok.mp hbuild
  obtain rfl := Except.ok.inj hbuild
  refine ⟨rfl, mapM_readDescribedPath_eq_ok_iff.mp hincludes,
    mapM_readDescribedPath_eq_ok_iff.mp hexcludes, ?_, ?_, rfl⟩
  · intro rule hrule
    rw [hrule]
    exact ExpansionRule.ofToken_token rule
  · intro hunknown
    cases hrule : description.expansionRule with
    | none => rfl
    | some token =>
        exact ExpansionRule.ofToken_of_unknown fun rule heq => hunknown rule (heq ▸ hrule)

end CollectionDescription

/-! ## Prims -/

namespace PrimDescription

/-- The name is that of a prim, the relationships and the collections are accepted, and no two of
either kind share a name. -/
structure Accepted (description : PrimDescription) : Prop where
  name : isPrimName description.name.toList = true
  relationship_names : (description.relationships.map (·.name)).Nodup
  relationships : ∀ relationship ∈ description.relationships, relationship.Accepted
  collection_names : (description.collections.map (·.name)).Nodup
  collections : ∀ collection ∈ description.collections, collection.Accepted

/-- The prim has the relationships and the collections that are described, in this order. -/
structure Describes (description : PrimDescription) (prim : Prim) : Prop where
  relationships : List.Forall₂ RelationshipDescription.Describes description.relationships
    prim.relationships
  collections : List.Forall₂ CollectionDescription.Describes description.collections
    prim.collections

variable {description : PrimDescription} {path : PrimPath}

/-- Relationships are built exactly if each is accepted and no name comes twice. -/
theorem exists_buildRelationships_iff {descriptions : List RelationshipDescription} :
    (∃ relationships, buildRelationships path [] descriptions = .ok relationships) ↔
      (descriptions.map (·.name)).Nodup ∧ ∀ description ∈ descriptions, description.Accepted := by
  simp only [buildRelationships_eq_buildApart, exists_buildApart_iff,
    RelationshipDescription.exists_build_iff]

/-- Collections are built exactly if each is accepted and no name comes twice. -/
theorem exists_buildCollections_iff {descriptions : List CollectionDescription} :
    (∃ collections, buildCollections path [] descriptions = .ok collections) ↔
      (descriptions.map (·.name)).Nodup ∧ ∀ description ∈ descriptions, description.Accepted := by
  simp only [buildCollections_eq_buildApart, exists_buildApart_iff,
    CollectionDescription.exists_build_iff]

theorem describes_of_build {relationships : List Relationship} {collections : List Collection}
    (hrelationships : buildRelationships path [] description.relationships = .ok relationships)
    (hcollections : buildCollections path [] description.collections = .ok collections) :
    description.Describes { relationships, collections } := by
  rw [buildRelationships_eq_buildApart, buildApart_eq_ok_iff] at hrelationships
  rw [buildCollections_eq_buildApart, buildApart_eq_ok_iff] at hcollections
  constructor
  · exact hrelationships.1.imp fun _ _ => RelationshipDescription.describes_of_build
  · exact hcollections.1.imp fun _ _ => CollectionDescription.describes_of_build

end PrimDescription

/-! ## Scenes -/

namespace Description

/-- The names side by side. -/
def names : Description → List String
  | nil => []
  | cons prim _ rest => prim.name :: rest.names

/-- Every prim is accepted, and no two side by side share a name. -/
def Accepted : Description → Prop
  | nil => True
  | cons prim children rest =>
    prim.Accepted ∧ prim.name ∉ rest.names ∧ children.Accepted ∧ rest.Accepted

/-- **A tree is built from what is accepted**, if none of its names was seen before. -/
theorem exists_build_iff {description : Description} {parent : PrimPath} {seen : List String} :
    (∃ tree, description.build parent seen = .ok tree) ↔
      description.Accepted ∧ ∀ name ∈ description.names, name ∉ seen := by
  induction description generalizing parent seen with
  | nil => exact ⟨fun _ => ⟨trivial, nofun⟩, fun _ => ⟨.nil, rfl⟩⟩
  | cons prim children rest ihchildren ihrest =>
      rw [Accepted, names, List.forall_mem_cons]
      constructor
      · rintro ⟨tree, hbuild⟩
        obtain ⟨hseen, name, relationships, collections, below, after, htext, hrelationships,
          hcollections, hbelow, hafter, _⟩ := build_cons_eq_ok_iff.mp hbuild
        obtain ⟨hrelnames, hrels⟩ :=
          PrimDescription.exists_buildRelationships_iff.mp ⟨_, hrelationships⟩
        obtain ⟨hcolnames, hcols⟩ :=
          PrimDescription.exists_buildCollections_iff.mp ⟨_, hcollections⟩
        obtain ⟨hchildren, _⟩ := ihchildren.mp ⟨_, hbelow⟩
        obtain ⟨hrest, hfresh⟩ := ihrest.mp ⟨_, hafter⟩
        have hprim : prim.Accepted :=
          { name := htext ▸ name.well_formed
            relationship_names := hrelnames
            relationships := hrels
            collection_names := hcolnames
            collections := hcols }
        refine ⟨⟨hprim, ?_, hchildren, hrest⟩, hseen, ?_⟩
        · exact fun hmem => hfresh _ hmem (List.mem_cons_self ..)
        · exact fun other hmem h => hfresh other hmem (List.mem_cons_of_mem _ h)
      · rintro ⟨⟨hprim, hname, hchildren, hrest⟩, hseen, hfresh⟩
        obtain ⟨relationships, hrelationships⟩ :=
          PrimDescription.exists_buildRelationships_iff.mpr
            ⟨hprim.relationship_names, hprim.relationships⟩
        obtain ⟨collections, hcollections⟩ :=
          PrimDescription.exists_buildCollections_iff.mpr
            ⟨hprim.collection_names, hprim.collections⟩
        obtain ⟨below, hbelow⟩ := ihchildren.mpr ⟨hchildren, fun _ _ => List.not_mem_nil⟩
        have hothers : ∀ other ∈ rest.names, other ∉ prim.name :: seen := by
          intro other hmem
          rw [List.mem_cons, not_or]
          exact ⟨fun heq => hname (heq ▸ hmem), hfresh other hmem⟩
        obtain ⟨after, hafter⟩ := ihrest.mpr ⟨hrest, hothers⟩
        exact ⟨_, build_cons_eq_ok_iff.mpr ⟨hseen, ⟨prim.name, hprim.name⟩, relationships,
          collections, below, after, rfl, hrelationships, hcollections, hbelow, hafter, rfl⟩⟩

end Description

namespace Stage

variable {stage : Stage} {description : Description}

/-- A stage is made of what is accepted, and of nothing else. -/
theorem exists_ofDescription_iff :
    (∃ stage, ofDescription description = .ok stage) ↔ description.Accepted := by
  have hbuild : (∃ tree, description.build .root [] = .ok tree) ↔ description.Accepted := by
    rw [Description.exists_build_iff]
    exact and_iff_left fun _ _ => List.not_mem_nil
  rw [← hbuild, ofDescription]
  cases description.build .root [] <;> simp

/-- The stage has one prim for each object of the description, in document order, with what the
object says. -/
structure Holds (stage : Stage) (description : Description) : Prop where
  size_eq : stage.size = (description.objects "").length
  paths_eq : stage.traverse.map PrimPath.text = (description.objects "").map Prod.fst
  prims : List.Forall₂ (fun object place => object.2.Describes (stage.prim (.ofPrim place)))
    (description.objects "") stage.traverse

/-- **What is built somewhere in the tree of a stage** is what is described. -/
theorem objects_of_build {parent : PrimPath} {seen : List String} {part : Siblings}
    (hbuild : description.build parent seen = .ok part)
    (hlies : Siblings.LiesAt stage.tree parent part) :
    List.Forall₂ (fun object place =>
        PrimPath.text place = object.1 ∧ object.2.Describes (stage.prim (.ofPrim place)))
      (description.objects parent.lead) (part.paths parent) := by
  have hwell := (Description.build_ok hbuild).1
  induction description generalizing parent seen part with
  | nil =>
      obtain rfl := Except.ok.inj hbuild
      exact .nil
  | cons prim children rest ihchildren ihrest =>
      obtain ⟨_, name, relationships, collections, below, after, htext, hrelationships,
        hcollections, hbelow, hafter, rfl⟩ := Description.build_cons_eq_ok_iff.mp hbuild
      obtain ⟨hfresh, _, hchildren, hrest⟩ := hwell
      obtain ⟨hfirst, hothers⟩ := hlies.cons hfresh
      have hlead : (parent.child name).lead = parent.lead ++ "/" ++ prim.name := by
        rw [PrimPath.lead_child, htext]
      have hnode : stage.node? (.ofPrim (parent.child name)) = some _ := hfirst
      have hprim : stage.prim (.ofPrim (parent.child name)) = { relationships, collections } := by
        rw [Stage.prim, hnode]
      rw [Description.objects, Siblings.paths, ← hlead]
      refine .cons ⟨rfl, ?_⟩ (List.rel_append ?_ ?_)
      · rw [hprim]
        exact PrimDescription.describes_of_build hrelationships hcollections
      · exact ihchildren hbelow (Siblings.liesAt_children hfirst) hchildren
      · exact ihrest hafter hothers hrest

/-- **What is built is what is described.** -/
theorem holds_of_ofDescription (hbuild : ofDescription description = .ok stage) :
    stage.Holds description := by
  have hall := objects_of_build (build_of_ofDescription hbuild) Siblings.liesAt_root
  rw [← traverse_eq_paths] at hall
  constructor
  · have hlength : stage.traverse.length = stage.size := by
      rw [traverse_eq_paths, Siblings.length_paths, size]
    rw [← hlength]
    exact hall.length_eq.symm
  · rw [eq_comm, ← List.forall₂_eq_eq_eq, List.forall₂_map_left_iff, List.forall₂_map_right_iff]
    exact hall.imp fun _ _ hboth => hboth.1.symm
  · exact hall.imp fun _ _ hboth => hboth.2

end Stage

end MaterialBinding
