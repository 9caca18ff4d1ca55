import Mathlib.Data.List.Forall2
import MaterialBinding.Description.Basic
import MaterialBinding.Proofs.Stage.Tree

/-!
# What is built is well formed

`Description.build` refuses names that the grammar does not admit and names that it has already
seen side by side.  So a tree that it makes is well formed, whatever the description.
-/

namespace MaterialBinding

/-- A computation in two parts succeeds exactly if both parts do. -/
theorem bind_eq_ok {ε α β : Type} {x : Except ε α} {f : α → Except ε β} {b : β} :
    x >>= f = .ok b ↔ ∃ a, x = .ok a ∧ f a = .ok b := by
  cases x <;> simp [bind, Except.bind]

/-- Walking through a list succeeds exactly if each step does. -/
theorem mapM_eq_ok_iff {ε α β : Type} {f : α → Except ε β} {items : List α} {results : List β} :
    items.mapM f = .ok results ↔ List.Forall₂ (fun item result => f item = .ok result)
      items results := by
  induction items generalizing results with
  | nil => simp [pure, Except.pure, eq_comm]
  | cons item items ih =>
      rw [List.mapM_cons, bind_eq_ok]
      constructor
      · intro hboth
        obtain ⟨result, hfirst, hrest⟩ := hboth
        obtain ⟨others, hothers, hdone⟩ := bind_eq_ok.mp hrest
        obtain rfl := Except.ok.inj hdone
        exact .cons hfirst (ih.mp hothers)
      · intro hall
        cases hall with
        | @cons _ result _ others hfirst hothers =>
            have hrest : items.mapM f = .ok others := ih.mpr hothers
            exact ⟨result, hfirst, bind_eq_ok.mpr ⟨others, hrest, rfl⟩⟩

/-- The check lets property names pass, and nothing else. -/
theorem requirePropertyName_eq_ok {name : String} {done : Unit} :
    requirePropertyName name = .ok done ↔ isPropertyName name.toList = true := by
  unfold requirePropertyName
  split <;> simp_all

/-- A relationship that is built has the name that is described, a property name, and no key twice.
-/
theorem RelationshipDescription.build_ok {prim : PrimPath} {description : RelationshipDescription}
    {relationship : Relationship} (hbuild : description.build prim = .ok relationship) :
    relationship.name = description.name ∧ isPropertyName relationship.name.toList = true ∧
      relationship.metadata.keys.Nodup := by
  obtain ⟨targets, _, hbuild⟩ := bind_eq_ok.mp hbuild
  obtain ⟨done, hname, hbuild⟩ := bind_eq_ok.mp hbuild
  obtain rfl := Except.ok.inj hbuild
  have hkeys : (Metadata.ofList description.metadata).keys.Nodup :=
    Metadata.keys_nodup_setAll description.metadata List.nodup_nil
  refine ⟨rfl, requirePropertyName_eq_ok.mp hname, ?_⟩
  cases description.bindMaterialAs with
  | none => exact hkeys
  | some token => exact Metadata.keys_nodup_set hkeys token

/-- A collection that is built has the name that is described, and one that can stand in an address.
-/
theorem CollectionDescription.build_ok {prim : PrimPath} {description : CollectionDescription}
    {collection : Collection} (hbuild : description.build prim = .ok collection) :
    collection.name = description.name ∧
      isPropertyName (Collection.nameLead ++ collection.name).toList = true := by
  obtain ⟨includes, _, hbuild⟩ := bind_eq_ok.mp hbuild
  obtain ⟨excludes, _, hbuild⟩ := bind_eq_ok.mp hbuild
  obtain ⟨done, hname, hbuild⟩ := bind_eq_ok.mp hbuild
  obtain rfl := Except.ok.inj hbuild
  exact ⟨rfl, requirePropertyName_eq_ok.mp hname⟩

/-- What comes after the first with other names than its own leaves all names apart. -/
theorem nodup_names_cons {α : Type} {name : α → String} {first : α} {others : List α}
    {seen : List String} (hnodup : (others.map name).Nodup)
    (hothers : ∀ other ∈ others, name other ∉ name first :: seen) :
    ((first :: others).map name).Nodup := by
  have hfirst : name first ∉ others.map name := by
    intro hmem
    obtain ⟨other, hother, heq⟩ := List.mem_map.mp hmem
    have hseen : name other ∉ name first :: seen := hothers other hother
    rw [heq] at hseen
    exact hseen (List.mem_cons_self ..)
  exact List.nodup_cons.mpr ⟨hfirst, hnodup⟩

/-- Names that stand apart stay apart when the first of them counts as seen. -/
theorem not_mem_names_cons {α : Type} {name : α → String} {first : α} {others : List α}
    {seen : List String} (hnodup : ((first :: others).map name).Nodup)
    (hall : ∀ one ∈ first :: others, name one ∉ seen) :
    ∀ other ∈ others, name other ∉ name first :: seen := by
  intro other hmem
  have hfirst : name first ∉ others.map name := (List.nodup_cons.mp hnodup).1
  have hne : name other ≠ name first := by
    intro heq
    exact hfirst (heq ▸ List.mem_map_of_mem hmem)
  have hseen : name other ∉ seen := hall other (List.mem_cons_of_mem _ hmem)
  rw [List.mem_cons, not_or]
  exact ⟨hne, hseen⟩

/-! ## Names that stand apart -/

section

variable {α β : Type} {name : α → String} {refusal : α → Error} {make : α → Except Error β}
  {seen : List String} {items : List α} {results : List β}

/-- Makes one thing after the other, and refuses the first whose name was seen before. -/
def buildApart (name : α → String) (refusal : α → Error) (make : α → Except Error β) :
    List String → List α → Except Error (List β)
  | _, [] => .ok []
  | seen, first :: rest =>
    if name first ∈ seen then .error (refusal first)
    else do
      let made ← make first
      let others ← buildApart name refusal make (name first :: seen) rest
      .ok (made :: others)

/-- **All are made** exactly if each of them can be and no name comes twice. -/
theorem buildApart_eq_ok_iff :
    buildApart name refusal make seen items = .ok results ↔
      List.Forall₂ (fun item result => make item = .ok result) items results ∧
        (items.map name).Nodup ∧ ∀ item ∈ items, name item ∉ seen := by
  induction items generalizing seen results with
  | nil =>
      rw [buildApart, List.forall₂_nil_left_iff]
      constructor
      · intro hmade
        exact ⟨(Except.ok.inj hmade).symm, List.nodup_nil, nofun⟩
      · rintro ⟨rfl, _⟩
        rfl
  | cons first rest ih =>
      rw [buildApart]
      constructor
      · intro hmade
        by_cases hseen : name first ∈ seen
        · rw [if_pos hseen] at hmade
          cases hmade
        · rw [if_neg hseen] at hmade
          obtain ⟨made, hfirst, hmade⟩ := bind_eq_ok.mp hmade
          obtain ⟨others, hothers, hmade⟩ := bind_eq_ok.mp hmade
          obtain rfl := Except.ok.inj hmade
          obtain ⟨hall, hnodup, hfresh⟩ := ih.mp hothers
          have hrest : ∀ item ∈ rest, name item ∉ seen :=
            fun item hmem h => hfresh item hmem (List.mem_cons_of_mem _ h)
          exact ⟨.cons hfirst hall, nodup_names_cons hnodup hfresh,
            List.forall_mem_cons.mpr ⟨hseen, hrest⟩⟩
      · rintro ⟨hall, hnodup, hfresh⟩
        cases hall with
        | @cons _ made _ others hfirst hothers =>
            have hseen : name first ∉ seen := hfresh first (List.mem_cons_self ..)
            have hrest : buildApart name refusal make (name first :: seen) rest = .ok others :=
              ih.mpr ⟨hothers, (List.nodup_cons.mp hnodup).2, not_mem_names_cons hnodup hfresh⟩
            rw [if_neg hseen]
            exact bind_eq_ok.mpr ⟨made, hfirst, bind_eq_ok.mpr ⟨others, hrest, rfl⟩⟩

/-- Each result is the result of something. -/
theorem exists_of_mem_of_forall₂ {R : α → β → Prop} (hall : List.Forall₂ R items results)
    {result : β} (hmem : result ∈ results) : ∃ item ∈ items, R item result := by
  induction hall with
  | nil => cases hmem
  | cons hfirst _ ih =>
      rcases List.mem_cons.mp hmem with rfl | hmem
      · exact ⟨_, List.mem_cons_self .., hfirst⟩
      · obtain ⟨item, hitem, hresult⟩ := ih hmem
        exact ⟨item, List.mem_cons_of_mem _ hitem, hresult⟩

/-- What is made keeps the names apart. -/
theorem buildApart_ok {named : β → String}
    (hname : ∀ item result, make item = .ok result → named result = name item)
    (hmade : buildApart name refusal make seen items = .ok results) :
    (results.map named).Nodup ∧
      ∀ result ∈ results, named result ∉ seen ∧ ∃ item, make item = .ok result := by
  obtain ⟨hall, hnodup, hfresh⟩ := buildApart_eq_ok_iff.mp hmade
  have hnames : items.map name = results.map named := by
    rw [← List.forall₂_eq_eq_eq, List.forall₂_map_left_iff, List.forall₂_map_right_iff]
    exact hall.imp fun item result hresult => (hname item result hresult).symm
  refine ⟨hnames ▸ hnodup, fun result hmem => ?_⟩
  obtain ⟨item, hitem, hresult⟩ := exists_of_mem_of_forall₂ hall hmem
  rw [hname item result hresult]
  exact ⟨hfresh item hitem, item, hresult⟩

end

/-- Relationships are built as things with different names. -/
theorem buildRelationships_eq_buildApart (prim : PrimPath) (seen : List String)
    (descriptions : List RelationshipDescription) :
    buildRelationships prim seen descriptions =
      buildApart (·.name) (fun description => .invalidScene (.relationship description.name prim))
        (·.build prim) seen descriptions := by
  induction descriptions generalizing seen with
  | nil => rfl
  | cons description rest ih => simp only [buildRelationships, buildApart, ih]

/-- Collections are built as things with different names. -/
theorem buildCollections_eq_buildApart (prim : PrimPath) (seen : List String)
    (descriptions : List CollectionDescription) :
    buildCollections prim seen descriptions =
      buildApart (·.name) (fun description => .invalidScene (.collection description.name prim))
        (·.build prim) seen descriptions := by
  induction descriptions generalizing seen with
  | nil => rfl
  | cons description rest ih => simp only [buildCollections, buildApart, ih]

/-- Relationships that are built have different names, none of which was seen, and all are well
formed. -/
theorem buildRelationships_ok {prim : PrimPath} {seen : List String}
    {descriptions : List RelationshipDescription} {relationships : List Relationship}
    (hbuild : buildRelationships prim seen descriptions = .ok relationships) :
    (relationships.map (·.name)).Nodup ∧
      ∀ relationship ∈ relationships, relationship.name ∉ seen ∧
        isPropertyName relationship.name.toList = true ∧ relationship.metadata.keys.Nodup := by
  rw [buildRelationships_eq_buildApart] at hbuild
  have hname : ∀ (description : RelationshipDescription) relationship,
      description.build prim = .ok relationship → relationship.name = description.name :=
    fun _ _ hmake => (RelationshipDescription.build_ok hmake).1
  obtain ⟨hnodup, hall⟩ := buildApart_ok hname hbuild
  refine ⟨hnodup, fun relationship hmem => ?_⟩
  obtain ⟨hseen, _, hmake⟩ := hall relationship hmem
  exact ⟨hseen, (RelationshipDescription.build_ok hmake).2⟩

/-- Collections that are built have different names, none of which was seen, and all can be
addressed. -/
theorem buildCollections_ok {prim : PrimPath} {seen : List String}
    {descriptions : List CollectionDescription} {collections : List Collection}
    (hbuild : buildCollections prim seen descriptions = .ok collections) :
    (collections.map (·.name)).Nodup ∧
      ∀ collection ∈ collections, collection.name ∉ seen ∧
        isPropertyName (Collection.nameLead ++ collection.name).toList = true := by
  rw [buildCollections_eq_buildApart] at hbuild
  have hname : ∀ (description : CollectionDescription) collection,
      description.build prim = .ok collection → collection.name = description.name :=
    fun _ _ hmake => (CollectionDescription.build_ok hmake).1
  obtain ⟨hnodup, hall⟩ := buildApart_ok hname hbuild
  refine ⟨hnodup, fun collection hmem => ?_⟩
  obtain ⟨hseen, _, hmake⟩ := hall collection hmem
  exact ⟨hseen, (CollectionDescription.build_ok hmake).2⟩

/-- **What is built of a prim and those beside it**: its name is read, and what is on it, below it
and behind it is built, with its name among those seen for the prims behind. -/
theorem Description.build_cons_eq_ok_iff {prim : PrimDescription} {children rest : Description}
    {parent : PrimPath} {seen : List String} {tree : Siblings} :
    (Description.cons prim children rest).build parent seen = .ok tree ↔
      prim.name ∉ seen ∧ ∃ name relationships collections below after,
        name.text = prim.name ∧
        buildRelationships (parent.child name) [] prim.relationships = .ok relationships ∧
        buildCollections (parent.child name) [] prim.collections = .ok collections ∧
        children.build (parent.child name) [] = .ok below ∧
        rest.build parent (prim.name :: seen) = .ok after ∧
        tree = .cons name { relationships, collections } below after := by
  rw [build]
  constructor
  · intro hbuild
    by_cases hseen : prim.name ∈ seen
    · rw [if_pos hseen] at hbuild
      cases hbuild
    · rw [if_neg hseen] at hbuild
      cases hname : PrimName.ofString? prim.name with
      | none =>
        rw [hname] at hbuild
        cases hbuild
      | some name =>
        rw [hname] at hbuild
        obtain ⟨relationships, hrelationships, hbuild⟩ := bind_eq_ok.mp hbuild
        obtain ⟨collections, hcollections, hbuild⟩ := bind_eq_ok.mp hbuild
        obtain ⟨below, hbelow, hbuild⟩ := bind_eq_ok.mp hbuild
        obtain ⟨after, hafter, hbuild⟩ := bind_eq_ok.mp hbuild
        exact ⟨hseen, name, relationships, collections, below, after,
          PrimName.ofString?_eq_some_iff.mp hname, hrelationships, hcollections, hbelow, hafter,
          (Except.ok.inj hbuild).symm⟩
  · rintro ⟨hseen, name, relationships, collections, below, after, htext, hrelationships,
      hcollections, hbelow, hafter, rfl⟩
    rw [if_neg hseen, PrimName.ofString?_eq_some_iff.mpr htext]
    exact bind_eq_ok.mpr ⟨relationships, hrelationships, bind_eq_ok.mpr ⟨collections, hcollections,
      bind_eq_ok.mpr ⟨below, hbelow, bind_eq_ok.mpr ⟨after, hafter, rfl⟩⟩⟩⟩

/-- **A tree that is built is well formed**, and has no name among those seen before. -/
theorem Description.build_ok {description : Description} {parent : PrimPath} {seen : List String}
    {tree : Siblings} (hbuild : description.build parent seen = .ok tree) :
    tree.WellFormed ∧ ∀ name ∈ tree.names, name.text ∉ seen := by
  induction description generalizing parent seen tree with
  | nil =>
      obtain rfl := Except.ok.inj hbuild
      exact ⟨trivial, nofun⟩
  | cons prim children rest ihchildren ihrest =>
      obtain ⟨hseen, name, relationships, collections, below, after, htext, hrelationships,
        hcollections, hbelow, hafter, rfl⟩ := build_cons_eq_ok_iff.mp hbuild
      obtain ⟨hrelnodup, hrelall⟩ := buildRelationships_ok hrelationships
      obtain ⟨hcolnodup, hcolall⟩ := buildCollections_ok hcollections
      obtain ⟨hafterwell, hafterall⟩ := ihrest hafter
      have hprim : (Prim.mk relationships collections).WellFormed :=
        { relationship_names := hrelnodup
          property_names := fun r hr => (hrelall r hr).2.1
          metadata_keys := fun r hr => (hrelall r hr).2.2
          collection_names := hcolnodup
          address_names := fun c hc => (hcolall c hc).2 }
      have hbelowwell : below.WellFormed := (ihchildren hbelow).1
      have hapart : name ∉ after.names := by
        intro hmem
        have hnot : name.text ∉ prim.name :: seen := hafterall name hmem
        rw [htext] at hnot
        exact hnot (List.mem_cons_self ..)
      refine ⟨⟨hapart, hprim, hbelowwell, hafterwell⟩, ?_⟩
      intro other hmem
      rcases List.mem_cons.mp hmem with rfl | hmem
      · rwa [htext]
      · exact fun h => hafterall other hmem (List.mem_cons_of_mem _ h)

namespace Stage

variable {description : Description} {stage : Stage}

/-- A stage that is made out of a description has the tree that is built. -/
theorem build_of_ofDescription (hbuild : ofDescription description = .ok stage) :
    description.build .root [] = .ok stage.tree := by
  rw [ofDescription] at hbuild
  cases htree : description.build .root [] with
  | error cause =>
      rw [htree] at hbuild
      cases hbuild
  | ok tree =>
      rw [htree] at hbuild
      obtain rfl := Except.ok.inj hbuild
      rfl

/-- A stage that is made out of a description is well formed. -/
theorem ofDescription_ok (hbuild : ofDescription description = .ok stage) :
    stage.tree.WellFormed :=
  (Description.build_ok (build_of_ofDescription hbuild)).1

end Stage

end MaterialBinding
