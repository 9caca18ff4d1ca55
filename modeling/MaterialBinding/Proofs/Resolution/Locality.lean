import MaterialBinding.Proofs.Resolution.Alike
import MaterialBinding.Proofs.Stage.Frame

/-!
# What the material of a prim depends on

A search from a prim reads the relationships on the prim and above, asks which of their targets are
prims, and flattens the collections that they target.  Two stages that do not differ in this
(`Stage.SameAround`) give the prim the same material for every purpose and every filter.

So it does not matter what is authored elsewhere (`Edit.Elsewhere`): on siblings, on the prims
below, in other collections.
-/

namespace MaterialBinding

namespace CollectionBinding

variable {purpose : Purpose} {relationship : Relationship} {binding : CollectionBinding}
  {stage other : Stage}

/-- A collection binding is named as one, and targets a collection and a material. -/
theorem fields_of_ofRelationship?
    (hbinding : ofRelationship? purpose relationship = some binding) :
    (purpose.bindingName? relationship.name).isSome = true ∧
      relationship.targets = [binding.collectionPath, binding.materialPath] ∧
        binding.collectionPath.asCollection? = some (binding.owner, binding.collectionName) := by
  obtain ⟨_, hname, htargets, haddress⟩ := ofRelationship?_eq_some_iff.mp hbinding
  exact ⟨by rw [hname]; rfl, htargets, haddress⟩

/-- Membership depends on the collections that are reached from the bound one. -/
theorem hasMember_iff_of_reaches
    (haddress : binding.collectionPath.asCollection? =
      some (binding.owner, binding.collectionName))
    (hsame : ∀ reached, stage.Reaches binding.collectionPath reached →
      other.collectionAt? reached = stage.collectionAt? reached) (path : ScenePath) :
    binding.HasMember other path ↔ binding.HasMember stage path := by
  have hat : ∀ stage : Stage, stage.collection? binding.owner binding.collectionName =
      stage.collectionAt? binding.collectionPath := by
    intro stage
    rw [Stage.collectionAt?, haddress]
  unfold HasMember
  rw [hat, hat, hsame _ (.here _)]
  refine exists_congr fun collection => exists_congr fun rules => and_congr_right fun hthere => ?_
  rw [MemberRules.compute_eq_of_reaches fun item hmem reached hreached =>
    hsame reached (.onward hthere hmem hreached)]

end CollectionBinding

namespace Stage

/-- The targets of the relationships on the prim and above. -/
def targetsAbove (stage : Stage) (path : PrimPath) : List ScenePath :=
  path.ancestors.flatMap fun (above : PrimPath) => (stage.relationships above).flatMap (·.targets)

/-- A search from the path sees no difference between the stages. -/
structure SameAround (stage other : Stage) (path : PrimPath) : Prop where
  /-- The relationships on the prim and above are the same. -/
  relationships_eq : ∀ above ∈ path.ancestors,
    other.relationships above = stage.relationships above
  /-- Their targets are prims on both stages, or on none. -/
  hasPrim_eq : ∀ target ∈ stage.targetsAbove path, other.hasPrim target = stage.hasPrim target
  /-- The collections that are reached from their targets are the same. -/
  collectionAt?_eq : ∀ target ∈ stage.targetsAbove path, ∀ reached, stage.Reaches target reached →
    other.collectionAt? reached = stage.collectionAt? reached

variable {stage other : Stage} {purpose : Purpose} {wanted : String} {path : PrimPath}

/-- The targets above a path are those of the relationships on the way up. -/
theorem mem_targetsAbove {target : ScenePath} :
    target ∈ stage.targetsAbove path ↔ ∃ above ∈ path.ancestors,
      ∃ relationship ∈ stage.relationships above, target ∈ relationship.targets := by
  simp only [targetsAbove, List.mem_flatMap]

/-- Offered relationships stand on the prim or above. -/
theorem exists_of_mem_offeredRelationships {relationship : Relationship}
    (hmem : relationship ∈ stage.offeredRelationships purpose path) :
    ∃ above ∈ path.ancestors, relationship ∈ stage.relationships above := by
  induction path with
  | root => exact absurd hmem nofun
  | child above name ih =>
      rw [offeredRelationships] at hmem
      split at hmem
      · obtain ⟨owner, howner, hrelationship⟩ := ih hmem
        exact ⟨owner, List.mem_cons_of_mem _ howner, hrelationship⟩
      · exact ⟨above.child name, List.mem_cons_self .., (List.mem_filter.mp hmem).1⟩

namespace SameAround

/-- What is the same around a child is the same around its parent. -/
theorem above {name : PrimName} (h : stage.SameAround other (path.child name)) :
    stage.SameAround other path := by
  have hsubset : stage.targetsAbove path ⊆ stage.targetsAbove (path.child name) := by
    intro target hmem
    exact List.mem_append_right _ hmem
  exact
    { relationships_eq := fun above hmem => h.relationships_eq above (List.mem_cons_of_mem _ hmem)
      hasPrim_eq := fun target hmem => h.hasPrim_eq target (hsubset hmem)
      collectionAt?_eq := fun target hmem => h.collectionAt?_eq target (hsubset hmem) }

variable (h : stage.SameAround other path)

include h

/-- Around the path the same targets are materials. -/
theorem material?_eq {target : ScenePath} (hmem : target ∈ stage.targetsAbove path) :
    other.material? target = stage.material? target := by
  rw [material?, material?, h.hasPrim_eq target hmem]

/-- Around the path the same direct bindings are met. -/
theorem metDirectly_eq {above : PrimPath} (habove : above ∈ path.ancestors) :
    other.metDirectly purpose above = stage.metDirectly purpose above := by
  have hfound : other.relationship? above purpose.directName =
      stage.relationship? above purpose.directName := by
    rw [relationship?, relationship?, h.relationships_eq above habove]
  rw [metDirectly, metDirectly, hfound]
  cases hrelationship : stage.relationship? above purpose.directName with
  | none => rfl
  | some relationship =>
      have hmem := List.mem_of_find?_eq_some hrelationship
      simp only
      cases htargets : relationship.targets with
      | nil => rfl
      | cons target targets =>
          have htarget : target ∈ relationship.targets := htargets ▸ List.mem_cons_self ..
          have hseen := mem_targetsAbove.mpr ⟨above, habove, relationship, hmem, htarget⟩
          simp only [List.head?_cons, Option.bind_some, h.material?_eq hseen]

/-- Around the path a search makes the same of each relationship. -/
theorem collectionEvent?_eq {above : PrimPath} {relationship : Relationship}
    (habove : above ∈ path.ancestors) (hmem : relationship ∈ stage.relationships above)
    (place : PrimPath) :
    other.collectionEvent? purpose wanted place relationship =
      stage.collectionEvent? purpose wanted place relationship := by
  have hseen : ∀ target ∈ relationship.targets, target ∈ stage.targetsAbove path :=
    fun target htarget => mem_targetsAbove.mpr ⟨above, habove, relationship, hmem, htarget⟩
  rw [collectionEvent?, collectionEvent?]
  cases hbinding : CollectionBinding.ofRelationship? purpose relationship with
  | none => rfl
  | some binding =>
      obtain ⟨_, htargets, haddress⟩ := CollectionBinding.fields_of_ofRelationship? hbinding
      have hcollection := hseen binding.collectionPath (by simp [htargets])
      have hmaterial := hseen binding.materialPath (by simp [htargets])
      have hmember := CollectionBinding.hasMember_iff_of_reaches haddress
        (h.collectionAt?_eq _ hcollection) place
      simp only [Option.bind_some, hmember, h.material?_eq hmaterial]

end SameAround

/-- Around the path the same relationships are offered. -/
theorem SameAround.offeredRelationships_eq (h : stage.SameAround other path) :
    other.offeredRelationships purpose path = stage.offeredRelationships purpose path := by
  induction path with
  | root => rfl
  | child above name ih =>
      have hhere : other.collectionRelationships (above.child name) purpose =
          stage.collectionRelationships (above.child name) purpose := by
        rw [collectionRelationships, collectionRelationships,
          h.relationships_eq _ (List.mem_cons_self ..)]
      rw [offeredRelationships, offeredRelationships, hhere, ih h.above]

/-- What collections bring to the walk at the prim itself. -/
theorem SameAround.metThroughCollections_eq (h : stage.SameAround other path) :
    other.metThroughCollections purpose wanted path =
      stage.metThroughCollections purpose wanted path := by
  rw [metThroughCollections_eq_filterMap, metThroughCollections_eq_filterMap,
    h.offeredRelationships_eq]
  refine List.filterMap_congr fun relationship hmem => ?_
  obtain ⟨above, habove, hthere⟩ := exists_of_mem_offeredRelationships hmem
  exact h.collectionEvent?_eq habove hthere path

/-- **A search meets the same** where all around the path is the same. -/
theorem SameAround.walk_eq (h : stage.SameAround other path) :
    other.walk purpose wanted path = stage.walk purpose wanted path := by
  induction path with
  | root => rfl
  | child above name ih =>
      rw [walk, walk, h.metDirectly_eq (List.mem_cons_self ..), h.metThroughCollections_eq,
        ih h.above]

/-- **A pass finds the same** on stages that do not differ in what it reads. -/
theorem SameAround.pass_eq (h : stage.SameAround other path) :
    other.pass purpose wanted path = stage.pass purpose wanted path := by
  rw [pass_eq_findSome?_decisive, pass_eq_findSome?_decisive, h.walk_eq]

end Stage

/-! ## Authoring elsewhere -/

/-- The call touches nothing that a search from the path reads: it writes on no prim on the way up,
makes no target there that is missing, and defines no collection that is reached; and what it cuts
off holds no prim on the way, no target and no collection that is reached. -/
def Edit.Elsewhere (stage : Stage) (path : PrimPath) : Edit → Prop
  | definePrim made => ∀ target ∈ stage.targetsAbove path, target.isProperty = false →
      target.prim ∈ made.prim.ancestors → stage.hasPrim target = true
  | removePrim cut => cut.prim ∉ path.ancestors ∧ ∀ target ∈ stage.targetsAbove path,
      (stage.hasPrim target = true → cut.prim ∉ target.prim.ancestors) ∧
        ∀ reached collection, stage.Reaches target reached →
          stage.collectionAt? reached = some collection → cut.prim ∉ reached.prim.ancestors
  | defineCollection owner collection => ∀ address,
      owner.collection collection.name = .ok address →
        ∀ target ∈ stage.targetsAbove path, ¬ stage.Reaches target address
  | createRelationship prim _ _ | changeRelationship prim _ _ | setMetadata prim _ _ _
  | removeRelationship prim _ | bind prim _ _ _ | bindCollection prim _ _ _ _ _
  | unbindDirect prim _ | unbindCollection prim _ _ => prim.prim ∉ path.ancestors

namespace Stage

variable {stage other : Stage} {purpose : Purpose} {wanted : String} {path : PrimPath}

/-- A change of one prim that is not on the way up is not seen around the path. -/
theorem KeepsOthers.sameAround {prim : ScenePath} (h : stage.KeepsOthers prim other)
    (hprim : prim.prim ∉ path.ancestors) : stage.SameAround other path where
  relationships_eq := fun above hmem => h.relationships_eq above fun heq => hprim (heq ▸ hmem)
  hasPrim_eq := fun target _ => h.hasPrim_eq target
  collectionAt?_eq := fun _ _ reached _ => h.collectionAt?_eq reached

/-- A collection that nobody on the way up reaches may be defined. -/
theorem sameAround_defineCollection {owner : ScenePath} {collection : Collection}
    (helsewhere : (Edit.defineCollection owner collection).Elsewhere stage path) :
    stage.SameAround ((Edit.defineCollection owner collection).run stage) path where
  relationships_eq := fun above _ => relationships_defineCollection above
  hasPrim_eq := fun target _ => hasPrim_defineCollection target
  collectionAt?_eq := fun target hmem _ hreached =>
    collectionAt?_defineCollection fun address haddress heq =>
      helsewhere address haddress target hmem (heq ▸ hreached)

/-- A prim that nobody on the way up is bound to may be defined. -/
theorem sameAround_definePrim {made : ScenePath}
    (helsewhere : (Edit.definePrim made).Elsewhere stage path) :
    stage.SameAround ((Edit.definePrim made).run stage) path where
  relationships_eq := fun above _ => by rw [relationships, relationships, prim_definePrim]
  hasPrim_eq := fun target hmem => by
    rw [hasPrim_definePrim]
    by_cases hmade : target.isProperty = false ∧ target.prim ∈ made.prim.ancestors
    · rw [helsewhere target hmem hmade.1 hmade.2, Bool.true_or]
    · cases hproperty : target.isProperty with
      | true => simp
      | false =>
          have hapart : target.prim ∉ made.prim.ancestors := fun hmem => hmade ⟨hproperty, hmem⟩
          simp [hapart]
  collectionAt?_eq := fun _ _ reached _ => collectionAt?_definePrim made reached

/-- A prim that nobody on the way up needs may be removed. -/
theorem sameAround_removePrim {cut : ScenePath}
    (helsewhere : (Edit.removePrim cut).Elsewhere stage path) :
    stage.SameAround ((Edit.removePrim cut).run stage) path where
  relationships_eq := fun above hmem => by
    have hapart : cut.prim ∉ above.ancestors :=
      fun hbelow => helsewhere.1 (PrimPath.ancestors_subset hmem hbelow)
    rw [relationships, relationships, prim_removePrim_of_not_mem hapart]
  hasPrim_eq := fun target hmem => by
    rw [hasPrim_removePrim]
    cases hthere : stage.hasPrim target with
    | false => rfl
    | true =>
        have hapart := (helsewhere.2 target hmem).1 hthere
        simp [hapart]
  collectionAt?_eq := fun target hmem reached hreached => by
    rw [collectionAt?_removePrim]
    split_ifs with hbelow
    · cases hat : stage.collectionAt? reached with
      | none => rfl
      | some collection =>
          exact absurd hbelow.2 ((helsewhere.2 target hmem).2 reached collection hreached hat)
    · rfl

/-- **Authoring elsewhere** makes no difference to a search from the path. -/
theorem sameAround_run {edit : Edit} (helsewhere : edit.Elsewhere stage path) :
    stage.SameAround (edit.run stage) path := by
  cases edit with
  | definePrim made => exact sameAround_definePrim helsewhere
  | removePrim cut => exact sameAround_removePrim helsewhere
  | defineCollection owner collection => exact sameAround_defineCollection helsewhere
  | _ => exact (Edit.keepsOthers_run rfl).sameAround helsewhere

/-- A prim is still there after authoring elsewhere. -/
theorem hasPrim_run_of_elsewhere {edit : Edit} {prim : ScenePath}
    (helsewhere : edit.Elsewhere stage prim.prim) (hprim : stage.hasPrim prim = true) :
    (edit.run stage).hasPrim prim = true := by
  cases edit with
  | definePrim made => rw [hasPrim_definePrim, hprim, Bool.true_or]
  | removePrim cut =>
      have hapart : cut.prim ∉ prim.prim.ancestors := helsewhere.1
      rw [hasPrim_removePrim, hprim]
      simp [hapart]
  | defineCollection owner collection => rw [hasPrim_defineCollection, hprim]
  | _ => rw [(Edit.keepsOthers_run rfl).hasPrim_eq, hprim]

/-- Addresses that are reached on the other stage are reached here, if the collections on the way
are the same. -/
theorem Reaches.of_same {address reached : ScenePath}
    (hsame : ∀ reached, stage.Reaches address reached →
      other.collectionAt? reached = stage.collectionAt? reached)
    (h : other.Reaches address reached) : stage.Reaches address reached := by
  induction h with
  | here address => exact .here address
  | onward hat hmem _ ih =>
      rw [hsame _ (.here _)] at hat
      exact .onward hat hmem (ih fun reached hreached => hsame reached (.onward hat hmem hreached))

namespace SameAround

/-- Around the path there are the same targets. -/
theorem targetsAbove_eq (h : stage.SameAround other path) :
    other.targetsAbove path = stage.targetsAbove path := by
  rw [targetsAbove, targetsAbove]
  refine List.flatMap_congr fun above hmem => ?_
  rw [h.relationships_eq above hmem]

/-- What is elsewhere stays elsewhere, as long as nothing is authored but elsewhere. -/
theorem elsewhere (h : stage.SameAround other path) {edit : Edit}
    (helsewhere : edit.Elsewhere stage path) : edit.Elsewhere other path := by
  have hreaches : ∀ target ∈ stage.targetsAbove path, ∀ reached,
      other.Reaches target reached → stage.Reaches target reached :=
    fun target hmem _ hreached => hreached.of_same (h.collectionAt?_eq target hmem)
  cases edit with
  | definePrim made =>
      intro target hmem hplain hmade
      rw [h.targetsAbove_eq] at hmem
      rw [h.hasPrim_eq target hmem]
      exact helsewhere target hmem hplain hmade
  | removePrim cut =>
      refine ⟨helsewhere.1, fun target hmem => ?_⟩
      rw [h.targetsAbove_eq] at hmem
      obtain ⟨htarget, hcollections⟩ := helsewhere.2 target hmem
      refine ⟨fun hthere => htarget (h.hasPrim_eq target hmem ▸ hthere), ?_⟩
      intro reached collection hreached hat
      have hbefore := hreaches target hmem reached hreached
      rw [h.collectionAt?_eq target hmem reached hbefore] at hat
      exact hcollections reached collection hbefore hat
  | defineCollection owner collection =>
      intro address haddress target hmem hreached
      rw [h.targetsAbove_eq] at hmem
      exact helsewhere address haddress target hmem (hreaches target hmem address hreached)
  | _ => exact helsewhere

/-- **A search finds the same** on stages that do not differ in what it reads. -/
theorem resolve_eq {prim : ScenePath} (h : stage.SameAround other prim.prim)
    (hprim : stage.hasPrim prim = true) (hother : other.hasPrim prim = true)
    (settings : Settings) :
    other.resolve settings prim purpose wanted = stage.resolve settings prim purpose wanted := by
  rw [resolve_eq_or_passes, resolve_eq_or_passes, hprim, hother, h.pass_eq, h.pass_eq]

end SameAround

/-- Any number of calls elsewhere leave the result of a search. -/
theorem resolve_foldl_run_of_elsewhere {prim : ScenePath} (hprim : stage.hasPrim prim = true)
    {edits : List Edit} (helsewhere : ∀ edit ∈ edits, edit.Elsewhere stage prim.prim)
    (settings : Settings) :
    (edits.foldl Edit.run stage).resolve settings prim purpose wanted =
      stage.resolve settings prim purpose wanted := by
  induction edits generalizing stage with
  | nil => rfl
  | cons edit edits ih =>
      obtain ⟨hedit, hrest⟩ := List.forall_mem_cons.mp helsewhere
      have hsame : stage.SameAround (edit.run stage) prim.prim := sameAround_run hedit
      have hthere := hasPrim_run_of_elsewhere hedit hprim
      rw [List.foldl_cons, ih hthere fun later hmem => hsame.elsewhere (hrest later hmem),
        hsame.resolve_eq hprim hthere]

/-- **Resolution is local.**  The material of a prim is the same on all stages that do not differ in
the relationships on the prim and above, in which of their targets are prims, and in the collections
that are reached from their targets.  So no calls elsewhere change it. -/
theorem resolve_eq_of_sameAround {prim : ScenePath} (hprim : stage.hasPrim prim = true) :
    (∀ other : Stage, other.hasPrim prim = true → stage.SameAround other prim.prim →
      ∀ settings purpose wanted,
        other.resolve settings prim purpose wanted =
          stage.resolve settings prim purpose wanted) ∧
      ∀ edits : List Edit, (∀ edit ∈ edits, edit.Elsewhere stage prim.prim) →
        ∀ settings purpose wanted,
          (edits.foldl Edit.run stage).resolve settings prim purpose wanted =
            stage.resolve settings prim purpose wanted :=
  ⟨fun _ hother hsame settings _ _ => hsame.resolve_eq hprim hother settings,
    fun _ helsewhere settings _ _ => resolve_foldl_run_of_elsewhere hprim helsewhere settings⟩

/-- Addresses that are reached lie in every list that has the includes of its collections. -/
theorem Reaches.mem_of_closed {addresses : List ScenePath}
    (hclosed : ∀ address ∈ addresses, ∀ collection ∈ stage.collectionAt? address,
      ∀ item ∈ collection.includes, item ∈ addresses)
    {address reached : ScenePath} (h : stage.Reaches address reached)
    (hmem : address ∈ addresses) : reached ∈ addresses := by
  induction h with
  | here address => exact hmem
  | onward hat hitem _ ih => exact ih (hclosed _ hmem _ hat _ hitem)

/-- Calls beside the cup of the bound desk: a saucer on the desk that is bound to blue, a collection
of the desk that nobody asks for, and a shelf that comes and goes. -/
def tableSetting (desk blue : PrimPath) (saucer shelf : PrimName) : List Edit :=
  [.definePrim (desk.child saucer), .bind (desk.child saucer) blue .stronger .allPurpose,
    .defineCollection desk { name := "spare", includes := [desk.child saucer] },
    .definePrim (PrimPath.root.child shelf), .removePrim (PrimPath.root.child shelf)]

/-- After them there is a blue saucer, and the cup is red as before. -/
theorem tableSetting_cup :
    let desk : PrimPath := .child .root ⟨"Desk", by decide⟩
    let cup : PrimPath := desk.child ⟨"Cup", by decide⟩
    let blue : PrimPath := .child (.child .root ⟨"Looks", by decide⟩) ⟨"Blue", by decide⟩
    let red : PrimPath := .child (.child .root ⟨"Looks", by decide⟩) ⟨"Red", by decide⟩
    let saucer : PrimName := ⟨"Saucer", by decide⟩
    let edits : List Edit := tableSetting desk blue saucer ⟨"Shelf", by decide⟩
    let laid : Stage := edits.foldl Edit.run boundDesk
    laid.directMaterial? (desk.child saucer) .allPurpose = some blue ∧
      boundDesk.SameAround laid cup ∧ (∀ edit ∈ edits, edit.Elsewhere boundDesk cup) ∧
      laid.resolve {} cup .full "" = .ok (some red) ∧
      laid.resolve {} cup .preview "all" = .ok (some red) := by
  intro desk cup blue red saucer edits laid
  let spare : ScenePath := .ofProperty .root ⟨"Desk", by decide⟩ ⟨"collection:spare", by decide⟩
  let seen : List ScenePath := boundDesk.targetsAbove cup ++ [.ofPrim desk]
  have hseen : ∀ target ∈ boundDesk.targetsAbove cup, ∀ reached,
      boundDesk.Reaches target reached → reached ∈ seen := by
    intro target hmem reached hreached
    refine hreached.mem_of_closed ?_ (List.mem_append_left _ hmem)
    decide
  have hsame : boundDesk.SameAround laid cup := by
    refine ⟨by decide, by decide, fun target hmem reached hreached => ?_⟩
    have hat : ∀ reached ∈ seen,
        laid.collectionAt? reached = boundDesk.collectionAt? reached := by decide
    exact hat reached (hseen target hmem reached hreached)
  have helsewhere : ∀ edit ∈ edits, edit.Elsewhere boundDesk cup := by
    simp only [edits, tableSetting, List.forall_mem_cons]
    refine ⟨?_, ?_, ?_, ?_, ⟨?_, fun target hmem => ⟨?_, ?_⟩⟩, List.forall_mem_nil _⟩
    · unfold Edit.Elsewhere
      decide
    · unfold Edit.Elsewhere
      decide
    · intro address haddress target hmem hreached
      have hspare : (ScenePath.ofPrim desk).collection "spare" = .ok spare := by decide
      obtain rfl := Except.ok.inj (hspare.symm.trans haddress)
      exact absurd (hseen target hmem spare hreached) (by decide)
    · unfold Edit.Elsewhere
      decide
    · decide
    · revert target
      decide
    · intro reached collection hreached _
      have hapart : ∀ reached ∈ seen,
          PrimPath.root.child ⟨"Shelf", by decide⟩ ∉ reached.prim.ancestors := by decide
      exact hapart reached (hseen target hmem reached hreached)
  obtain ⟨hstages, hedits⟩ :=
    resolve_eq_of_sameAround (show boundDesk.hasPrim cup = true by decide)
  refine ⟨by decide, hsame, helsewhere, ?_, ?_⟩
  · exact (hstages laid (by decide) hsame {} .full "").trans (by decide)
  · exact (hedits edits helsewhere {} .preview "all").trans (by decide)

end Stage

end MaterialBinding
