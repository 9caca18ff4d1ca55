import MaterialBinding.Proofs.Collection.Nesting
import MaterialBinding.Proofs.Stage.AllOrNothing
import MaterialBinding.Proofs.Stage.History

/-!
# What an edit leaves alone

Most calls write the relationships of one prim, and nothing else (`Edit.keepsOthers_run`).
Defining a collection writes the one collection at its address
(`collectionAt?_defineCollection`), defining a prim adds bare prims
(`prim_definePrim`), and removing one takes out what is at or below it (`prim_removePrim`).
-/

namespace MaterialBinding

/-- The prim whose relationships the call writes, if this is what it does. -/
def Edit.relationshipPrim? : Edit → Option ScenePath
  | definePrim _ | removePrim _ | defineCollection _ _ => none
  | createRelationship prim _ _ | changeRelationship prim _ _ | setMetadata prim _ _ _
  | removeRelationship prim _ | bind prim _ _ _ | bindCollection prim _ _ _ _ _
  | unbindDirect prim _ | unbindCollection prim _ _ => some prim

namespace Stage

/-- The stages differ at most in the relationships of one prim. -/
structure KeepsOthers (stage : Stage) (prim : ScenePath) (after : Stage) : Prop where
  hasPrim_eq : ∀ path, after.hasPrim path = stage.hasPrim path
  collections_eq : ∀ path, after.collections path = stage.collections path
  relationships_eq : ∀ place : PrimPath, place ≠ prim.prim →
    after.relationships place = stage.relationships place

variable {stage after : Stage} {prim : ScenePath} {name : String}

/-- Nothing that is done changes others. -/
theorem KeepsOthers.refl (stage : Stage) (prim : ScenePath) : stage.KeepsOthers prim stage where
  hasPrim_eq := fun _ => rfl
  collections_eq := fun _ => rfl
  relationships_eq := fun _ _ => rfl

/-- A change of relationships keeps the collection at each address. -/
theorem KeepsOthers.collectionAt?_eq (h : stage.KeepsOthers prim after) (address : ScenePath) :
    after.collectionAt? address = stage.collectionAt? address := by
  rw [collectionAt?, collectionAt?]
  cases address.asCollection? with
  | none => rfl
  | some target => simp only [collection?, h.collections_eq]

/-- A change of one prim that keeps its collections keeps all others. -/
theorem keepsOthers_modifyPrim {f : Prim → Prim}
    (hf : ∀ held, (f held).collections = held.collections) (prim : ScenePath) :
    stage.KeepsOthers prim (stage.modifyPrim prim f) where
  hasPrim_eq := hasPrim_modifyPrim prim
  collections_eq := by
    have hpaired : stage.Paired (fun _ held held' => held'.collections = held.collections)
        (stage.modifyPrim prim f) := by
      refine paired_modifyPrim ?_ prim hf
      exact fun _ _ => rfl
    refine Paired.prim ?_ hpaired
    exact fun _ => rfl
  relationships_eq := fun place hne => by
    rw [relationships, relationships, prim_modifyPrim_of_ne hne]

variable {f : Relationship → Relationship}

/-- Putting a relationship keeps all other prims. -/
theorem keepsOthers_putRelationship :
    stage.KeepsOthers prim (stage.afterwards (stage.putRelationship prim name f)) := by
  unfold putRelationship
  cases prim.appendProperty name with
  | error cause => exact .refl stage prim
  | ok property =>
      cases stage.requirePrim prim with
      | error error => exact .refl stage prim
      | ok _ => exact keepsOthers_modifyPrim (f := (·.putRelationship name f)) (fun _ => rfl) prim

/-- Changing a relationship keeps all other prims. -/
theorem keepsOthers_modifyRelationship :
    stage.KeepsOthers prim (stage.modifyRelationship prim name f).2 := by
  unfold modifyRelationship
  split
  · exact keepsOthers_modifyPrim (f := (·.modifyRelationship name f)) (fun _ => rfl) prim
  · exact .refl stage prim

/-- Removing a relationship keeps all other prims. -/
theorem keepsOthers_removeRelationship :
    stage.KeepsOthers prim (stage.removeRelationship prim name).2 := by
  unfold removeRelationship
  split
  · exact keepsOthers_modifyPrim (f := (·.eraseRelationship name)) (fun _ => rfl) prim
  · exact .refl stage prim

/-- Setting metadata keeps all other prims. -/
theorem keepsOthers_setMetadata {key value : String} :
    stage.KeepsOthers prim (stage.afterwards (stage.setMetadata prim name key value)) := by
  have hmodify : stage.KeepsOthers prim
      (stage.modifyRelationship prim name (·.setMetadata key value)).2 :=
    keepsOthers_modifyRelationship
  unfold setMetadata
  cases stage.requirePrim prim with
  | error error => exact .refl stage prim
  | ok _ =>
      rcases hresult : stage.modifyRelationship prim name (·.setMetadata key value) with
        ⟨found, changed⟩
      rw [hresult] at hmodify
      cases found with
      | true => exact hmodify
      | false => exact .refl stage prim

/-- Binding a collection keeps all other prims. -/
theorem keepsOthers_bindCollection {collection material : ScenePath} {bindingName : String}
    {strength : Strength} {purpose : Purpose} :
    stage.KeepsOthers prim (stage.afterwards
      (stage.bindCollection prim collection material bindingName strength purpose)) := by
  unfold bindCollection
  cases collection.asCollection? with
  | none => exact .refl stage prim
  | some target =>
      simp only
      generalize (if bindingName = "" then target.2 else bindingName) = name
      split
      · exact .refl stage prim
      · exact keepsOthers_putRelationship

end Stage

namespace Edit

variable {stage : Stage} {edit : Edit} {prim : ScenePath}

/-- **A call that writes relationships** leaves all that is not on its prim. -/
theorem keepsOthers_run (hedit : edit.relationshipPrim? = some prim) :
    stage.KeepsOthers prim (edit.run stage) := by
  cases edit with
  | definePrim path => cases hedit
  | removePrim path => cases hedit
  | defineCollection owner collection => cases hedit
  | createRelationship other name targets =>
      obtain rfl := Option.some.inj hedit
      exact Stage.keepsOthers_putRelationship
  | changeRelationship other name change =>
      obtain rfl := Option.some.inj hedit
      exact Stage.keepsOthers_modifyRelationship
  | setMetadata other name key value =>
      obtain rfl := Option.some.inj hedit
      exact Stage.keepsOthers_setMetadata
  | removeRelationship other name =>
      obtain rfl := Option.some.inj hedit
      exact Stage.keepsOthers_removeRelationship
  | bind other material strength purpose =>
      obtain rfl := Option.some.inj hedit
      exact Stage.keepsOthers_putRelationship
  | bindCollection other collection material bindingName strength purpose =>
      obtain rfl := Option.some.inj hedit
      exact Stage.keepsOthers_bindCollection
  | unbindDirect other purpose =>
      obtain rfl := Option.some.inj hedit
      exact Stage.keepsOthers_removeRelationship
  | unbindCollection other bindingName purpose =>
      obtain rfl := Option.some.inj hedit
      exact Stage.keepsOthers_removeRelationship

end Edit

/-! ## Defining a collection -/

/-- Putting a collection leaves those of other names. -/
theorem Prim.find?_putCollectionIn_of_ne {collection : Collection} {name : String}
    (hne : name ≠ collection.name) (collections : List Collection) :
    (putCollectionIn collection collections).find? (·.name = name) =
      collections.find? (·.name = name) := by
  induction collections with
  | nil => simp [putCollectionIn, hne.symm]
  | cons other rest ih =>
      rw [putCollectionIn]
      split_ifs with hname
      · rw [List.find?_cons_of_neg, List.find?_cons_of_neg]
        · simpa [hname] using hne.symm
        · simpa using hne.symm
      · rw [List.find?_cons, List.find?_cons, ih]

namespace Stage

variable {stage : Stage} {owner reached : ScenePath} {collection : Collection}

/-- A collection that may be defined is put on its prim. -/
theorem run_defineCollection (stage : Stage) (owner : ScenePath) (collection : Collection) :
    (Edit.defineCollection owner collection).run stage = stage ∨
      (∃ address, owner.collection collection.name = .ok address) ∧ stage.hasPrim owner = true ∧
        (Edit.defineCollection owner collection).run stage =
          stage.modifyPrim owner (·.putCollection collection) := by
  rw [Edit.run]
  cases hdefine : stage.defineCollection owner collection with
  | error error => exact Or.inl rfl
  | ok result =>
      obtain ⟨haddress, ⟨hprim, _⟩, hafter⟩ := defineCollection_eq_ok_iff.mp hdefine
      exact Or.inr ⟨⟨result.1, haddress⟩, hprim, hafter⟩

/-- Defining a collection makes no prim and takes none away. -/
theorem hasPrim_defineCollection (path : ScenePath) :
    ((Edit.defineCollection owner collection).run stage).hasPrim path = stage.hasPrim path := by
  rcases run_defineCollection stage owner collection with hrun | ⟨_, _, hrun⟩
  · rw [hrun]
  · rw [hrun, hasPrim_modifyPrim]

/-- Defining a collection leaves the relationships. -/
theorem relationships_defineCollection (path : ScenePath) :
    ((Edit.defineCollection owner collection).run stage).relationships path =
      stage.relationships path := by
  rcases run_defineCollection stage owner collection with hrun | ⟨_, _, hrun⟩
  · rw [hrun]
  · have hpaired : stage.Paired (fun _ held held' => held'.relationships = held.relationships)
        (stage.modifyPrim owner (·.putCollection collection)) := by
      refine paired_modifyPrim ?_ owner ?_
      · exact fun _ _ => rfl
      · exact fun _ => rfl
    rw [hrun]
    refine Paired.prim ?_ hpaired path
    exact fun _ => rfl

/-- Putting a collection on a prim leaves the others, there and elsewhere. -/
theorem collection?_putCollection {held place : PrimPath} {name : String} (hroot : held ≠ .root)
    (hprim : stage.hasPrim held = true) (hother : place = held → name ≠ collection.name) :
    (stage.modifyPrim held (·.putCollection collection)).collection? place name =
      stage.collection? place name := by
  simp only [collection?, collections]
  by_cases hplace : place = held
  · rw [hplace, prim_modifyPrim_self hroot hprim]
    exact Prim.find?_putCollectionIn_of_ne (hother hplace) _
  · rw [prim_modifyPrim_of_ne hplace]

/-- **Defining a collection** leaves the collections at all other addresses. -/
theorem collectionAt?_defineCollection
    (hother : ∀ address, owner.collection collection.name = .ok address → reached ≠ address) :
    ((Edit.defineCollection owner collection).run stage).collectionAt? reached =
      stage.collectionAt? reached := by
  rcases run_defineCollection stage owner collection with hrun | ⟨⟨address, haddress⟩, hprim, hrun⟩
  · rw [hrun]
  · obtain ⟨hplain, hroot, hheld, property, hproperty, htext⟩ :=
      ScenePath.fields_of_appendProperty haddress
    rw [hrun, collectionAt?, collectionAt?]
    cases htarget : reached.asCollection? with
    | none => rfl
    | some target =>
        rw [hplain] at hprim ⊢
        refine collection?_putCollection hroot hprim fun hplace hname => ?_
        obtain ⟨hreached, property', hproperty', htext'⟩ :=
          ScenePath.property_of_asCollection? htarget
        have hsame : property' = property := by
          rw [← PropertyName.text_inj, htext, htext', hname]
        refine hother address haddress (ScenePath.ext ?_ ?_)
        · rw [hreached, hheld, hplace]
        · rw [hproperty, hproperty', hsame]

/-! ## Defining and removing prims -/

/-- A prim that is defined holds nothing that was not there. -/
theorem prim_definePrim (made : ScenePath) (place : PrimPath) :
    ((Edit.definePrim made).run stage).prim place = stage.prim place := by
  rw [Edit.run, definePrim]
  split
  · rfl
  · rw [prim_eq_prim?, prim_eq_prim?]
    change ((stage.tree.define made.prim).prim? place).getD {} = _
    rw [Siblings.prim?_define]
    split <;> rfl

/-- There are the prims that there were and, after a call that is not refused, those on the way to
the one that was defined. -/
theorem hasPrim_definePrim (made path : ScenePath) :
    ((Edit.definePrim made).run stage).hasPrim path =
      (stage.hasPrim path ||
        (!made.isProperty && !path.isProperty && decide (path.prim ∈ made.prim.ancestors))) := by
  rw [Edit.run, definePrim]
  split_ifs with hproperty
  · simp [afterwards, hproperty]
  · rw [hasPrim_eq_isSome_prim?, hasPrim_eq_isSome_prim?]
    change (!path.isProperty && ((stage.tree.define made.prim).prim? path.prim).isSome) = _
    rw [Siblings.prim?_define]
    split_ifs with hmem
    · simp only [hproperty, hmem, Option.isSome_some, decide_true]
      cases path.isProperty <;> simp
    · simp [hmem]

/-- Defining a prim leaves the collections. -/
theorem collectionAt?_definePrim (made address : ScenePath) :
    ((Edit.definePrim made).run stage).collectionAt? address = stage.collectionAt? address := by
  rw [collectionAt?, collectionAt?]
  cases address.asCollection? with
  | none => rfl
  | some target => simp only [collection?, collections, prim_definePrim]

/-- Removing a prim takes out what is at or below it, and nothing else. -/
theorem prim?_removePrim (cut : ScenePath) (place : PrimPath) :
    ((Edit.removePrim cut).run stage).tree.prim? place =
      if stage.hasPrim cut = true ∧ cut.prim ∈ place.ancestors then none
      else stage.tree.prim? place := by
  obtain ⟨prim, property, hbare⟩ := cut
  cases prim with
  | root =>
      have hnot : PrimPath.root ∉ place.ancestors := PrimPath.root_not_mem_ancestors
      rw [if_neg fun hboth => hnot hboth.2]
      rfl
  | child above name =>
      rw [Edit.run, removePrim]
      simp only
      by_cases hthere : stage.hasPrim ⟨.child above name, property, hbare⟩ = true
      · simp only [hthere, true_and, if_true]
        exact Siblings.prim?_erase above name stage.tree
      · rw [if_neg hthere, if_neg fun hboth => hthere hboth.1]

/-- A place that is not at or below the removed prim holds what it held. -/
theorem prim_removePrim_of_not_mem {cut : ScenePath} {place : PrimPath}
    (hapart : cut.prim ∉ place.ancestors) :
    ((Edit.removePrim cut).run stage).prim place = stage.prim place := by
  rw [prim_eq_prim?, prim_eq_prim?, prim?_removePrim, if_neg fun hboth => hapart hboth.2]

/-- There are the prims that there were, except those at or below the removed one. -/
theorem hasPrim_removePrim (cut path : ScenePath) :
    ((Edit.removePrim cut).run stage).hasPrim path =
      (stage.hasPrim path &&
        !decide (stage.hasPrim cut = true ∧ cut.prim ∈ path.prim.ancestors)) := by
  rw [hasPrim_eq_isSome_prim?, hasPrim_eq_isSome_prim? path, prim?_removePrim]
  split_ifs with hbelow
  · simp [hbelow]
  · rw [decide_eq_false hbelow, Bool.not_false, Bool.and_true]

/-- Removing a prim takes the collections out that are addressed at or below it, and no others. -/
theorem collectionAt?_removePrim (cut address : ScenePath) :
    ((Edit.removePrim cut).run stage).collectionAt? address =
      if stage.hasPrim cut = true ∧ cut.prim ∈ address.prim.ancestors then none
      else stage.collectionAt? address := by
  rw [collectionAt?, collectionAt?]
  cases htarget : address.asCollection? with
  | none => simp
  | some target =>
      obtain ⟨place, name⟩ := target
      rw [(ScenePath.property_of_asCollection? htarget).1]
      simp only [collection?, collections, prim_eq_prim?, prim?_removePrim]
      split <;> rfl

end Stage

end MaterialBinding
