import MaterialBinding.Proofs.Binding.Written
import MaterialBinding.Proofs.Resolution.Subtree

/-!
# What unbinding takes out

Unbinding takes out one relationship of one prim by its name, and says whether there was one
(`Stage.relationships_removeRelationship`).  It undoes binding: what was appended is taken out
again, and the stage is the one before, in every part (`Stage.unbinding_undoes_binding`).

A reader that does not recognise the name finds what it found before
(`NameReader.found_removeRelationship`).  A collection binding is taken out under the name that the
purpose makes of a binding name; as long as this has no colon, no reader but that of the purpose
recognises it.  With a colon it may be the name of a binding for another purpose.
`Stage.Reachable.keepsToPurpose_iff` says exactly when unbinding keeps to its own purpose.
-/

namespace MaterialBinding

namespace Prim

variable {prim : Prim} {name : String}

/-- Taking out a name that no relationship has changes nothing. -/
theorem eraseRelationship_eq_self
    (hnew : ∀ relationship ∈ prim.relationships, relationship.name ≠ name) :
    prim.eraseRelationship name = prim := by
  have hall : prim.relationships.filter (·.name ≠ name) = prim.relationships := by
    rw [List.filter_eq_self]
    exact fun relationship hmem => decide_eq_true (hnew relationship hmem)
  rw [eraseRelationship, hall]

/-- What was put under a name is taken out with whatever else has the name. -/
theorem eraseRelationship_putRelationship {f : Relationship → Relationship}
    (hname : ∀ relationship, (f relationship).name = relationship.name) :
    (prim.putRelationship name f).eraseRelationship name = prim.eraseRelationship name := by
  have hunseen : decide (name ≠ name) = false := by simp
  have hothers := filter_putRelationshipIn (decide <| · ≠ name) hunseen hname prim.relationships
  rw [eraseRelationship, eraseRelationship]
  exact congrArg (Prim.mk · prim.collections) hothers

end Prim

namespace Stage

variable {stage after : Stage} {prim : ScenePath} {name : String}

/-- The root has no relationships. -/
theorem ne_root_of_relationship? {relationship : Relationship}
    (hfound : stage.relationship? prim name = some relationship) : prim ≠ .root := by
  rintro rfl
  cases hfound

/-- No relationship of that name is on the prim. -/
theorem relationship?_eq_none_iff :
    stage.relationship? prim name = none ↔
      ∀ relationship ∈ stage.relationships prim, relationship.name ≠ name := by
  simp [relationship?, List.find?_eq_none]

/-- Removing a relationship that is not there is refused and changes nothing. -/
theorem removeRelationship_of_none (hnone : stage.relationship? prim name = none) :
    stage.removeRelationship prim name = (false, stage) := by
  rw [removeRelationship, hnone]
  rfl

/-- It is told whether there was such a relationship. -/
theorem fst_removeRelationship :
    (stage.removeRelationship prim name).1 = (stage.relationship? prim name).isSome := by
  rw [removeRelationship]
  cases stage.relationship? prim name <;> rfl

/-- **What is left after a relationship was taken out**, on its prim and elsewhere. -/
theorem relationships_removeRelationship (prim : ScenePath) (name : String) (path : ScenePath) :
    (stage.removeRelationship prim name).2.relationships path =
      if path = prim then (stage.relationships prim).filter (·.name ≠ name)
      else stage.relationships path := by
  cases hfound : stage.relationship? prim name with
  | none =>
      have hheld := Prim.eraseRelationship_eq_self (relationship?_eq_none_iff.mp hfound)
      have hall : (stage.relationships prim).filter (·.name ≠ name) = stage.relationships prim :=
        congrArg Prim.relationships hheld
      rw [removeRelationship_of_none hfound, hall]
      by_cases heq : path = prim
      · rw [if_pos heq, heq]
      · rw [if_neg heq]
  | some relationship =>
      rw [removeRelationship, hfound]
      exact relationships_modifyPrim (hasPrim_of_relationship? hfound)
        (ne_root_of_relationship? hfound) _ path

/-- A relationship is taken out once. -/
theorem removeRelationship_removeRelationship (stage : Stage) (prim : ScenePath) (name : String) :
    (stage.removeRelationship prim name).2.removeRelationship prim name =
      (false, (stage.removeRelationship prim name).2) := by
  have hgone : (stage.removeRelationship prim name).2.relationship? prim name = none := by
    rw [relationship?_eq_none_iff, relationships_removeRelationship, if_pos rfl]
    intro relationship hmem
    exact of_decide_eq_true (List.mem_filter.mp hmem).2
  exact removeRelationship_of_none hgone

/-! ## Taking out what was put -/

/-- A change that does nothing to what is on the prim does nothing to the stage. -/
theorem modifyPrim_eq_self {change : Prim → Prim} (hprim : stage.hasPrim prim = true)
    (hsame : change (stage.prim prim) = stage.prim prim) :
    stage.modifyPrim prim change = stage := by
  obtain ⟨place, rfl, hthere⟩ := hasPrim_iff.mp hprim
  cases place with
  | root => rfl
  | child above last =>
      obtain ⟨node, hnode⟩ := Option.isSome_iff_exists.mp hthere
      obtain ⟨parent, hparent, hfind⟩ := Option.bind_eq_some_iff.mp hnode
      have hheld : stage.prim (above.child last) = node.prim := by
        rw [Stage.prim, show stage.node? (above.child last) = some node from hnode]
      rw [hheld] at hsame
      have htree : stage.tree.editAt above (Siblings.modify last fun node =>
          { node with prim := change node.prim }) = stage.tree := by
        refine Siblings.editAt_eq_self hparent (Siblings.modify_eq_self hfind ?_)
        rw [hsame]
      change { stage with tree := stage.tree.editAt above _ } = stage
      rw [htree]

/-- **What is put under a new name is taken out again.** -/
theorem removeRelationship_of_put {f : Relationship → Relationship}
    (hput : stage.putRelationship prim name f = .ok after)
    (hname : ∀ relationship, (f relationship).name = relationship.name)
    (hnew : stage.relationship? prim name = none) :
    after.removeRelationship prim name = (true, stage) := by
  have hfound : (after.relationship? prim name).isSome = true := by
    rw [relationship?, relationships_of_putRelationship hput, Prim.find?_putRelationshipIn hname]
    rfl
  obtain ⟨⟨⟨hprim, _⟩, _⟩, rfl⟩ := putRelationship_eq_ok_iff.mp hput
  rw [removeRelationship, if_pos hfound, modifyPrim_modifyPrim]
  refine congrArg (Prod.mk true) (modifyPrim_eq_self hprim ?_)
  rw [Function.comp_apply, Prim.eraseRelationship_putRelationship hname]
  exact Prim.eraseRelationship_eq_self (relationship?_eq_none_iff.mp hnew)

/-- **Unbinding undoes binding**, on any stage.

* A direct binding of a prim that had none for the purpose is taken out by its purpose, and the
  stage is the one before it was made.
* A binding of a collection is taken out by its effective name, and the stage is the one before it
  was made, if no relationship of the prim had the name that is written for it.
* Unbinding once more takes out nothing and says so. -/
theorem unbinding_undoes_binding (stage : Stage) (prim material : ScenePath) (strength : Strength)
    (purpose : Purpose) :
    (∀ after, stage.bind prim material strength purpose = .ok after →
      stage.directRelationship? prim purpose = none →
        after.unbindDirect prim purpose = (true, stage)) ∧
    (∀ collection given after,
      stage.bindCollection prim collection material given strength purpose = .ok after →
      stage.relationship? prim (purpose.collectionName (collection.effectiveName given)) = none →
        after.unbindCollection prim (collection.effectiveName given) purpose = (true, stage)) ∧
    (stage.unbindDirect prim purpose).2.unbindDirect prim purpose =
      (false, (stage.unbindDirect prim purpose).2) ∧
    ∀ binding,
      (stage.unbindCollection prim binding purpose).2.unbindCollection prim binding purpose =
        (false, (stage.unbindCollection prim binding purpose).2) := by
  refine ⟨?_, ?_, ?_, ?_⟩
  · intro after hbind hnew
    exact removeRelationship_of_put hbind (keepsIdentity_bind [material] strength).name_eq hnew
  · intro collection given after hbind hnew
    obtain ⟨_, _, hput⟩ := bindCollection_eq_ok_iff.mp hbind
    exact removeRelationship_of_put hput
      (keepsIdentity_bind [collection, material] strength).name_eq hnew
  · exact removeRelationship_removeRelationship stage prim purpose.directName
  · intro binding
    exact removeRelationship_removeRelationship stage prim (purpose.collectionName binding)

/-- A bed whose quilts are made of linen for `full`. -/
def quiltHistory : List Edit :=
  let bed : PrimPath := .child .root ⟨"Bed", by decide⟩
  let linen : PrimPath := .child .root ⟨"Linen", by decide⟩
  let quilts : ScenePath := .ofProperty .root ⟨"Bed", by decide⟩ ⟨"collection:quilts", by decide⟩
  [.definePrim bed, .bindCollection bed quilts linen "quilt" .weaker .full]

/-- Two more bindings of the bed, of which one is called like the collection, can be undone. -/
theorem quiltHistory_undone :
    let bed : PrimPath := .child .root ⟨"Bed", by decide⟩
    let linen : PrimPath := .child .root ⟨"Linen", by decide⟩
    let quilts : ScenePath := .ofProperty .root ⟨"Bed", by decide⟩ ⟨"collection:quilts", by decide⟩
    let stage : Stage := quiltHistory.foldl Edit.run {}
    (∃ after, stage.bind bed linen .stronger .full = .ok after ∧
      after.unbindDirect bed .full = (true, stage)) ∧
    ∃ after, stage.bindCollection bed quilts linen "" .stronger .full = .ok after ∧
      after.unbindCollection bed "quilts" .full = (true, stage) := by
  intro bed linen quilts stage
  obtain ⟨hdirect, hcollection, _⟩ := unbinding_undoes_binding stage bed linen .stronger .full
  have hbind : stage.bind bed linen .stronger .full =
      .ok ((Edit.bind bed linen .stronger .full).run stage) := by decide
  have hbindCollection : stage.bindCollection bed quilts linen "" .stronger .full =
      .ok ((Edit.bindCollection bed quilts linen "" .stronger .full).run stage) := by decide
  exact ⟨⟨_, hbind, hdirect _ hbind (by decide)⟩,
    ⟨_, hbindCollection, hcollection quilts "" _ hbindCollection (by decide)⟩⟩

end Stage

/-! ## What others find -/

/-- **A reader that does not recognise the name** finds what it found before the relationship was
taken out. -/
theorem NameReader.found_removeRelationship {reader : NameReader} {name : String}
    (hunread : reader.recognises name = false) (stage : Stage) (prim path : ScenePath) :
    reader.found (stage.removeRelationship prim name).2 path = reader.found stage path := by
  refine reader.found_congr ?_
  rw [Stage.relationships_removeRelationship]
  split_ifs with heq
  · rw [heq]
    exact Prim.filter_eraseRelationship reader.recognises hunread (stage.prim prim)
  · rfl

namespace Stage

/-- Unbinding a collection under that name keeps to the purpose: it leaves the bindings of
collections for other purposes and all direct bindings, on every prim, and it says whether it took
out one of those that the prim has for the purpose. -/
structure KeepsToPurpose (stage : Stage) (prim : ScenePath) (binding : String) (purpose : Purpose) :
    Prop where
  others_eq : ∀ other, other ≠ purpose → ∀ path,
    (stage.unbindCollection prim binding purpose).2.collectionRelationships path other =
      stage.collectionRelationships path other
  direct_eq : ∀ other path,
    (stage.unbindCollection prim binding purpose).2.directBinding? path other =
      stage.directBinding? path other
  told_iff : (stage.unbindCollection prim binding purpose).1 = true ↔
    ∃ relationship ∈ stage.collectionRelationships prim purpose, relationship ∉
      (stage.unbindCollection prim binding purpose).2.collectionRelationships prim purpose

variable {stage : Stage} {prim : ScenePath} {binding : String} {purpose : Purpose}

/-- What is told is true if a binding for the purpose is gone. -/
theorem unbindCollection_fst_of_gone {relationship : Relationship}
    (hmem : relationship ∈ stage.collectionRelationships prim purpose)
    (hgone : relationship ∉
      (stage.unbindCollection prim binding purpose).2.collectionRelationships prim purpose) :
    (stage.unbindCollection prim binding purpose).1 = true := by
  cases hfound : stage.relationship? prim (purpose.collectionName binding) with
  | none =>
      rw [unbindCollection, removeRelationship_of_none hfound] at hgone
      exact absurd hmem hgone
  | some found =>
      rw [unbindCollection, fst_removeRelationship, hfound]
      rfl

/-- Without such a relationship there is nothing to take out. -/
theorem keepsToPurpose_of_none
    (hnone : stage.relationship? prim (purpose.collectionName binding) = none) :
    stage.KeepsToPurpose prim binding purpose where
  others_eq := fun other _ path => by rw [unbindCollection, removeRelationship_of_none hnone]
  direct_eq := fun other path => by rw [unbindCollection, removeRelationship_of_none hnone]
  told_iff := by
    refine ⟨fun htold => ?_, ?_⟩
    · rw [unbindCollection, removeRelationship_of_none hnone] at htold
      cases htold
    · rintro ⟨relationship, hmem, hgone⟩
      exact unbindCollection_fst_of_gone hmem hgone

/-- Under a name without a colon only what is bound for the purpose is taken out. -/
theorem keepsToPurpose_of_plain (hempty : binding ≠ "") (hplain : ':' ∉ binding.toList) :
    stage.KeepsToPurpose prim binding purpose := by
  have hown : (NameReader.collection purpose).recognises (purpose.collectionName binding) = true :=
    NameReader.recognises_collection_iff.mpr ⟨binding, rfl, hempty, hplain⟩
  have hunread : ∀ reader : NameReader, reader ≠ .collection purpose →
      reader.recognises (purpose.collectionName binding) = false := by
    intro reader hne
    rw [Bool.eq_false_iff]
    exact fun hreads => hne (NameReader.eq_of_recognises hreads hown)
  refine ⟨?_, ?_, ?_⟩
  · intro other hother path
    have hreader : NameReader.collection other ≠ .collection purpose :=
      fun heq => hother (NameReader.collection.inj heq)
    exact NameReader.found_removeRelationship (hunread _ hreader) stage prim path
  · intro other path
    have hfound := congrArg List.head? <| NameReader.found_removeRelationship
      (hunread (.direct other) nofun) stage prim path
    simp only [NameReader.found, Option.head?_toList] at hfound
    rw [directBinding?, directBinding?, unbindCollection, hfound]
  · refine ⟨fun htold => ?_, ?_⟩
    · rw [unbindCollection, fst_removeRelationship] at htold
      obtain ⟨relationship, hfound⟩ := Option.isSome_iff_exists.mp htold
      obtain ⟨hheld, hname⟩ := mem_of_relationship? hfound
      refine ⟨relationship, ?_, fun hleft => ?_⟩
      · refine List.mem_filter.mpr ⟨hheld, ?_⟩
        rw [hname]
        exact hown
      · have hmem := (List.mem_filter.mp hleft).1
        rw [unbindCollection, relationships_removeRelationship, if_pos rfl] at hmem
        exact of_decide_eq_true (List.mem_filter.mp hmem).2 hname
    · rintro ⟨relationship, hmem, hgone⟩
      exact unbindCollection_fst_of_gone hmem hgone

/-- What is found under a name with a colon is no binding for the purpose, but it is taken out. -/
theorem not_keepsToPurpose_of_colon {relationship : Relationship} (hcolon : ':' ∈ binding.toList)
    (hfound : stage.relationship? prim (purpose.collectionName binding) = some relationship) :
    ¬ stage.KeepsToPurpose prim binding purpose := by
  intro hkeeps
  have hunread : (NameReader.collection purpose).recognises (purpose.collectionName binding) =
      false := by
    rw [Bool.eq_false_iff]
    intro hreads
    obtain ⟨other, hname, _, hplain⟩ := NameReader.recognises_collection_iff.mp hreads
    rw [Purpose.collectionName_inj.mp hname] at hcolon
    exact hplain hcolon
  have htold : (stage.unbindCollection prim binding purpose).1 = true := by
    rw [unbindCollection, fst_removeRelationship, hfound]
    rfl
  obtain ⟨other, hmem, hgone⟩ := hkeeps.told_iff.mp htold
  have hsame :
      (stage.unbindCollection prim binding purpose).2.collectionRelationships prim purpose =
        stage.collectionRelationships prim purpose :=
    NameReader.found_removeRelationship hunread stage prim prim
  rw [hsame] at hgone
  exact hgone hmem

/-- **Unbinding a collection keeps to its purpose** under a name without a colon.  Under one with a
colon it does so only if there is nothing to take out: a relationship that has this name is for
another purpose or for none, and goes all the same. -/
theorem Reachable.keepsToPurpose_iff (hreach : stage.Reachable) (prim : ScenePath)
    (binding : String) (purpose : Purpose) :
    stage.KeepsToPurpose prim binding purpose ↔
      (':' ∈ binding.toList →
        stage.relationship? prim (purpose.collectionName binding) = none) := by
  cases hfound : stage.relationship? prim (purpose.collectionName binding) with
  | none => exact iff_of_true (keepsToPurpose_of_none hfound) fun _ => rfl
  | some relationship =>
      refine ⟨fun hkeeps hcolon => ?_, fun hnone => ?_⟩
      · exact absurd hkeeps (not_keepsToPurpose_of_colon hcolon hfound)
      · refine keepsToPurpose_of_plain ?_ fun hcolon => nomatch hnone hcolon
        -- no relationship of a reachable stage is bound under the empty name
        rintro rfl
        obtain ⟨hmem, hname⟩ := mem_of_relationship? hfound
        have hproperty := (wellFormed_prim hreach.wellFormed).property_names relationship hmem
        rw [hname, isPropertyName_collectionName] at hproperty
        exact absurd hproperty (by decide)

/-- The quilts lose their binding for `full` under its own name, and nothing else is lost. -/
theorem quiltHistory_keepsToPurpose :
    let bed : PrimPath := .child .root ⟨"Bed", by decide⟩
    let stage : Stage := quiltHistory.foldl Edit.run {}
    stage.KeepsToPurpose bed "quilt" .full ∧
      (stage.unbindCollection bed "quilt" .full).1 = true := by
  intro bed stage
  have hreach : stage.Reachable := Reachable.new.foldl quiltHistory
  exact ⟨(hreach.keepsToPurpose_iff bed "quilt" .full).mpr (by decide), by decide⟩

/-- **Unbinding need not keep to its purpose.**  The binding for `full` goes when `full:quilt` is
unbound for every purpose. -/
theorem exists_taken_from_another_purpose : ¬ ∀ stage, Reachable stage →
    ∀ prim binding purpose, stage.KeepsToPurpose prim binding purpose := by
  intro hall
  let bed : PrimPath := .child .root ⟨"Bed", by decide⟩
  have hkeeps := hall _ (Reachable.new.foldl quiltHistory) bed "full:quilt" .allPurpose
  exact absurd (hkeeps.others_eq .full (by decide) bed) (by decide)

end Stage

end MaterialBinding
