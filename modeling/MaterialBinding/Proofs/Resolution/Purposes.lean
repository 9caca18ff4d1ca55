import MaterialBinding.Proofs.Resolution.Alike

/-!
# Purposes do not interfere

What is bound for `full` or `preview` is written under names that a search for another purpose does
not read, so binding and unbinding for one of the two leaves the stage alike for every other purpose
(`Edit.alikeFor_run`).  After any number of such calls, refused ones among them, every other search
finds what it found before (`resolve_foldl_run_of_ne`).

This does not hold of `allPurpose`: its bindings are the fallback of all searches.
-/

namespace MaterialBinding

/-- The purpose for which the call makes or takes out a binding. -/
def Edit.purpose? : Edit → Option Purpose
  | bind _ _ _ purpose => some purpose
  | bindCollection _ _ _ _ _ purpose => some purpose
  | unbindDirect _ purpose => some purpose
  | unbindCollection _ _ purpose => some purpose
  | _ => none

variable {purpose : Purpose} {name : String} {f : Relationship → Relationship}

/-! ## Changes under names that are not read -/

/-- Writing a relationship that is not read. -/
theorem Prim.alikeFor_putRelationship (hunread : purpose.reads name = false)
    (hf : ∀ relationship, (f relationship).name = relationship.name) (prim : Prim) :
    prim.AlikeFor purpose (prim.putRelationship name f) :=
  alikeFor_of_eq rfl (filter_putRelationshipIn purpose.reads hunread hf prim.relationships)

/-- Taking out a relationship that is not read. -/
theorem Prim.alikeFor_eraseRelationship (hunread : purpose.reads name = false) (prim : Prim) :
    prim.AlikeFor purpose (prim.eraseRelationship name) :=
  alikeFor_of_eq rfl (filter_eraseRelationship purpose.reads hunread prim)

namespace Stage

variable {stage : Stage}

/-- A stage is like itself for every purpose. -/
theorem alikeFor_refl : stage.AlikeFor purpose stage :=
  Siblings.Paired.refl (fun _ => .refl) stage.tree

/-- A change that is not read for the purpose makes no difference to it. -/
theorem alikeFor_modifyPrim {change : Prim → Prim}
    (hchange : ∀ prim, Prim.AlikeFor purpose prim (change prim)) (path : ScenePath) :
    stage.AlikeFor purpose (stage.modifyPrim path change) :=
  paired_modifyPrim (fun _ => .refl) path hchange

/-- Putting a relationship that is not read for the purpose makes no difference to it. -/
theorem alikeFor_putRelationship (hunread : purpose.reads name = false)
    (hf : ∀ relationship, (f relationship).name = relationship.name) (prim : ScenePath) :
    stage.AlikeFor purpose (stage.afterwards (stage.putRelationship prim name f)) := by
  unfold putRelationship
  cases prim.appendProperty name with
  | error cause => exact alikeFor_refl
  | ok property =>
      cases stage.requirePrim prim with
      | error error => exact alikeFor_refl
      | ok _ => exact alikeFor_modifyPrim (Prim.alikeFor_putRelationship hunread hf) prim

/-- Removing a relationship that is not read for the purpose makes no difference to it. -/
theorem alikeFor_removeRelationship (hunread : purpose.reads name = false) (prim : ScenePath) :
    stage.AlikeFor purpose (stage.removeRelationship prim name).2 := by
  unfold removeRelationship
  split
  · exact alikeFor_modifyPrim (Prim.alikeFor_eraseRelationship hunread) prim
  · exact alikeFor_refl

end Stage

/-! ## Calls for one purpose -/

namespace Edit

variable {stage : Stage} {own : Purpose}

/-- **One call for `full` or `preview`** is not seen by a search for another purpose. -/
theorem alikeFor_run (hown : own ≠ .allPurpose) (hne : purpose ≠ own) {edit : Edit}
    (hedit : edit.purpose? = some own) : stage.AlikeFor purpose (edit.run stage) := by
  have hdirect : purpose.reads own.directName = false := Purpose.reads_directName_of_ne hne
  have hcollection : ∀ name, purpose.reads (own.collectionName name) = false :=
    fun _ => Purpose.reads_collectionName_of_ne hown hne
  cases edit with
  | bind prim material strength other =>
      obtain rfl := Option.some.inj hedit
      exact Stage.alikeFor_putRelationship hdirect (keepsIdentity_bind _ strength).name_eq prim
  | bindCollection prim collection material bindingName strength other =>
      obtain rfl := Option.some.inj hedit
      rw [run, Stage.bindCollection]
      cases collection.asCollection? with
      | none => exact Stage.alikeFor_refl
      | some target =>
          simp only
          generalize (if bindingName = "" then target.2 else bindingName) = name
          split
          · exact Stage.alikeFor_refl
          · exact Stage.alikeFor_putRelationship (hcollection _)
              (keepsIdentity_bind _ strength).name_eq prim
  | unbindDirect prim other =>
      obtain rfl := Option.some.inj hedit
      exact Stage.alikeFor_removeRelationship hdirect prim
  | unbindCollection prim bindingName other =>
      obtain rfl := Option.some.inj hedit
      exact Stage.alikeFor_removeRelationship (hcollection bindingName) prim
  | _ => cases hedit

end Edit

namespace Stage

/-- **Purposes do not interfere.**  Any calls that bind or unbind for `full` alone, or for `preview`
alone, leave the result of every search for another purpose as it was. -/
theorem resolve_foldl_run_of_ne {own : Purpose} (hown : own ≠ .allPurpose) (hne : purpose ≠ own)
    {edits : List Edit} (hedits : ∀ edit ∈ edits, edit.purpose? = some own) (stage : Stage)
    (settings : Settings) (prim : ScenePath) (wanted : String) :
    (edits.foldl Edit.run stage).resolve settings prim purpose wanted =
      stage.resolve settings prim purpose wanted := by
  induction edits generalizing stage with
  | nil => rfl
  | cons edit edits ih =>
      obtain ⟨hedit, hrest⟩ := List.forall_mem_cons.mp hedits
      have hpurpose : stage.AlikeFor purpose (edit.run stage) := Edit.alikeFor_run hown hne hedit
      have hall : stage.AlikeFor .allPurpose (edit.run stage) :=
        Edit.alikeFor_run hown hown.symm hedit
      rw [List.foldl_cons, ih hrest, resolve_eq_of_alike hpurpose hall]

/-- Calls for `full` that bind a material to a desk and to a collection, and then find nothing to
take out. -/
def fullEdits (desk cup material collection : ScenePath) : List Edit :=
  [.bind desk material .stronger .full, .bindCollection desk collection material "" .stronger .full,
    .unbindDirect cup .full, .unbindCollection desk "preview:all" .full]

/-- They make the cup blue for `full`, and leave it red for `preview`. -/
theorem fullEdits_cup :
    let desk : PrimPath := .child .root ⟨"Desk", by decide⟩
    let cup : PrimPath := desk.child ⟨"Cup", by decide⟩
    let blue : PrimPath := .child (.child .root ⟨"Looks", by decide⟩) ⟨"Blue", by decide⟩
    let red : PrimPath := .child (.child .root ⟨"Looks", by decide⟩) ⟨"Red", by decide⟩
    let all : ScenePath := .ofProperty .root ⟨"Desk", by decide⟩ ⟨"collection:all", by decide⟩
    let edited : Stage := (fullEdits desk cup blue all).foldl Edit.run boundDesk
    boundDesk.resolve {} cup .full "" = .ok (some red) ∧
      edited.resolve {} cup .full "" = .ok (some blue) ∧
      edited.resolve {} cup .preview "" = .ok (some red) := by
  intro desk cup blue red all edited
  have hedits : ∀ edit ∈ fullEdits desk cup blue all, edit.purpose? = some .full := by
    simp [fullEdits, Edit.purpose?]
  have hpreview := resolve_foldl_run_of_ne (show Purpose.full ≠ .allPurpose by decide)
    (show Purpose.preview ≠ .full by decide) hedits boundDesk {} cup ""
  exact ⟨by decide, by decide, hpreview.trans (by decide)⟩

end Stage

end MaterialBinding
