import MaterialBinding.Proofs.Resolution.Alike
import MaterialBinding.Proofs.Stage.Saved

/-!
# A reopened stage answers as before

Saving a stage and reading it again may rearrange the metadata of its relationships
(`Stage.rebuilt`), and nothing else.  No search looks at that order, so the stage that was read is
alike to the saved one for every purpose (`alikeFor_rebuilt`).  It gives the same materials for all
prims, the same members for all collections, and the same errors.
-/

namespace MaterialBinding

variable {purpose : Purpose}

/-- Arranging a prim makes no difference to a search. -/
theorem Prim.alikeFor_arranged {prim : Prim} (hwell : prim.WellFormed) :
    prim.AlikeFor purpose prim.arranged where
  collections_eq := rfl
  relationships := by
    have hread : prim.arranged.readFor purpose =
        (prim.readFor purpose).map Relationship.arranged := by
      rw [readFor, readFor, arranged, List.filter_map]
      rfl
    rw [hread, List.forall₂_map_right_iff, List.forall₂_same]
    intro relationship hmem
    have hkeys := hwell.metadata_keys relationship (List.mem_filter.mp hmem).1
    exact Relationship.sameButOrder_arranged hkeys

/-- A tree is paired with the arranged one, prim by prim alike. -/
theorem Siblings.paired_arranged {above : PrimPath} {tree : Siblings} (hwell : tree.WellFormed) :
    Paired (fun _ => Prim.AlikeFor purpose) above tree tree.arranged := by
  induction tree generalizing above with
  | nil => exact .nil
  | cons name prim children rest ihchildren ihrest =>
      obtain ⟨_, hprim, hchildren, hrest⟩ := hwell
      exact .cons (Prim.alikeFor_arranged hprim) (ihchildren hchildren) (ihrest hrest)

namespace Stage

variable {stage reopened : Stage}

/-- No search tells the rebuilt stage from the saved one. -/
theorem alikeFor_rebuilt (hwell : stage.tree.WellFormed) :
    stage.AlikeFor purpose stage.rebuilt :=
  Siblings.paired_arranged hwell

/-- A stage is reopened as the one that is built from its description, if at all. -/
theorem eq_rebuilt_of_reopened (hwell : stage.tree.WellFormed)
    (hopen : ofJson stage.toJson = .ok reopened) : reopened = stage.rebuilt := by
  rw [ofJson_toJson hwell] at hopen
  split at hopen
  · exact (Except.ok.inj hopen).symm
  · cases hopen

/-- **Saving and reading changes no answer.**  The reopened stage gives every prim the material that
the saved one gave it, has the same collections at the same addresses, and flattens each collection
to the same rules; and where one of the two refuses, the other does with the same error. -/
theorem Reachable.reopened_answers (hreach : Reachable stage)
    (hopen : ofJson stage.toJson = .ok reopened) :
    (∀ settings path token wanted,
      reopened.resolveToken settings path token wanted =
        stage.resolveToken settings path token wanted) ∧
      (∀ address, reopened.collectionAt? address = stage.collectionAt? address) ∧
      ∀ owner collection,
        MemberRules.compute reopened owner collection =
          MemberRules.compute stage owner collection := by
  have hwell := hreach.wellFormed
  obtain rfl := eq_rebuilt_of_reopened hwell hopen
  have halike : ∀ purpose, stage.AlikeFor purpose stage.rebuilt := fun _ => alikeFor_rebuilt hwell
  refine ⟨?_, (halike .allPurpose).collectionAt?_eq, (halike .allPurpose).compute_eq⟩
  intro settings path token wanted
  rw [resolveToken, resolveToken, hasPrim_rebuilt]
  cases Purpose.ofToken? token with
  | none => rfl
  | some purpose => simp only [resolve_eq_of_alike (halike purpose) (halike .allPurpose)]

/-- A kiln with a pot in it.  Its binding is strong, and was signed after it was made. -/
def signedHistory : List Edit :=
  let kiln : PrimPath := .child .root ⟨"Kiln", by decide⟩
  let slip : PrimPath := .child .root ⟨"Slip", by decide⟩
  let fired : ScenePath := .ofProperty .root ⟨"Kiln", by decide⟩ ⟨"collection:fired", by decide⟩
  [.definePrim (kiln.child ⟨"Pot", by decide⟩), .definePrim slip,
    .defineCollection kiln { name := "fired", includes := [kiln] },
    .bindCollection kiln fired slip "" .stronger .allPurpose,
    .setMetadata kiln "material:binding:collection:fired" "author" "nobody"]

/-- The reopened kiln has its signature before its strength, and its pot has the same material. -/
theorem signed_pot_reopened :
    let pot : PrimPath := .child (.child .root ⟨"Kiln", by decide⟩) ⟨"Pot", by decide⟩
    let slip : PrimPath := .child .root ⟨"Slip", by decide⟩
    ∃ reopened, ofJson (signedHistory.foldl Edit.run {}).toJson = .ok reopened ∧
      reopened ≠ signedHistory.foldl Edit.run {} ∧
      reopened.resolveToken {} pot "full" "fired" = .ok (some slip) := by
  intro pot slip
  have hreach : Reachable (signedHistory.foldl Edit.run {}) := Reachable.new.foldl signedHistory
  have hopen : ofJson (signedHistory.foldl Edit.run {}).toJson =
      .ok (signedHistory.foldl Edit.run {}).rebuilt := by
    rw [ofJson_toJson hreach.wellFormed, if_pos (by decide)]
  obtain ⟨hresolve, _, _⟩ := hreach.reopened_answers hopen
  refine ⟨_, hopen, by decide, ?_⟩
  rw [hresolve]
  decide

end Stage

end MaterialBinding
