import MaterialBinding.Proofs.Path.Ancestors
import MaterialBinding.Proofs.Resolution.Subtree
import MaterialBinding.Proofs.Stage.History

/-!
# What an unbound prim inherits

A prim is unbound for a purpose if it authors no binding for it and no collection binding that is
offered to it holds it (`Stage.Unbound`).  The walk of a pass brings nothing then but the weak empty
event of the missing direct binding, and goes on as from the parent: a prim without collection
bindings offers what its parent offers.

One prim is one step (`Unbound.pass_eq`), and a stretch of unbound prims is as many
(`pass_eq_of_unbound_stretch`), wherever it ends, at the root as well.
-/

namespace MaterialBinding

namespace Stage

/-- Nothing binds the prim for the purpose: it authors no direct binding and no collection binding,
and it is no member of the collections whose bindings are offered to it and pass the filter. -/
structure Unbound (stage : Stage) (purpose : Purpose) (wanted : String) (path : PrimPath) :
    Prop where
  no_direct : stage.directRelationship? path purpose = none
  no_collection : stage.collectionRelationships path purpose = []
  no_member : ∀ binding ∈ stage.nearestCollectionBindings path purpose,
    wanted = "" ∨ binding.collectionName = wanted → binding.isMember stage path = false

variable {stage : Stage} {purpose : Purpose} {wanted : String} {above path : PrimPath}
  {name : PrimName}

/-- On an unbound prim no direct binding is met. -/
theorem Unbound.metDirectly_eq (h : stage.Unbound purpose wanted path) :
    stage.metDirectly purpose path = ⟨false, none⟩ := by
  have hnone : stage.relationship? path purpose.directName = none := h.no_direct
  rw [metDirectly, hnone]

/-- On an unbound prim nothing is met through collections. -/
theorem Unbound.metThroughCollections_eq (h : stage.Unbound purpose wanted path) :
    stage.metThroughCollections purpose wanted path = [] := by
  rw [metThroughCollections, ← nearestCollectionBindings_eq_offeredBindings, List.map_eq_nil_iff,
    List.filter_eq_nil_iff]
  intro binding hmem
  rw [decide_eq_true_eq]
  rintro ⟨hpasses, hmember⟩
  rw [← CollectionBinding.isMember_iff, h.no_member binding hmem hpasses] at hmember
  cases hmember

/-- From an unbound prim the walk goes on as from its parent, after one empty event. -/
theorem Unbound.walk_eq (h : stage.Unbound purpose wanted (above.child name)) :
    stage.walk purpose wanted (above.child name) =
      ⟨false, none⟩ :: stage.walk purpose wanted above := by
  rw [walk, h.metDirectly_eq, h.metThroughCollections_eq, List.nil_append]

/-- **One step up.**  A pass finds from an unbound prim what it finds from its parent. -/
theorem Unbound.pass_eq (h : stage.Unbound purpose wanted (above.child name)) :
    stage.pass purpose wanted (above.child name) = stage.pass purpose wanted above := by
  rw [pass, pass, passEvents_eq_walk, passEvents_eq_walk, h.walk_eq]
  rfl

variable {stretch : List PrimPath}

/-- **A stretch of unbound prims** is passed over: `stretch` is the prims from `path` up to, and
without, `above`. -/
theorem pass_eq_of_unbound_stretch (hstretch : path.ancestors = stretch ++ above.ancestors)
    (hunbound : ∀ prim ∈ stretch, stage.Unbound purpose wanted prim) :
    stage.pass purpose wanted path = stage.pass purpose wanted above := by
  induction stretch generalizing path with
  | nil => rw [PrimPath.ancestors_inj hstretch]
  | cons first rest ih =>
      obtain ⟨hfirst, hrest⟩ := List.forall_mem_cons.mp hunbound
      cases path with
      | root => cases hstretch
      | child parent name =>
          obtain ⟨rfl, hparent⟩ := List.cons.inj hstretch
          rw [hfirst.pass_eq, ih hparent hrest]

/-- Above a prim there are prims. -/
theorem hasPrim_of_mem_ancestors (habove : above ∈ path.ancestors)
    (hprim : stage.hasPrim path = true) : stage.hasPrim above = true := by
  induction path with
  | root => cases habove
  | child parent name ih =>
      rcases List.mem_cons.mp habove with rfl | habove
      · exact hprim
      · obtain ⟨node, hnode⟩ := Option.isSome_iff_exists.mp hprim
        obtain ⟨parentNode, hparent, _⟩ := Option.bind_eq_some_iff.mp hnode
        exact ih habove (Option.isSome_iff_exists.mpr ⟨parentNode, hparent⟩)

/-- So a search from the lower end of a stretch finds what one from its upper end finds. -/
theorem resolve_eq_of_unbound_stretch (hstretch : path.ancestors = stretch ++ above.ancestors)
    (hprim : stage.hasPrim path = true)
    (hunbound : ∀ q, q = purpose ∨ q = .allPurpose → ∀ prim ∈ stretch,
      stage.Unbound q wanted prim) (settings : Settings) :
    stage.resolve settings path purpose wanted = stage.resolve settings above purpose wanted := by
  have habove : stage.hasPrim above = true := by
    cases above with
    | root => rfl
    | child parent name =>
        refine hasPrim_of_mem_ancestors ?_ hprim
        rw [hstretch]
        exact List.mem_append_right _ (List.mem_cons_self ..)
  refine resolve_eq_of_found hprim habove ?_
  have hpass : ∀ q, q = purpose ∨ q = .allPurpose →
      stage.pass q wanted path = stage.pass q wanted above :=
    fun q hq => pass_eq_of_unbound_stretch hstretch (hunbound q hq)
  change (stage.pass purpose wanted path).or (stage.pass .allPurpose wanted path) = _
  rw [hpass purpose (Or.inl rfl), hpass .allPurpose (Or.inr rfl)]
  rfl

/-- **An unbound prim inherits.**  If nothing binds it, neither for the purpose nor for every
purpose, a search finds for it what it finds for its parent, be that a prim or the root; and if the
purpose is allowed, the search does not fail. -/
theorem resolve_eq_parent_of_unbound {prim parent : ScenePath} (hprim : stage.hasPrim prim = true)
    (hparent : prim.parent = some parent) (hown : stage.Unbound purpose wanted prim.prim)
    (hall : stage.Unbound .allPurpose wanted prim.prim) (settings : Settings) :
    stage.resolve settings prim purpose wanted = stage.resolve settings parent purpose wanted ∧
      (settings.allows purpose = true →
        ∃ found, stage.resolve settings prim purpose wanted = .ok found) := by
  constructor
  · obtain ⟨path, property, hbare⟩ := prim
    cases property with
    | some property => cases hprim
    | none =>
        cases path with
        | root => cases hparent
        | child above name =>
            obtain rfl := Option.some.inj hparent
            have hstretch : (above.child name).ancestors = [above.child name] ++ above.ancestors :=
              rfl
            refine resolve_eq_of_unbound_stretch hstretch hprim ?_ settings
            rintro q (rfl | rfl) other hother
            · exact List.mem_singleton.mp hother ▸ hown
            · exact List.mem_singleton.mp hother ▸ hall
  · intro hallowed
    rw [resolve_eq_or_passes, hprim, hallowed]
    exact ⟨_, rfl⟩

/-- A hall with a chair and a lamp, bound to wax.  It binds brass to a collection of the lamp. -/
def hallHistory : List Edit :=
  let hall : PrimPath := .child .root ⟨"Hall", by decide⟩
  let finishes : PrimPath := .child .root ⟨"Finishes", by decide⟩
  [.definePrim (hall.child ⟨"Chair", by decide⟩), .definePrim (hall.child ⟨"Torch", by decide⟩),
    .definePrim (finishes.child ⟨"Wax", by decide⟩),
    .definePrim (finishes.child ⟨"Brass", by decide⟩),
    .bind hall (finishes.child ⟨"Wax", by decide⟩) .weaker .allPurpose,
    .defineCollection hall { name := "lights", includes := [hall.child ⟨"Torch", by decide⟩] },
    .bindCollection hall (.ofProperty .root ⟨"Hall", by decide⟩ ⟨"collection:lights", by decide⟩)
      (finishes.child ⟨"Brass", by decide⟩) "" .stronger .allPurpose]

/-- The chair has the wax of the hall, and the finishes have nothing, as the root. -/
theorem chair_is_waxed :
    let stage : Stage := hallHistory.foldl Edit.run {}
    let hall : PrimPath := .child .root ⟨"Hall", by decide⟩
    let chair : PrimPath := hall.child ⟨"Chair", by decide⟩
    let finishes : PrimPath := .child .root ⟨"Finishes", by decide⟩
    let wax : PrimPath := finishes.child ⟨"Wax", by decide⟩
    stage.nearestCollectionBindings chair .allPurpose ≠ [] ∧
      stage.resolve {} chair .full "" = .ok (some wax) ∧
      stage.resolve {} finishes .full "" = .ok none := by
  intro stage hall chair finishes wax
  have hchair : ∀ q, stage.Unbound q "" chair := by
    intro q
    cases q <;> exact ⟨by decide, by decide, by decide⟩
  have hfinishes : ∀ q, stage.Unbound q "" finishes := by
    intro q
    cases q <;> exact ⟨by decide, by decide, by decide⟩
  refine ⟨by decide, ?_, ?_⟩
  · exact (resolve_eq_parent_of_unbound (by decide) rfl (hchair .full) (hchair .allPurpose)
      {}).1.trans rfl
  · exact (resolve_eq_parent_of_unbound (by decide) rfl (hfinishes .full) (hfinishes .allPurpose)
      {}).1.trans rfl

end Stage

end MaterialBinding
