import MaterialBinding.Proofs.Binding.Reader
import MaterialBinding.Proofs.Collection.Flattening
import MaterialBinding.Proofs.Description.Rebuild
import MaterialBinding.Proofs.Resolution.TieBreak
import MaterialBinding.Proofs.Stage.Paired

/-!
# What a search looks at

A search for a purpose reads of each prim the relationships with names of its own
(`Purpose.reads`) and the collections.  Of a relationship it reads the name, the targets and the
strength, so the order of metadata is not seen.  Prims are alike for a purpose if they have the
same of all that, and stages if their prims are, place by place.

Searches on stages that are alike find the same (`Stage.AlikeFor.pass_eq`,
`Stage.resolve_eq_of_alike`), and collections have the same members (`Stage.AlikeFor.compute_eq`).
-/

namespace MaterialBinding

/-- Items that are related one by one and taken to the same results give the same list. -/
theorem filterMap_eq_of_forall₂ {α β : Type} {related : α → α → Prop} {f g : α → Option β}
    {ones others : List α} (h : List.Forall₂ related ones others)
    (hsame : ∀ one other, related one other → g other = f one) :
    others.filterMap g = ones.filterMap f := by
  induction h with
  | nil => rfl
  | cons hfirst _ ih => rw [List.filterMap_cons, List.filterMap_cons, hsame _ _ hfirst, ih]

namespace Relationship.SameButOrder

variable {one other : Relationship}

/-- A relationship is the same as itself. -/
theorem refl (relationship : Relationship) : relationship.SameButOrder relationship where
  name_eq := rfl
  targets_eq := rfl
  perm := List.Perm.refl _
  get?_eq := fun _ => rfl

/-- The order of the metadata makes no difference to the strength. -/
theorem overrides_eq (h : one.SameButOrder other) : other.overrides = one.overrides := by
  rw [overrides, overrides, h.get?_eq]

/-- The first relationship of a name is the same but for the order of its metadata. -/
theorem find? {ones others : List Relationship} (h : List.Forall₂ SameButOrder ones others)
    (name : String) :
    Option.Rel SameButOrder (ones.find? (·.name = name)) (others.find? (·.name = name)) := by
  induction h with
  | nil => exact .none
  | @cons one other ones others hsame _ ih =>
      rw [List.find?_cons, List.find?_cons, hsame.name_eq]
      cases decide (one.name = name) with
      | true => exact .some hsame
      | false => exact ih

/-- Both are collection bindings of the same collection, or none is a collection binding. -/
theorem ofRelationship?_eq (h : one.SameButOrder other) (purpose : Purpose) :
    CollectionBinding.ofRelationship? purpose other =
      (CollectionBinding.ofRelationship? purpose one).map fun binding =>
        { binding with relationship := other } := by
  unfold CollectionBinding.ofRelationship?
  rw [h.name_eq, h.targets_eq]
  split
  · split <;> rfl
  · rfl

end Relationship.SameButOrder

/-! ## Bindings of one relationship each -/

namespace Stage

/-- The relationships named as collection bindings on the nearest prim at or above the path that
has any. -/
def offeredRelationships (stage : Stage) (purpose : Purpose) : PrimPath → List Relationship
  | .root => []
  | .child above name =>
    if stage.collectionRelationships (above.child name) purpose = [] then
      stage.offeredRelationships purpose above
    else stage.collectionRelationships (above.child name) purpose

/-- What one relationship that is named as a collection binding brings to the walk at a prim. -/
def collectionEvent? (stage : Stage) (purpose : Purpose) (wanted : String) (path : PrimPath)
    (relationship : Relationship) : Option BindingEvent :=
  (CollectionBinding.ofRelationship? purpose relationship).bind fun binding =>
    if (wanted = "" ∨ binding.collectionName = wanted) ∧ binding.HasMember stage path then
      some ⟨relationship.overrides, stage.material? binding.materialPath⟩
    else none

variable {stage other : Stage} {purpose : Purpose} {wanted : String} {path : PrimPath}

/-- The bindings that are offered are those that can be read from the offered relationships. -/
theorem offeredBindings_eq_filterMap :
    stage.offeredBindings purpose path =
      (stage.offeredRelationships purpose path).filterMap
        (CollectionBinding.ofRelationship? purpose) := by
  induction path with
  | root => rfl
  | child above name ih =>
      rw [offeredBindings, offeredRelationships]
      split
      · exact ih
      · rfl

/-- A binding holds the relationship that it was read from. -/
theorem relationship_of_ofRelationship? {relationship : Relationship} {binding : CollectionBinding}
    (hbinding : CollectionBinding.ofRelationship? purpose relationship = some binding) :
    binding.relationship = relationship :=
  (CollectionBinding.ofRelationship?_eq_some_iff.mp hbinding).1.1

/-- What collections bring to the walk, relationship by relationship. -/
theorem metThroughCollections_eq_filterMap :
    stage.metThroughCollections purpose wanted path =
      (stage.offeredRelationships purpose path).filterMap
        (stage.collectionEvent? purpose wanted path) := by
  rw [metThroughCollections, offeredBindings_eq_filterMap]
  induction stage.offeredRelationships purpose path with
  | nil => rfl
  | cons relationship rest ih =>
      rw [List.filterMap_cons, List.filterMap_cons, collectionEvent?]
      cases hbinding : CollectionBinding.ofRelationship? purpose relationship with
      | none => exact ih
      | some binding =>
          rw [List.filter_cons, Option.bind_some]
          by_cases hmet : (wanted = "" ∨ binding.collectionName = wanted) ∧
              binding.HasMember stage path
          · rw [if_pos (decide_eq_true hmet), if_pos hmet, List.map_cons, ih,
              relationship_of_ofRelationship? hbinding]
          · rw [if_neg hmet, if_neg (mt of_decide_eq_true hmet), ih]

end Stage

/-! ## Being alike -/

/-- The relationships of the prim that a search for the purpose reads. -/
def Prim.readFor (prim : Prim) (purpose : Purpose) : List Relationship :=
  prim.relationships.filter fun relationship => purpose.reads relationship.name

/-- A search for the purpose sees no difference between the prims. -/
structure Prim.AlikeFor (purpose : Purpose) (prim other : Prim) : Prop where
  collections_eq : other.collections = prim.collections
  relationships : List.Forall₂ Relationship.SameButOrder (prim.readFor purpose)
    (other.readFor purpose)

/-- A prim that has the same collections and is read the same is alike. -/
theorem Prim.alikeFor_of_eq {purpose : Purpose} {prim other : Prim}
    (hcollections : other.collections = prim.collections)
    (hread : other.readFor purpose = prim.readFor purpose) : prim.AlikeFor purpose other where
  collections_eq := hcollections
  relationships := by
    rw [hread]
    exact List.forall₂_same.mpr fun relationship _ => .refl relationship

/-- A prim is like itself. -/
theorem Prim.AlikeFor.refl {purpose : Purpose} (prim : Prim) : prim.AlikeFor purpose prim :=
  alikeFor_of_eq rfl rfl

/-- A search for the purpose sees no difference between the stages. -/
def Stage.AlikeFor (purpose : Purpose) (stage other : Stage) : Prop :=
  stage.Paired (fun _ => Prim.AlikeFor purpose) other

namespace Stage

variable {stage other : Stage} {purpose : Purpose} {wanted : String} {path : ScenePath}

/-- The direct binding is looked up among the relationships that are read for the purpose. -/
theorem relationship?_eq_find? :
    stage.relationship? path purpose.directName =
      ((stage.prim path).readFor purpose).find? (·.name = purpose.directName) := by
  rw [relationship?, relationships, Prim.readFor, List.find?_filter]
  congr 1
  funext relationship
  by_cases hname : relationship.name = purpose.directName
  · simp [hname, Purpose.reads]
  · simp [hname]

/-- The collection bindings are found among the relationships that are read for the purpose. -/
theorem collectionRelationships_eq_filter :
    stage.collectionRelationships path purpose =
      ((stage.prim path).readFor purpose).filter fun relationship =>
        (purpose.bindingName? relationship.name).isSome := by
  rw [collectionRelationships, relationships, Prim.readFor, List.filter_filter]
  congr 1
  funext relationship
  cases hname : (purpose.bindingName? relationship.name).isSome with
  | false => rfl
  | true => simp [Purpose.reads, hname]

namespace AlikeFor

variable (h : stage.AlikeFor purpose other)

include h

/-- Each prim has its like on the other stage. -/
theorem prim (path : ScenePath) : (stage.prim path).AlikeFor purpose (other.prim path) :=
  Stage.Paired.prim (fun _ => .refl {}) h path

/-- Stages that are alike have the same prims. -/
theorem hasPrim_eq (path : ScenePath) : other.hasPrim path = stage.hasPrim path :=
  Stage.Paired.hasPrim_eq (fun _ => .refl {}) h path

/-- Stages that are alike find a material at the same paths. -/
theorem material?_eq (path : ScenePath) : other.material? path = stage.material? path := by
  rw [material?, material?, h.hasPrim_eq]

/-- Stages that are alike have the same collections. -/
theorem collection?_eq (path : ScenePath) (name : String) :
    other.collection? path name = stage.collection? path name := by
  rw [collection?, collection?, collections, collections, (h.prim path).collections_eq]

/-- Stages that are alike have the same collections at the same addresses. -/
theorem collectionAt?_eq (address : ScenePath) :
    other.collectionAt? address = stage.collectionAt? address := by
  rw [collectionAt?, collectionAt?]
  cases address.asCollection? with
  | none => rfl
  | some target => exact h.collection?_eq _ _

/-- **Collections have the same members** on stages that are alike. -/
theorem compute_eq (owner : ScenePath) (collection : Collection) :
    MemberRules.compute other owner collection = MemberRules.compute stage owner collection :=
  MemberRules.compute_congr h.collectionAt?_eq
    (Stage.Paired.nestingLimit_eq h fun hprim => hprim.collections_eq) owner

/-- A binding has the same members on stages that are alike. -/
theorem hasMember_iff (binding : CollectionBinding) (path : ScenePath) :
    binding.HasMember other path ↔ binding.HasMember stage path := by
  unfold CollectionBinding.HasMember
  simp only [h.collection?_eq, h.compute_eq]

/-- A search meets the same direct binding on stages that are alike. -/
theorem metDirectly_eq (path : PrimPath) :
    other.metDirectly purpose path = stage.metDirectly purpose path := by
  have hfirst := Relationship.SameButOrder.find? (h.prim path).relationships purpose.directName
  rw [metDirectly, metDirectly, relationship?_eq_find?, relationship?_eq_find?]
  generalize ((stage.prim path).readFor purpose).find? _ = one at hfirst ⊢
  generalize ((other.prim path).readFor purpose).find? _ = two at hfirst ⊢
  cases hfirst with
  | none => rfl
  | some hsame =>
      have hmaterial : other.material? = stage.material? := funext h.material?_eq
      simp only [hsame.overrides_eq, hsame.targets_eq, hmaterial]

/-- The relationships that are named as collection bindings are the same on stages that are alike.
-/
theorem collectionRelationships (path : ScenePath) :
    List.Forall₂ Relationship.SameButOrder (stage.collectionRelationships path purpose)
      (other.collectionRelationships path purpose) := by
  rw [collectionRelationships_eq_filter, collectionRelationships_eq_filter]
  refine List.rel_filter ?_ (h.prim path).relationships
  intro one other hsame
  simp only [hsame.name_eq]

/-- The relationships that are offered are the same on stages that are alike. -/
theorem offeredRelationships (path : PrimPath) :
    List.Forall₂ Relationship.SameButOrder (stage.offeredRelationships purpose path)
      (other.offeredRelationships purpose path) := by
  induction path with
  | root => exact .nil
  | child above name ih =>
      have hhere := h.collectionRelationships (above.child name)
      rw [Stage.offeredRelationships, Stage.offeredRelationships]
      generalize stage.collectionRelationships (above.child name) purpose = ones at hhere ⊢
      generalize other.collectionRelationships (above.child name) purpose = others at hhere ⊢
      cases hhere with
      | nil => exact ih
      | cons hsame hrest => exact .cons hsame hrest

/-- A search makes the same of a relationship on stages that are alike. -/
theorem collectionEvent?_eq {one two : Relationship} (hsame : one.SameButOrder two)
    (path : PrimPath) :
    other.collectionEvent? purpose wanted path two =
      stage.collectionEvent? purpose wanted path one := by
  rw [collectionEvent?, collectionEvent?, hsame.ofRelationship?_eq, Option.bind_map]
  congr 1
  funext binding
  have hmember : (CollectionBinding.HasMember other { binding with relationship := two } path) ↔
      binding.HasMember stage path := h.hasMember_iff binding path
  simp only [Function.comp_apply, hmember, hsame.overrides_eq, h.material?_eq]

/-- A search meets the same through collections on stages that are alike. -/
theorem metThroughCollections_eq (path : PrimPath) :
    other.metThroughCollections purpose wanted path =
      stage.metThroughCollections purpose wanted path := by
  rw [metThroughCollections_eq_filterMap, metThroughCollections_eq_filterMap]
  exact filterMap_eq_of_forall₂ (h.offeredRelationships path) fun one two hsame =>
    h.collectionEvent?_eq hsame path

/-- **A search meets the same** on stages that are alike. -/
theorem walk_eq (path : PrimPath) :
    other.walk purpose wanted path = stage.walk purpose wanted path := by
  induction path with
  | root => rfl
  | child above name ih =>
      rw [walk, walk, h.metDirectly_eq, h.metThroughCollections_eq, ih]

/-- **A pass finds the same** on stages that are alike for its purpose. -/
theorem pass_eq (path : PrimPath) :
    other.pass purpose wanted path = stage.pass purpose wanted path := by
  rw [pass_eq_findSome?_decisive, pass_eq_findSome?_decisive, h.walk_eq]

end AlikeFor

/-- **A search finds the same** on stages that are alike for its purpose and for every purpose, and
is refused for the same reason. -/
theorem resolve_eq_of_alike (hown : stage.AlikeFor purpose other)
    (hall : stage.AlikeFor .allPurpose other) (settings : Settings) (prim : ScenePath) :
    other.resolve settings prim purpose wanted = stage.resolve settings prim purpose wanted := by
  rw [resolve_eq_or_passes, resolve_eq_or_passes, hown.hasPrim_eq, hown.pass_eq, hall.pass_eq]

end Stage

end MaterialBinding
