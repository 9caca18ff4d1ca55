import MaterialBinding.Proofs.Binding.Reader
import MaterialBinding.Proofs.Stage.AllOrNothing
import MaterialBinding.Proofs.Stage.Frame
import MaterialBinding.Proofs.Stage.Invariant

/-!
# What binding writes

Binding writes one relationship of one prim: in the place of the one that had its name, or after all
others (`Relationship.Written`).  Of a relationship that was there it replaces the targets and the
strength and keeps the other metadata.  Nothing else on the stage changes (`Stage.WritesOnly`).

What was written is read back.  For the direct binding this is a matter of one name.  Among the
bindings of collections there is one with the name that was given, because the names of
relationships are told apart and each says what the binding is called
(`Stage.filter_collectionBindings`).
-/

namespace MaterialBinding

namespace Metadata

/-- The entries of all keys but one, in their order. -/
def besides (data : Metadata) (key : String) : List (String × String) :=
  data.entries.filter (·.1 ≠ key)

variable {data : Metadata} {key : String}

/-- Setting a key leaves the other entries, in order. -/
theorem besides_set (value : String) : (data.set key value).besides key = data.besides key := by
  obtain ⟨entries⟩ := data
  simp only [besides, set]
  induction entries with
  | nil => simp [setEntry]
  | cons entry rest ih =>
      obtain ⟨k, v⟩ := entry
      by_cases hk : k = key
      · simp [setEntry, hk]
      · rw [setEntry, if_neg hk, List.filter_cons, List.filter_cons, ih]

/-- Taking a key out leaves the other entries, in order. -/
theorem besides_erase : (data.erase key).besides key = data.besides key := by
  obtain ⟨entries⟩ := data
  simp only [besides, erase]
  induction entries with
  | nil => rfl
  | cons entry rest ih =>
      obtain ⟨k, v⟩ := entry
      by_cases hk : k = key
      · simp [eraseEntry, hk]
      · rw [eraseEntry, if_neg hk, List.filter_cons, List.filter_cons, ih]

end Metadata

namespace Relationship

/-! ## Writing the strength -/

variable {relationship : Relationship}

/-- Setting the strength keeps the name. -/
@[simp] theorem name_setStrength (strength : Strength) :
    (relationship.setStrength strength).name = relationship.name := by
  cases strength <;> rfl

/-- Setting the strength keeps the targets. -/
@[simp] theorem targets_setStrength (strength : Strength) :
    (relationship.setStrength strength).targets = relationship.targets := by
  cases strength <;> rfl

/-- **The strength that is written is read**, whatever stood there before. -/
theorem strength_setStrength (hkeys : relationship.metadata.keys.Nodup) (strength : Strength) :
    (relationship.setStrength strength).strength = strength := by
  cases strength with
  | weaker => rw [setStrength, eraseMetadata, Relationship.strength, Metadata.get?_erase hkeys,
      if_pos rfl]
  | stronger =>
      rw [setStrength, setMetadata, Relationship.strength, Metadata.get?_set, if_pos rfl]
      rfl

/-- Setting the strength keeps all metadata besides the strength. -/
theorem besides_setStrength (strength : Strength) :
    (relationship.setStrength strength).metadata.besides Metadata.strengthKey =
      relationship.metadata.besides Metadata.strengthKey := by
  cases strength with
  | weaker => exact Metadata.besides_erase
  | stronger => exact Metadata.besides_set _

/-! ## Writing a relationship among others -/

/-- A relationship stands written among others: in the place of the former one of its name, whose
metadata it keeps but for the strength, or after all others, and then with no other metadata. -/
inductive Written (written : Relationship) : List Relationship → List Relationship → Prop
  | replaced {former : Relationship} (before after : List Relationship)
      (hname : former.name = written.name)
      (hkept : written.metadata.besides Metadata.strengthKey =
        former.metadata.besides Metadata.strengthKey) :
      Written written (before ++ former :: after) (before ++ written :: after)
  | appended {others : List Relationship} (hnew : ∀ other ∈ others, other.name ≠ written.name)
      (hbare : written.metadata.besides Metadata.strengthKey = []) :
      Written written others (others ++ [written])

end Relationship

namespace Prim

variable {name : String} {f : Relationship → Relationship} {relationship : Relationship}
  {rest : List Relationship}

/-- The relationship of that name, or else a bare one, which is what a new one is made of. -/
def former (name : String) (relationships : List Relationship) : Relationship :=
  (relationships.find? (·.name = name)).getD { name }

/-- The first relationship of the name is the former one. -/
theorem former_cons_of_eq (hname : relationship.name = name) :
    former name (relationship :: rest) = relationship := by
  simp [former, hname]

/-- A relationship of another name is passed over. -/
theorem former_cons_of_ne (hname : relationship.name ≠ name) :
    former name (relationship :: rest) = former name rest := by
  simp [former, hname]

/-- The former relationship has the name that is asked for, also where it is a new one. -/
@[simp] theorem name_former (name : String) (relationships : List Relationship) :
    (former name relationships).name = name := by
  rw [former]
  cases hfind : relationships.find? (·.name = name) with
  | none => rfl
  | some relationship =>
      have hname := List.find?_some hfind
      exact of_decide_eq_true hname

/-- Under the name that was put stands what was made of the former relationship. -/
theorem find?_putRelationshipIn (hname : ∀ relationship, (f relationship).name = relationship.name)
    (relationships : List Relationship) :
    (putRelationshipIn name f relationships).find? (·.name = name) =
      some (f (former name relationships)) := by
  induction relationships with
  | nil => simp [putRelationshipIn, former, hname]
  | cons relationship rest ih =>
      by_cases heq : relationship.name = name
      · simp [putRelationshipIn, former, heq, hname]
      · rw [putRelationshipIn, if_neg heq, List.find?_cons_of_neg (by simpa using heq), ih,
          former_cons_of_ne heq]

/-- A relationship that is put among others stands written there. -/
theorem written_putRelationshipIn
    (hname : ∀ relationship, (f relationship).name = relationship.name)
    (hkept : ∀ relationship, (f relationship).metadata.besides Metadata.strengthKey =
      relationship.metadata.besides Metadata.strengthKey) (relationships : List Relationship) :
    Relationship.Written (f (former name relationships)) relationships
      (putRelationshipIn name f relationships) := by
  induction relationships with
  | nil => exact .appended nofun (hkept { name })
  | cons relationship rest ih =>
      rw [putRelationshipIn]
      by_cases heq : relationship.name = name
      · rw [if_pos heq, former_cons_of_eq heq]
        exact .replaced [] rest (hname relationship).symm (hkept relationship)
      · rw [if_neg heq, former_cons_of_ne heq]
        have hne : relationship.name ≠ (f (former name rest)).name := by
          rwa [hname, name_former]
        generalize f (former name rest) = written at ih hne ⊢
        generalize putRelationshipIn name f rest = after at ih ⊢
        cases ih with
        | replaced before after hformer hmetadata =>
            exact .replaced (relationship :: before) after hformer hmetadata
        | appended hnew hbare =>
            exact .appended (List.forall_mem_cons.mpr ⟨hne, hnew⟩) hbare

end Prim

namespace Stage

variable {stage after : Stage} {prim : ScenePath} {name : String}
  {f : Relationship → Relationship}

/-- The stages differ in one relationship of one prim, which stands written on it. -/
structure WritesOnly (stage : Stage) (prim : ScenePath) (written : Relationship) (after : Stage) :
    Prop extends stage.KeepsOthers prim after where
  name_eq : after.name = stage.name
  source_eq : after.source = stage.source
  children_eq : ∀ path, after.children path = stage.children path
  written : Relationship.Written written (stage.relationships prim) (after.relationships prim)

/-- Changing a prim leaves what the stage is called and where it comes from. -/
theorem name_modifyPrim (path : ScenePath) (change : Prim → Prim) :
    (stage.modifyPrim path change).name = stage.name ∧
      (stage.modifyPrim path change).source = stage.source := by
  rw [modifyPrim]
  split <;> exact ⟨rfl, rfl⟩

/-- Changing what a prim holds leaves the children of all prims in their order. -/
theorem children_modifyPrim (path other : ScenePath) (change : Prim → Prim) :
    (stage.modifyPrim path change).children other = stage.children other :=
  (paired_modifyPrim_self stage path change).children_eq (fun _ => Or.inl rfl) other

/-- A relationship is put where it may be, and then on its prim. -/
theorem putRelationship_eq_ok_iff :
    stage.putRelationship prim name f = .ok after ↔
      ((stage.hasPrim prim = true ∧ prim ≠ .root) ∧ isPropertyName name.toList = true) ∧
        after = stage.modifyPrim prim (·.putRelationship name f) := by
  rw [← putRelationship_ok_iff, putRelationship]
  cases prim.appendProperty name with
  | error cause => simp
  | ok property => cases stage.requirePrim prim <;> simp [eq_comm]

/-- The relationships at a path after a change of what one prim below the root holds. -/
theorem relationships_modifyPrim (hprim : stage.hasPrim prim = true) (hroot : prim ≠ .root)
    (change : Prim → Prim) (path : ScenePath) :
    (stage.modifyPrim prim change).relationships path =
      if path = prim then (change (stage.prim prim)).relationships
      else stage.relationships path := by
  rw [relationships, prim_modifyPrim hprim hroot, apply_ite Prim.relationships]
  rfl

/-- What is put on a prim is added to its relationships. -/
theorem relationships_of_putRelationship
    (hput : stage.putRelationship prim name f = .ok after) :
    after.relationships prim = Prim.putRelationshipIn name f (stage.relationships prim) := by
  obtain ⟨⟨⟨hprim, hroot⟩, _⟩, rfl⟩ := putRelationship_eq_ok_iff.mp hput
  rw [relationships_modifyPrim hprim hroot, if_pos rfl]
  rfl

/-- **What putting a relationship writes**, and that it is found under its name. -/
theorem writesOnly_putRelationship (hput : stage.putRelationship prim name f = .ok after)
    (hname : ∀ relationship, (f relationship).name = relationship.name)
    (hkept : ∀ relationship, (f relationship).metadata.besides Metadata.strengthKey =
      relationship.metadata.besides Metadata.strengthKey) :
    after.relationship? prim name = some (f (Prim.former name (stage.relationships prim))) ∧
      stage.WritesOnly prim (f (Prim.former name (stage.relationships prim))) after := by
  have hlist := relationships_of_putRelationship hput
  obtain ⟨_, rfl⟩ := putRelationship_eq_ok_iff.mp hput
  constructor
  · rw [relationship?, hlist]
    exact Prim.find?_putRelationshipIn hname _
  · exact
      { keepsOthers_modifyPrim (f := (·.putRelationship name f)) (fun _ => rfl) prim with
        name_eq := (name_modifyPrim prim _).1
        source_eq := (name_modifyPrim prim _).2
        children_eq := fun other => children_modifyPrim prim other _
        written := by
          rw [hlist]
          exact Prim.written_putRelationshipIn hname hkept _ }

/-! ## Reading the bindings of collections by name -/

/-- Among relationships with different names, at most one has the name. -/
theorem filterMap_eq_find? {β : Type} (g : Relationship → Option β)
    {relationships : List Relationship} (hnames : (relationships.map (·.name)).Nodup) :
    (relationships.filterMap fun relationship =>
        if relationship.name = name then g relationship else none) =
      ((relationships.find? (·.name = name)).bind g).toList := by
  induction relationships with
  | nil => rfl
  | cons relationship rest ih =>
      obtain ⟨hfirst, hrest⟩ := List.nodup_cons.mp hnames
      rw [List.filterMap_cons]
      by_cases heq : relationship.name = name
      · have hothers : rest.filterMap (fun other =>
            if other.name = name then g other else none) = [] := by
          rw [List.filterMap_eq_nil_iff]
          intro other hother
          exact if_neg fun hname => hfirst (List.mem_map.mpr ⟨other, hother, hname.trans heq.symm⟩)
        rw [if_pos heq, hothers, List.find?_cons_of_pos (by simpa using heq), Option.bind_some]
        cases g relationship <;> rfl
      · rw [if_neg heq, ih hrest, List.find?_cons_of_neg (by simpa using heq)]

/-- The binding name tells the bindings of collections apart as the names of their relationships
do. -/
theorem filter_ofRelationship? (purpose : Purpose) (binding : String)
    (relationship : Relationship) :
    (CollectionBinding.ofRelationship? purpose relationship).filter (·.bindingName = binding) =
      if relationship.name = purpose.collectionName binding then
        CollectionBinding.ofRelationship? purpose relationship
      else none := by
  cases hread : CollectionBinding.ofRelationship? purpose relationship with
  | none => simp
  | some read =>
      obtain ⟨_, hname, _⟩ := CollectionBinding.ofRelationship?_eq_some_iff.mp hread
      obtain ⟨hrelationship, _⟩ := Purpose.bindingName?_eq_some_iff.mp hname
      have hsame : read.bindingName = binding ↔
          relationship.name = purpose.collectionName binding := by
        rw [hrelationship, Purpose.collectionName_inj]
      simp only [Option.filter_some, decide_eq_true_eq, hsame]

/-- **The bindings of collections that are called by a name** are those that the relationship named
after it makes. -/
theorem filter_collectionBindings (hnames : ((stage.relationships prim).map (·.name)).Nodup)
    (purpose : Purpose) (binding : String) :
    (stage.collectionBindings prim purpose).filter (·.bindingName = binding) =
      ((stage.relationship? prim (purpose.collectionName binding)).bind
        (CollectionBinding.ofRelationship? purpose)).toList := by
  have hall : stage.collectionBindings prim purpose =
      (stage.relationships prim).filterMap (CollectionBinding.ofRelationship? purpose) := by
    rw [collectionBindings, collectionRelationships, List.filterMap_filter]
    refine List.filterMap_congr fun relationship _ => ?_
    cases hread : CollectionBinding.ofRelationship? purpose relationship with
    | none => exact ite_self none
    | some read =>
        obtain ⟨_, hname, _⟩ := CollectionBinding.ofRelationship?_eq_some_iff.mp hread
        rw [hname]
        rfl
  rw [hall, List.filter_filterMap, relationship?, ← filterMap_eq_find? _ hnames]
  refine List.filterMap_congr fun relationship _ => ?_
  exact filter_ofRelationship? purpose binding relationship

end Stage

/-! ## Binding -/

/-- What a binding of the collection is called: as it is given, or else like the collection. -/
def ScenePath.effectiveName (collection : ScenePath) (given : String) : String :=
  if given = "" then (collection.asCollection?.map Prod.snd).getD "" else given

namespace Stage

variable {stage after : Stage} {prim material collection : ScenePath} {given : String}
  {strength : Strength} {purpose : Purpose}

/-- A collection is bound if its path is one of a collection and the name has no colon. -/
theorem bindCollection_eq_ok_iff :
    stage.bindCollection prim collection material given strength purpose = .ok after ↔
      (∃ owner name, collection.asCollection? = some (owner, name)) ∧
        ':' ∉ (collection.effectiveName given).toList ∧
          stage.putRelationship prim (purpose.collectionName (collection.effectiveName given))
            (fun relationship =>
              (relationship.setTargets [collection, material]).setStrength strength) =
            .ok after := by
  rw [bindCollection, ScenePath.effectiveName]
  cases collection.asCollection? with
  | none => simp
  | some target =>
      obtain ⟨owner, collectionName⟩ := target
      simp only [Option.map_some, Option.getD_some]
      generalize (if given = "" then collectionName else given) = name
      by_cases hcolon : ':' ∈ name.toList
      · simp [hcolon]
      · simp [hcolon]

/-- What a binding writes: the former relationship of the name with its targets and strength. -/
def boundRelationship (stage : Stage) (prim : ScenePath) (name : String)
    (targets : List ScenePath) (strength : Strength) : Relationship :=
  ((Prim.former name (stage.relationships prim)).setTargets targets).setStrength strength

variable {name : String} {targets : List ScenePath}

/-- **Binding writes its targets and its strength**, under the name that it was given. -/
theorem writesOnly_bind (hput : stage.putRelationship prim name (fun relationship =>
      (relationship.setTargets targets).setStrength strength) = .ok after) :
    after.relationship? prim name = some (stage.boundRelationship prim name targets strength) ∧
      stage.WritesOnly prim (stage.boundRelationship prim name targets strength) after := by
  refine writesOnly_putRelationship hput (keepsIdentity_bind targets strength).name_eq ?_
  intro relationship
  exact Relationship.besides_setStrength strength

/-- A binding stands under the name that it was given. -/
theorem name_boundRelationship :
    (stage.boundRelationship prim name targets strength).name = name := by
  rw [boundRelationship, Relationship.name_setStrength]
  exact Prim.name_former name _

/-- A binding has the targets that it was given. -/
theorem targets_boundRelationship :
    (stage.boundRelationship prim name targets strength).targets = targets :=
  Relationship.targets_setStrength strength

/-- A binding has the strength that it was given. -/
theorem strength_boundRelationship (hwell : stage.tree.WellFormed) :
    (stage.boundRelationship prim name targets strength).strength = strength := by
  refine Relationship.strength_setStrength ?_ strength
  change (Prim.former name (stage.relationships prim)).metadata.keys.Nodup
  rw [Prim.former]
  cases hfind : (stage.relationships prim).find? (·.name = name) with
  | none => exact List.nodup_nil
  | some relationship =>
      have hmem := List.mem_of_find?_eq_some hfind
      exact (wellFormed_prim hwell).metadata_keys relationship hmem

/-- What is written to bind a collection is a binding of it, called by its name. -/
theorem ofRelationship?_boundRelationship {owner : PrimPath} {collectionName binding : String}
    (haddress : collection.asCollection? = some (owner, collectionName)) (hempty : binding ≠ "")
    (hplain : ':' ∉ binding.toList) :
    CollectionBinding.ofRelationship? purpose (stage.boundRelationship prim
        (purpose.collectionName binding) [collection, material] strength) =
      some
        { relationship := stage.boundRelationship prim (purpose.collectionName binding)
            [collection, material] strength
          purpose, bindingName := binding, collectionPath := collection, owner, collectionName,
          materialPath := material } := by
  refine CollectionBinding.ofRelationship?_eq_some_iff.mpr ⟨⟨rfl, rfl⟩, ?_, ?_, haddress⟩
  · rw [name_boundRelationship]
    exact Purpose.bindingName?_eq_some_iff.mpr ⟨rfl, hempty, hplain⟩
  · exact targets_boundRelationship

/-- **Bindings read back as authored, and nothing else moves.**  On a reachable stage:

* a prim to which a material was bound has that material as the only target of its direct binding,
  and the strength that was given;
* a prim that binds a collection under a name has one binding of that name, and this one has the
  collection, the material and the strength that were given.

In both cases the stage differs in the relationship of this binding alone. -/
theorem Reachable.bound_as_authored (hreach : stage.Reachable) (prim material : ScenePath)
    (strength : Strength) (purpose : Purpose) :
    (∀ after, stage.bind prim material strength purpose = .ok after →
      ∃ binding, after.directBinding? prim purpose = some binding ∧
        binding.relationship.targets = [material] ∧ binding.strength = strength ∧
        binding.relationship.name = purpose.directName ∧
        stage.WritesOnly prim binding.relationship after) ∧
    ∀ collection given after,
      stage.bindCollection prim collection material given strength purpose = .ok after →
      ∃ binding,
        (after.collectionBindings prim purpose).filter
          (·.bindingName = collection.effectiveName given) = [binding] ∧
        binding.collectionPath = collection ∧ binding.materialPath = material ∧
        binding.strength = strength ∧
        binding.relationship.name =
          purpose.collectionName (collection.effectiveName given) ∧
        stage.WritesOnly prim binding.relationship after := by
  have hwell := hreach.wellFormed
  constructor
  · intro after hbind
    obtain ⟨hfound, hwrites⟩ := writesOnly_bind hbind
    refine ⟨⟨stage.boundRelationship prim purpose.directName [material] strength, purpose⟩, ?_,
      targets_boundRelationship, strength_boundRelationship hwell, name_boundRelationship, hwrites⟩
    rw [directBinding?, directRelationship?, hfound, Option.map_some]
  · intro collection given after hbind
    obtain ⟨⟨owner, collectionName, haddress⟩, hplain, hput⟩ := bindCollection_eq_ok_iff.mp hbind
    obtain ⟨hfound, hwrites⟩ := writesOnly_bind hput
    have hempty : collection.effectiveName given ≠ "" := by
      intro heq
      obtain ⟨⟨_, hname⟩, _⟩ := putRelationship_eq_ok_iff.mp hput
      rw [isPropertyName_collectionName, heq] at hname
      exact absurd hname (by decide)
    have hafter : after.Reachable := by
      have hrun := hreach.edited (.bindCollection prim collection material given strength purpose)
      rwa [Edit.run, hbind] at hrun
    have hnames : ((after.relationships prim).map (·.name)).Nodup :=
      (wellFormed_prim hafter.wellFormed).relationship_names
    rw [filter_collectionBindings hnames, hfound, Option.bind_some,
      ofRelationship?_boundRelationship haddress hempty hplain]
    exact ⟨_, rfl, rfl, rfl, strength_boundRelationship hwell, name_boundRelationship, hwrites⟩

/-- A sofa bound to two materials at once, with a strength that nobody knows and a note. -/
def sofaHistory : List Edit :=
  let sofa : PrimPath := .child .root ⟨"Sofa", by decide⟩
  let felt : PrimPath := .child .root ⟨"Felt", by decide⟩
  [.definePrim sofa, .createRelationship sofa "material:binding" [felt, sofa],
    .setMetadata sofa "material:binding" "bindMaterialAs" "loosely",
    .setMetadata sofa "material:binding" "note" "for now", .createRelationship sofa "proxy" []]

/-- Whoever binds the sofa and its cushions to felt gets what was asked for. -/
theorem sofaHistory_bound :
    let sofa : PrimPath := .child .root ⟨"Sofa", by decide⟩
    let felt : PrimPath := .child .root ⟨"Felt", by decide⟩
    let cushions : ScenePath :=
      .ofProperty .root ⟨"Sofa", by decide⟩ ⟨"collection:cushions", by decide⟩
    let stage : Stage := sofaHistory.foldl Edit.run {}
    (∃ after, stage.bind sofa felt .stronger .allPurpose = .ok after ∧
      ∃ binding, after.directBinding? sofa .allPurpose = some binding ∧
        binding.relationship.targets = [.ofPrim felt] ∧ binding.strength = .stronger ∧
        stage.WritesOnly sofa binding.relationship after) ∧
    ∃ after, stage.bindCollection sofa cushions felt "" .stronger .allPurpose = .ok after ∧
      ∃ binding,
        (after.collectionBindings sofa .allPurpose).filter
          (·.bindingName = cushions.effectiveName "") = [binding] ∧
        binding.collectionPath = cushions ∧ binding.strength = .stronger ∧
        stage.WritesOnly sofa binding.relationship after := by
  intro sofa felt cushions stage
  have hreach : stage.Reachable := Reachable.new.foldl sofaHistory
  obtain ⟨hdirect, hcollection⟩ := hreach.bound_as_authored sofa felt .stronger .allPurpose
  have hbind : stage.bind sofa felt .stronger .allPurpose =
      .ok ((Edit.bind sofa felt .stronger .allPurpose).run stage) := by decide
  have hbindCollection : stage.bindCollection sofa cushions felt "" .stronger .allPurpose =
      .ok ((Edit.bindCollection sofa cushions felt "" .stronger .allPurpose).run stage) := by
    decide
  obtain ⟨binding, hread, htargets, hstrength, _, hwrites⟩ := hdirect _ hbind
  obtain ⟨bound, hlisted, hpath, _, hgiven, _, hwritten⟩ :=
    hcollection cushions "" _ hbindCollection
  exact ⟨⟨_, hbind, binding, hread, htargets, hstrength, hwrites⟩,
    ⟨_, hbindCollection, bound, hlisted, hpath, hgiven, hwritten⟩⟩

end Stage

end MaterialBinding
