import Mathlib.Data.List.Nodup
import MaterialBinding.Proofs.Resolution.Locality
import MaterialBinding.Proofs.Resolution.Subtree

/-!
# What a filter does

A search for collections of one name passes over the bindings of all others, and it does so after it
has found the prim whose bindings are offered.  So a filter silences bindings and never moves the
search: it finds what a search without a filter finds once the targets of all other collection
bindings are emptied (`Stage.silenced`), since a relationship without targets still has its name.

`Relationship.silence` says what the emptying makes of one relationship
(`relationships_silenced`), and the events of the walk are compared relationship by relationship.
-/

namespace MaterialBinding

namespace Stage

/-- The names of the collection bindings of a prim, for any purpose, whose collection is called
otherwise. -/
def unwantedNames (stage : Stage) (wanted : String) (path : PrimPath) : List String :=
  Purpose.all.flatMap fun purpose =>
    ((stage.collectionBindings path purpose).filter (·.collectionName ≠ wanted)).map
      (·.relationship.name)

/-- The relationships of a prim and those above that are unwanted. -/
def unwantedPlaces (stage : Stage) (wanted : String) (path : PrimPath) :
    List (PrimPath × String) :=
  path.ancestors.flatMap fun (above : PrimPath) =>
    (stage.unwantedNames wanted above).map fun name => (above, name)

/-- The stage after the targets of relationships are emptied, one after the other. -/
def emptied (stage : Stage) (places : List (PrimPath × String)) : Stage :=
  places.foldl (fun stage place => (stage.setTargets place.1 place.2 []).2) stage

/-- The stage after the targets of all collection bindings on the prim and above are emptied whose
collection is not called as wanted. -/
def silenced (stage : Stage) (wanted : String) (path : PrimPath) : Stage :=
  stage.emptied (stage.unwantedPlaces wanted path)

end Stage

namespace Relationship

/-- The relationship is a collection binding, for some purpose, of a collection that is called
otherwise. -/
def isUnwanted (relationship : Relationship) (wanted : String) : Bool :=
  Purpose.all.any fun purpose =>
    (CollectionBinding.ofRelationship? purpose relationship).any (·.collectionName ≠ wanted)

/-- The relationship without its targets, if it is unwanted. -/
def silence (wanted : String) (relationship : Relationship) : Relationship :=
  if relationship.isUnwanted wanted then relationship.setTargets [] else relationship

variable {relationship : Relationship} {purpose : Purpose} {wanted : String}
  {binding : CollectionBinding}

/-- A relationship is unwanted if for some purpose it binds a collection of another name. -/
theorem isUnwanted_iff :
    relationship.isUnwanted wanted = true ↔ ∃ purpose binding,
      CollectionBinding.ofRelationship? purpose relationship = some binding ∧
        binding.collectionName ≠ wanted := by
  have hall : ∀ purpose : Purpose, purpose ∈ Purpose.all := by
    intro purpose
    cases purpose <;> decide
  simp [isUnwanted, Option.any_eq_true, hall]

/-- Whatever the purpose, a relationship binds a collection of one name only. -/
theorem isUnwanted_iff_of_ofRelationship?
    (hbinding : CollectionBinding.ofRelationship? purpose relationship = some binding) :
    relationship.isUnwanted wanted = true ↔ binding.collectionName ≠ wanted := by
  rw [isUnwanted_iff]
  constructor
  · intro hexists
    obtain ⟨purpose', binding', hbinding', hname⟩ := hexists
    obtain ⟨_, htargets, haddress⟩ := CollectionBinding.fields_of_ofRelationship? hbinding
    obtain ⟨_, htargets', haddress'⟩ := CollectionBinding.fields_of_ofRelationship? hbinding'
    have hpath : binding.collectionPath = binding'.collectionPath :=
      List.head_eq_of_cons_eq (htargets.symm.trans htargets')
    rw [hpath, haddress'] at haddress
    have hsame : binding'.collectionName = binding.collectionName :=
      (Prod.mk.inj (Option.some.inj haddress)).2
    rwa [← hsame]
  · exact fun hname => ⟨purpose, binding, hbinding, hname⟩

/-- Silencing keeps the name. -/
@[simp] theorem name_silence (relationship : Relationship) :
    (relationship.silence wanted).name = relationship.name := by
  unfold silence
  split <;> rfl

/-- Only collection bindings are silenced. -/
theorem silence_of_not_binding
    (hnone : ∀ purpose : Purpose, purpose.bindingName? relationship.name = none) :
    relationship.silence wanted = relationship := by
  refine if_neg fun hunwanted => ?_
  obtain ⟨purpose, binding, hbinding, _⟩ := isUnwanted_iff.mp hunwanted
  have hname := (CollectionBinding.fields_of_ofRelationship? hbinding).1
  rw [hnone purpose] at hname
  cases hname

/-- Without targets there is no collection binding. -/
theorem ofRelationship?_setTargets_nil :
    CollectionBinding.ofRelationship? purpose (relationship.setTargets []) = none := by
  unfold CollectionBinding.ofRelationship? setTargets
  split
  next _ htargets => cases htargets
  next => rfl

end Relationship

/-! ## Emptying targets -/

/-- Changing the relationship of a name, where names are not used twice. -/
theorem Prim.modifyRelationshipIn_eq_map {relationships : List Relationship} (name : String)
    (f : Relationship → Relationship) (hnames : (relationships.map (·.name)).Nodup) :
    modifyRelationshipIn name f relationships =
      relationships.map fun relationship =>
        if relationship.name = name then f relationship else relationship := by
  induction relationships with
  | nil => rfl
  | cons first rest ih =>
      obtain ⟨hfirst, hrest⟩ := List.nodup_cons.mp hnames
      rw [modifyRelationshipIn, List.map_cons]
      split_ifs with hname
      · have hothers : rest.map (fun relationship =>
            if relationship.name = name then f relationship else relationship) = rest.map id :=
          List.map_congr_left fun other hother => if_neg fun heq =>
            hfirst (List.mem_map.mpr ⟨other, hother, heq.trans hname.symm⟩)
        rw [hothers, List.map_id]
      · rw [ih hrest]

namespace Stage

variable {stage : Stage} {wanted : String} {path : PrimPath}

/-- No prim has two relationships of one name. -/
def UniqueNames (stage : Stage) : Prop :=
  ∀ place : PrimPath, ((stage.relationships place).map (·.name)).Nodup

/-- Emptying one relationship. -/
theorem relationships_setTargets (hnames : stage.UniqueNames) (place : PrimPath) (name : String) :
    (stage.setTargets place name []).2.relationships path =
      (stage.relationships path).map fun relationship =>
        if (path, relationship.name) = (place, name) then relationship.setTargets []
        else relationship := by
  have hself : (∀ relationship ∈ stage.relationships path,
        (path, relationship.name) ≠ (place, name)) →
      stage.relationships path = (stage.relationships path).map fun relationship =>
        if (path, relationship.name) = (place, name) then relationship.setTargets []
        else relationship := by
    intro hother
    rw [List.map_congr_left fun relationship hmem => if_neg (hother relationship hmem),
      List.map_id']
  rw [setTargets, modifyRelationship]
  split_ifs with hfound
  · by_cases hpath : path = place
    · subst hpath
      obtain ⟨relationship, hrelationship⟩ := Option.isSome_iff_exists.mp hfound
      have hroot : path ≠ .root := by
        intro hroot
        rw [hroot] at hrelationship
        cases hrelationship
      have hprim := hasPrim_of_relationship? hrelationship
      rw [relationships, prim_modifyPrim_self hroot hprim]
      change Prim.modifyRelationshipIn name _ (stage.relationships path) = _
      rw [Prim.modifyRelationshipIn_eq_map name _ (hnames path)]
      refine List.map_congr_left fun relationship _ => ?_
      simp only [Prod.mk.injEq, true_and]
    · rw [relationships, prim_modifyPrim_of_ne hpath]
      exact hself fun relationship _ heq => hpath (Prod.mk.inj heq).1
  · refine hself fun relationship hmem heq => hfound ?_
    obtain ⟨rfl, rfl⟩ := Prod.mk.inj heq
    rw [relationship?, List.find?_isSome]
    exact ⟨relationship, hmem, decide_eq_true rfl⟩

/-- Emptying a relationship makes no second one of any name. -/
theorem UniqueNames.setTargets (hnames : stage.UniqueNames) (place : PrimPath) (name : String) :
    (stage.setTargets place name []).2.UniqueNames := by
  intro path
  rw [relationships_setTargets hnames, List.map_map]
  have hsame : ((·.name) ∘ fun relationship : Relationship =>
      if (path, relationship.name) = (place, name) then relationship.setTargets []
      else relationship) = (·.name) := by
    funext relationship
    simp only [Function.comp_apply]
    split <;> rfl
  rw [hsame]
  exact hnames path

/-- Emptying relationships one after the other empties each of them. -/
theorem relationships_emptied (hnames : stage.UniqueNames) (places : List (PrimPath × String)) :
    (stage.emptied places).relationships path =
      (stage.relationships path).map fun relationship =>
        if (path, relationship.name) ∈ places then relationship.setTargets []
        else relationship := by
  induction places generalizing stage with
  | nil => simp [emptied]
  | cons first places ih =>
      obtain ⟨place, name⟩ := first
      have hstep := ih (hnames.setTargets place name)
      rw [emptied, List.foldl_cons, ← emptied, hstep, relationships_setTargets hnames,
        List.map_map]
      refine List.map_congr_left fun relationship _ => ?_
      simp only [Function.comp_apply, List.mem_cons]
      by_cases hhere : (path, relationship.name) = (place, name)
      · simp [hhere, Relationship.setTargets]
      · simp [hhere]

/-- Emptying targets leaves prims and collections. -/
theorem hasPrim_emptied (places : List (PrimPath × String)) (target : ScenePath) :
    (stage.emptied places).hasPrim target = stage.hasPrim target := by
  induction places generalizing stage with
  | nil => rfl
  | cons place places ih =>
      rw [emptied, List.foldl_cons, ← emptied, ih]
      exact keepsOthers_modifyRelationship.hasPrim_eq target

/-- Emptying relationships leaves the collections. -/
theorem collectionAt?_emptied (places : List (PrimPath × String)) (address : ScenePath) :
    (stage.emptied places).collectionAt? address = stage.collectionAt? address := by
  induction places generalizing stage with
  | nil => rfl
  | cons place places ih =>
      rw [emptied, List.foldl_cons, ← emptied, ih]
      exact keepsOthers_modifyRelationship.collectionAt?_eq address

/-- The unwanted names are those of the unwanted relationships. -/
theorem mem_unwantedNames (hnames : stage.UniqueNames) {relationship : Relationship}
    (hmem : relationship ∈ stage.relationships path) :
    relationship.name ∈ stage.unwantedNames wanted path ↔
      relationship.isUnwanted wanted = true := by
  rw [Relationship.isUnwanted_iff, unwantedNames]
  simp only [List.mem_flatMap, List.mem_map, List.mem_filter, collectionBindings,
    List.mem_filterMap, collectionRelationships]
  constructor
  · intro hexists
    obtain ⟨purpose, _, binding, ⟨⟨other, ⟨hother, _⟩, hbinding⟩, hwanted⟩, hname⟩ := hexists
    rw [relationship_of_ofRelationship? hbinding] at hname
    obtain rfl := List.inj_on_of_nodup_map (hnames path) hother hmem hname
    exact ⟨purpose, binding, hbinding, by simpa using hwanted⟩
  · intro hexists
    obtain ⟨purpose, binding, hbinding, hwanted⟩ := hexists
    have hread := (CollectionBinding.fields_of_ofRelationship? hbinding).1
    refine ⟨purpose, ?_, binding, ⟨⟨relationship, ⟨hmem, hread⟩, hbinding⟩, ?_⟩, ?_⟩
    · cases purpose <;> decide
    · simpa using hwanted
    · rw [relationship_of_ofRelationship? hbinding]

/-- **Silencing**, relationship by relationship. -/
theorem relationships_silenced (hnames : stage.UniqueNames) {above : PrimPath}
    (habove : above ∈ path.ancestors) :
    (stage.silenced wanted path).relationships above =
      (stage.relationships above).map (Relationship.silence wanted) := by
  rw [silenced, relationships_emptied hnames]
  refine List.map_congr_left fun relationship hmem => ?_
  have hplace : (above, relationship.name) ∈ stage.unwantedPlaces wanted path ↔
      relationship.isUnwanted wanted = true := by
    rw [← mem_unwantedNames hnames hmem]
    simp [unwantedPlaces, habove]
  rw [Relationship.silence]
  simp only [hplace]

/-! ## Searches after silencing -/

/-- On the prim and above, the other stage has the relationships of the stage with the unwanted
ones silenced; otherwise a search sees no difference. -/
structure SilencedAbove (wanted : String) (stage other : Stage) (path : PrimPath) : Prop where
  relationships_eq : ∀ above ∈ path.ancestors,
    other.relationships above = (stage.relationships above).map (Relationship.silence wanted)
  hasPrim_eq : ∀ target, other.hasPrim target = stage.hasPrim target
  collectionAt?_eq : ∀ address, other.collectionAt? address = stage.collectionAt? address

/-- The silenced stage is silenced on the way up from the path. -/
theorem silencedAbove_silenced (hnames : stage.UniqueNames) :
    SilencedAbove wanted stage (stage.silenced wanted path) path where
  relationships_eq := fun _ habove => relationships_silenced hnames habove
  hasPrim_eq := hasPrim_emptied _
  collectionAt?_eq := collectionAt?_emptied _

namespace SilencedAbove

variable {other : Stage} {purpose : Purpose} {name : PrimName}

/-- What is silenced on the way up from a child is silenced on the way up from its parent. -/
theorem above (h : SilencedAbove wanted stage other (path.child name)) :
    SilencedAbove wanted stage other path where
  relationships_eq := fun above hmem => h.relationships_eq above (List.mem_cons_of_mem _ hmem)
  hasPrim_eq := h.hasPrim_eq
  collectionAt?_eq := h.collectionAt?_eq

/-- Silencing takes no material away and makes none. -/
theorem material?_eq (h : SilencedAbove wanted stage other path) :
    other.material? = stage.material? := by
  funext target
  rw [material?, material?, h.hasPrim_eq]

/-- A direct binding is never silenced. -/
theorem metDirectly_eq (h : SilencedAbove wanted stage other path) {above : PrimPath}
    (habove : above ∈ path.ancestors) :
    other.metDirectly purpose above = stage.metDirectly purpose above := by
  have hname : ∀ relationship : Relationship, relationship.name = purpose.directName →
      relationship.silence wanted = relationship := by
    intro relationship hname
    refine Relationship.silence_of_not_binding fun other => ?_
    rw [hname, Purpose.bindingName?_directName]
  have hfound : other.relationship? above purpose.directName =
      stage.relationship? above purpose.directName := by
    rw [relationship?, relationship?, h.relationships_eq above habove, List.find?_map]
    simp only [Function.comp_def, Relationship.name_silence]
    cases hrelationship : (stage.relationships above).find? (·.name = purpose.directName) with
    | none => rfl
    | some relationship =>
        have hdirect := List.find?_some hrelationship
        simp only [Option.map_some, hname relationship (of_decide_eq_true hdirect)]
  rw [metDirectly, metDirectly, hfound, h.material?_eq]

/-- The owner is found by names, and silencing keeps all names. -/
theorem offeredRelationships_eq (h : SilencedAbove wanted stage other path) :
    other.offeredRelationships purpose path =
      (stage.offeredRelationships purpose path).map (Relationship.silence wanted) := by
  induction path with
  | root => rfl
  | child above name ih =>
      have hhere : other.collectionRelationships (above.child name) purpose =
          (stage.collectionRelationships (above.child name) purpose).map
            (Relationship.silence wanted) := by
        rw [collectionRelationships, collectionRelationships,
          h.relationships_eq _ (List.mem_cons_self ..), List.filter_map]
        simp only [Function.comp_def, Relationship.name_silence]
      rw [offeredRelationships, offeredRelationships, hhere, ih h.above]
      simp only [List.map_eq_nil_iff]
      split <;> rfl

/-- What the filter passes over is silent without a filter, and the rest is met as before. -/
theorem collectionEvent?_eq (hwanted : wanted ≠ "") (h : SilencedAbove wanted stage other path)
    (relationship : Relationship) (place : PrimPath) :
    other.collectionEvent? purpose "" place (relationship.silence wanted) =
      stage.collectionEvent? purpose wanted place relationship := by
  rw [collectionEvent?, collectionEvent?]
  cases hbinding : CollectionBinding.ofRelationship? purpose relationship with
  | none =>
      have hsilent : CollectionBinding.ofRelationship? purpose (relationship.silence wanted) =
          none := by
        rw [Relationship.silence]
        split
        · exact Relationship.ofRelationship?_setTargets_nil
        · exact hbinding
      rw [hsilent]
      rfl
  | some binding =>
      have hunwanted : relationship.isUnwanted wanted = true ↔ binding.collectionName ≠ wanted :=
        Relationship.isUnwanted_iff_of_ofRelationship? hbinding
      by_cases hname : binding.collectionName = wanted
      · obtain ⟨_, _, haddress⟩ := CollectionBinding.fields_of_ofRelationship? hbinding
        have hmember := CollectionBinding.hasMember_iff_of_reaches haddress
          (fun reached _ => h.collectionAt?_eq reached) place
        rw [Relationship.silence, if_neg fun h => hunwanted.mp h hname, hbinding, h.material?_eq]
        simp only [Option.bind_some, hname, hmember, true_or, or_true, true_and]
      · rw [Relationship.silence, if_pos (hunwanted.mpr hname),
          Relationship.ofRelationship?_setTargets_nil, Option.bind_none, Option.bind_some, if_neg]
        exact fun hmet => hmet.1.elim hwanted hname

/-- Without a filter the silenced stage offers what the filter leaves. -/
theorem metThroughCollections_eq (hwanted : wanted ≠ "")
    (h : SilencedAbove wanted stage other path) :
    other.metThroughCollections purpose "" path =
      stage.metThroughCollections purpose wanted path := by
  rw [metThroughCollections_eq_filterMap, metThroughCollections_eq_filterMap,
    h.offeredRelationships_eq, List.filterMap_map]
  exact List.filterMap_congr fun relationship _ =>
    h.collectionEvent?_eq hwanted relationship path

/-- The walk without a filter on the silenced stage is the walk with the filter. -/
theorem walk_eq (hwanted : wanted ≠ "") (h : SilencedAbove wanted stage other path) :
    other.walk purpose "" path = stage.walk purpose wanted path := by
  induction path with
  | root => rfl
  | child above name ih =>
      rw [walk, walk, h.metDirectly_eq (List.mem_cons_self ..),
        h.metThroughCollections_eq hwanted, ih h.above]

/-- The pass without a filter on the silenced stage is the pass with the filter. -/
theorem pass_eq (hwanted : wanted ≠ "") (h : SilencedAbove wanted stage other path) :
    other.pass purpose "" path = stage.pass purpose wanted path := by
  rw [pass_eq_findSome?_decisive, pass_eq_findSome?_decisive, h.walk_eq hwanted]

end SilencedAbove

/-- **A filter silences.**  A search for collections of one name finds what a search for collections
of any name finds after all others are silenced, on the prim and above. -/
theorem Reachable.resolve_silenced (hreach : stage.Reachable) (hwanted : wanted ≠ "")
    (settings : Settings) (prim : ScenePath) (purpose : Purpose) :
    stage.resolve settings prim purpose wanted =
      (stage.silenced wanted prim.prim).resolve settings prim purpose "" := by
  have hnames : stage.UniqueNames :=
    fun _ => (wellFormed_prim hreach.wellFormed).relationship_names
  have h : SilencedAbove wanted stage (stage.silenced wanted prim.prim) prim.prim :=
    silencedAbove_silenced hnames
  rw [resolve_eq_or_passes, resolve_eq_or_passes, h.hasPrim_eq, h.pass_eq hwanted,
    h.pass_eq hwanted]

/-- A mug on a bench that is bound to oak.  The bench binds teak to a collection that holds the mug,
and the mug binds gloss to one of its own. -/
def glazedMug : List Edit :=
  let bench : PrimPath := .child .root ⟨"Bench", by decide⟩
  let mug : PrimPath := bench.child ⟨"Mug", by decide⟩
  let tints : PrimPath := .child .root ⟨"Tints", by decide⟩
  let oak : PrimPath := tints.child ⟨"Oak", by decide⟩
  let teak : PrimPath := tints.child ⟨"Teak", by decide⟩
  let gloss : PrimPath := tints.child ⟨"Gloss", by decide⟩
  [.definePrim mug, .definePrim oak, .definePrim teak, .definePrim gloss,
    .bind bench oak .weaker .allPurpose,
    .defineCollection bench { name := "timber", includes := [mug] },
    .defineCollection mug { name := "pottery", includes := [mug] },
    .bindCollection bench (.ofProperty .root ⟨"Bench", by decide⟩ ⟨"collection:timber", by decide⟩)
      teak "" .weaker .allPurpose,
    .bindCollection mug (.ofProperty bench ⟨"Mug", by decide⟩ ⟨"collection:pottery", by decide⟩)
      gloss "" .weaker .allPurpose]

/-- A search for timber stops at the mug, whose pottery it passes over, and never comes to teak: the
mug is oak, as it is when pottery is silenced. -/
theorem glazedMug_is_oak :
    let stage : Stage := glazedMug.foldl Edit.run {}
    let bench : PrimPath := .child .root ⟨"Bench", by decide⟩
    let mug : PrimPath := bench.child ⟨"Mug", by decide⟩
    let oak : PrimPath := .child (.child .root ⟨"Tints", by decide⟩) ⟨"Oak", by decide⟩
    let gloss : PrimPath := .child (.child .root ⟨"Tints", by decide⟩) ⟨"Gloss", by decide⟩
    stage.Reachable ∧ "timber" ≠ "" ∧
      stage.unwantedPlaces "timber" mug = [(mug, "material:binding:collection:pottery")] ∧
      stage.resolve {} mug .full "" = .ok (some gloss) ∧
      stage.resolve {} mug .full "timber" = .ok (some oak) ∧
      (stage.silenced "timber" mug).resolve {} mug .full "" = .ok (some oak) := by
  intro stage bench mug oak gloss
  have hreach : stage.Reachable := Reachable.new.foldl glazedMug
  have hname : "timber" ≠ "" := by decide
  have hfiltered : stage.resolve {} mug .full "timber" = .ok (some oak) := by decide
  have hsilenced := hreach.resolve_silenced hname {} mug .full
  exact ⟨hreach, hname, by decide, by decide, hfiltered, hsilenced.symm.trans hfiltered⟩

end Stage

end MaterialBinding
