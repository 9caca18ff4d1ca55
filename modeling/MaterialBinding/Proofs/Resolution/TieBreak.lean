import MaterialBinding.Resolution.Resolver

/-!
# Which binding wins

A pass goes up from a prim and meets bindings: on each prim first the direct one, then those of
collections that the prim is a member of.  `Stage.walk` writes down what it meets, read off what is
authored on the way.

The pass keeps one material while it goes.  A weak event fills an empty place, and a strong one
takes it, whether it has a material or not.  So a strong event forgets everything before it, and
what a pass finds depends on the events from the last strong one on (`decisive`):

* `foldl_settle` says this of any events and of any material found before them;
* `passEvents_eq_walk` says that the pass settles the events of the walk;
* `resolve_eq_first_after_last_strong` puts both together, for both passes of a search.
-/

namespace MaterialBinding

/-- The events from the last strong one on; all of them, if none is strong. -/
def decisive : List BindingEvent → List BindingEvent
  | [] => []
  | event :: later => if later.any (·.strong) then decisive later else event :: later

/-- Events before the last strong one decide nothing. -/
theorem decisive_of_last_strong {before after : List BindingEvent} {event : BindingEvent}
    (hstrong : event.strong = true) (hafter : ∀ e ∈ after, e.strong = false) :
    decisive (before ++ event :: after) = event :: after := by
  induction before with
  | nil =>
      have hnone : after.any (·.strong) = false := by simpa using hafter
      simp [decisive, hnone]
  | cons first before ih => simp [decisive, hstrong, ih]

/-- Without a strong event all events decide. -/
theorem decisive_of_weak {events : List BindingEvent} (hweak : ∀ e ∈ events, e.strong = false) :
    decisive events = events := by
  cases events with
  | nil => rfl
  | cons event later =>
      have hnone : later.any (·.strong) = false := by
        simpa using fun e he => hweak e (List.mem_cons_of_mem _ he)
      simp [decisive, hnone]

/-- A weak event gives its material only where nothing was found. -/
theorem settle_of_weak {event : BindingEvent} (hweak : event.strong = false)
    (found : Option PrimPath) : event.settle found = found.or event.material := by
  cases found <;> simp [BindingEvent.settle, hweak]

/-- A strong event takes the place of what was found, even with nothing. -/
theorem settle_of_strong {event : BindingEvent} (hstrong : event.strong = true)
    (found : Option PrimPath) : event.settle found = event.material := by
  simp [BindingEvent.settle, hstrong]

/-- **Settling in one look.**  A strong event among those still to come makes what was found so far
irrelevant; without one it stays ahead of everything that is to come. -/
theorem foldl_settle (events : List BindingEvent) (found : Option PrimPath) :
    events.foldl BindingEvent.settle found =
      if events.any (·.strong) then (decisive events).findSome? (·.material)
      else found.or (events.findSome? (·.material)) := by
  induction events generalizing found with
  | nil => simp
  | cons event later ih =>
      rw [List.foldl_cons, ih]
      by_cases hlater : later.any (·.strong) = true
      · simp [decisive, hlater]
      · cases hevent : event.strong with
        | true =>
            rw [settle_of_strong hevent]
            simp [decisive, hlater, hevent, List.findSome?_cons]
            cases event.material <;> rfl
        | false =>
            rw [settle_of_weak hevent, Option.or_assoc]
            simp [hlater, hevent, List.findSome?_cons]
            cases event.material <;> simp

/-- The relationship says that it overrides what is authored below. -/
def Relationship.overrides (relationship : Relationship) : Bool :=
  relationship.metadata.get? "bindMaterialAs" == some "strongerThanDescendents"

/-- The strength that is read from a relationship says whether it overrides. -/
theorem isStronger_strength (relationship : Relationship) :
    relationship.strength.isStronger = relationship.overrides := by
  unfold Relationship.strength Relationship.overrides
  rw [show Metadata.strengthKey = "bindMaterialAs" from rfl]
  cases relationship.metadata.get? "bindMaterialAs" with
  | none => rfl
  | some token =>
      by_cases htoken : token = "strongerThanDescendents"
      · subst htoken
        rfl
      · have hne : token ≠ Strength.stronger.token := htoken
        simp only [Strength.ofToken, if_neg hne, Option.some_beq_some]
        exact (beq_false_of_ne htoken).symm

/-- The collection is there, its membership can be computed, and the path is in. -/
def CollectionBinding.HasMember (stage : Stage) (binding : CollectionBinding)
    (path : ScenePath) : Prop :=
  ∃ collection rules, stage.collection? binding.owner binding.collectionName = some collection ∧
    MemberRules.compute stage binding.owner collection = .ok rules ∧ rules.contains path = true

/-- The test for members finds the members. -/
theorem CollectionBinding.isMember_iff {stage : Stage} {binding : CollectionBinding}
    {path : ScenePath} : binding.isMember stage path = true ↔ binding.HasMember stage path := by
  unfold CollectionBinding.isMember CollectionBinding.HasMember CollectionBinding.collection?
  cases stage.collection? binding.owner binding.collectionName with
  | none => simp
  | some collection =>
      cases hrules : MemberRules.compute stage binding.owner collection with
      | error error => simp [hrules]
      | ok rules => simp [hrules]

instance (stage : Stage) (binding : CollectionBinding) (path : ScenePath) :
    Decidable (binding.HasMember stage path) :=
  decidable_of_iff _ CollectionBinding.isMember_iff

namespace Stage

/-- What the direct binding of one prim brings to the walk.  It gives the prim at its first target,
and without a relationship there is a weak event that gives nothing. -/
def metDirectly (stage : Stage) (purpose : Purpose) (path : PrimPath) : BindingEvent :=
  match stage.relationship? path purpose.directName with
  | none => ⟨false, none⟩
  | some relationship =>
    ⟨relationship.overrides, relationship.targets.head?.bind stage.material?⟩

/-- The collection bindings of the nearest prim at or above the path on which any relationship is
named as one. -/
def offeredBindings (stage : Stage) (purpose : Purpose) : PrimPath → List CollectionBinding
  | .root => []
  | .child above name =>
    if stage.collectionRelationships (above.child name) purpose = [] then
      stage.offeredBindings purpose above
    else stage.collectionBindings (above.child name) purpose

/-- What collections bring to the walk at one prim: the offered bindings that the filter lets pass
and of whose collection the prim itself is a member. -/
def metThroughCollections (stage : Stage) (purpose : Purpose) (wanted : String)
    (path : PrimPath) : List BindingEvent :=
  ((stage.offeredBindings purpose path).filter fun binding =>
    (wanted = "" ∨ binding.collectionName = wanted) ∧ binding.HasMember stage path).map
    fun binding => ⟨binding.relationship.overrides, stage.material? binding.materialPath⟩

/-- What a pass meets on its way from the prim to the top. -/
def walk (stage : Stage) (purpose : Purpose) (wanted : String) : PrimPath → List BindingEvent
  | .root => []
  | .child above name =>
    stage.metDirectly purpose (above.child name) ::
      (stage.metThroughCollections purpose wanted (above.child name) ++
        stage.walk purpose wanted above)

variable {stage : Stage} {purpose : Purpose} {wanted : String} {path : PrimPath}

/-- The direct event at a prim is what the search meets directly. -/
theorem directEvent_eq_metDirectly :
    stage.directEvent purpose path = stage.metDirectly purpose path := by
  unfold directEvent metDirectly directStrength directMaterial? directBinding?
    directRelationship?
  cases stage.relationship? path purpose.directName with
  | none => rfl
  | some relationship =>
      simp only [isStronger_strength]
      rfl

/-- The search for an owner goes up prim by prim. -/
theorem nearestCollectionBindings_eq_offeredBindings :
    stage.nearestCollectionBindings path purpose = stage.offeredBindings purpose path := by
  induction path with
  | root => rfl
  | child above name ih =>
      unfold nearestCollectionBindings at ih ⊢
      rw [PrimPath.ancestors, List.find?_cons, offeredBindings]
      by_cases hnone : stage.collectionRelationships (above.child name) purpose = []
      · simpa [ownsCollectionBindings, hnone] using ih
      · have howns : stage.ownsCollectionBindings purpose (above.child name) = true := by
          simpa [ownsCollectionBindings] using hnone
        rw [howns, if_neg hnone]

/-- The collection events at a prim are what the search meets through collections. -/
theorem collectionEvents_eq_metThroughCollections :
    stage.collectionEvents purpose wanted path =
      stage.metThroughCollections purpose wanted path := by
  unfold collectionEvents metThroughCollections
  rw [nearestCollectionBindings_eq_offeredBindings]
  congr 1
  · funext binding
    rw [← isStronger_strength]
    rfl
  · apply List.filter_congr
    intro binding _
    rw [Bool.eq_iff_iff]
    simp [← CollectionBinding.isMember_iff]

/-- The pass settles what the walk meets. -/
theorem passEvents_eq_walk :
    stage.passEvents purpose wanted path = stage.walk purpose wanted path := by
  induction path with
  | root => rfl
  | child above name ih =>
      unfold passEvents at ih ⊢
      rw [PrimPath.ancestors, List.flatMap_cons, ih, directEvent_eq_metDirectly,
        collectionEvents_eq_metThroughCollections]
      rfl

/-- **The tie-break of one pass.**  The first material among the events that decide. -/
theorem pass_eq_findSome?_decisive :
    stage.pass purpose wanted path =
      (decisive (stage.walk purpose wanted path)).findSome? (·.material) := by
  rw [pass, passEvents_eq_walk, foldl_settle]
  by_cases hstrong : (stage.walk purpose wanted path).any (·.strong) = true
  · rw [if_pos hstrong]
  · have hweak : ∀ e ∈ stage.walk purpose wanted path, e.strong = false := by
      simpa using hstrong
    rw [if_neg hstrong, decisive_of_weak hweak, Option.none_or]

/-- A search is one pass for its purpose and, if that finds nothing, one for every purpose. -/
theorem findSome?_passes (found : Purpose → Option PrimPath) :
    purpose.passes.findSome? found = (found purpose).or (found .allPurpose) := by
  cases purpose with
  | allPurpose => cases hall : found .allPurpose <;> simp [Purpose.passes, hall]
  | full =>
      cases hfull : found .full <;> cases hall : found .allPurpose <;>
        simp [Purpose.passes, hfull, hall]
  | preview =>
      cases hpreview : found .preview <;> cases hall : found .allPurpose <;>
        simp [Purpose.passes, hpreview, hall]

/-- A search checks the prim and the purpose, and then takes what its passes find. -/
theorem resolve_eq_or_passes (settings : Settings) (prim : ScenePath) :
    stage.resolve settings prim purpose wanted =
      if !stage.hasPrim prim then .error (.invalidPrim prim)
      else if !settings.allows purpose then
        .error (.invalidPurpose purpose.token settings.allowed)
      else .ok ((stage.pass purpose wanted prim.prim).or
        (stage.pass .allPurpose wanted prim.prim)) := by
  rw [resolve, findSome?_passes]

/-- **The last strong binding decides.**  Each pass finds the first material at or after its last
strong event or, if no event is strong, the first material of all.  A search for an allowed purpose
finds what the pass for that purpose does or, failing that, what the pass for every purpose does. -/
theorem resolve_eq_first_after_last_strong {settings : Settings} {prim : ScenePath}
    (hprim : stage.hasPrim prim = true) (hallowed : settings.allows purpose = true) :
    (∀ q,
      (∀ before event after,
        stage.walk q wanted prim.prim = before ++ event :: after →
        event.strong = true → (∀ e ∈ after, e.strong = false) →
        stage.pass q wanted prim.prim = (event :: after).findSome? (·.material)) ∧
      ((∀ e ∈ stage.walk q wanted prim.prim, e.strong = false) →
        stage.pass q wanted prim.prim =
          (stage.walk q wanted prim.prim).findSome? (·.material))) ∧
    stage.resolve settings prim purpose wanted =
      .ok ((stage.pass purpose wanted prim.prim).or (stage.pass .allPurpose wanted prim.prim)) := by
  refine ⟨fun q => ⟨?_, ?_⟩, ?_⟩
  · intro before event after hwalk hstrong hafter
    rw [pass_eq_findSome?_decisive, hwalk, decisive_of_last_strong hstrong hafter]
  · intro hweak
    rw [pass_eq_findSome?_decisive, decisive_of_weak hweak]
  · rw [resolve, hprim, hallowed, findSome?_passes]
    rfl

/-- A desk whose strong binding leads nowhere.  It is bound to red as well, through a collection
that holds it and the cup on it; the cup is bound to blue. -/
def boundDesk : Stage :=
  let looks : PrimPath := .child .root ⟨"Looks", by decide⟩
  let all : ScenePath := .ofProperty .root ⟨"Desk", by decide⟩ ⟨"collection:all", by decide⟩
  { tree :=
      .cons ⟨"Looks", by decide⟩ {}
        (.cons ⟨"Red", by decide⟩ {} .nil (.cons ⟨"Blue", by decide⟩ {} .nil .nil)) <|
      .cons ⟨"Desk", by decide⟩
        { relationships :=
            [⟨"material:binding", [looks.child ⟨"Gone", by decide⟩],
                ⟨[("bindMaterialAs", "strongerThanDescendents")]⟩⟩,
              ⟨"material:binding:collection:all", [all, looks.child ⟨"Red", by decide⟩], {}⟩]
          collections :=
            [{ name := "all", includes := [PrimPath.child .root ⟨"Desk", by decide⟩] }] }
        (.cons ⟨"Cup", by decide⟩
          { relationships :=
              [⟨"material:binding", [looks.child ⟨"Blue", by decide⟩], {}⟩] } .nil .nil)
        .nil }

/-- The strong binding of the desk silences the cup's own one and then gives way to the collection
of the desk. -/
theorem boundDesk_cup_is_red :
    let cup : PrimPath := .child (.child .root ⟨"Desk", by decide⟩) ⟨"Cup", by decide⟩
    let blue : PrimPath := .child (.child .root ⟨"Looks", by decide⟩) ⟨"Blue", by decide⟩
    let red : PrimPath := .child (.child .root ⟨"Looks", by decide⟩) ⟨"Red", by decide⟩
    boundDesk.hasPrim cup = true ∧ ({} : Settings).allows .full = true ∧
      boundDesk.walk .allPurpose "" cup =
        [⟨false, some blue⟩, ⟨false, some red⟩] ++ ⟨true, none⟩ :: [⟨false, some red⟩] ∧
      boundDesk.resolve {} cup .full "" = .ok (some red) := by
  intro cup blue red
  have hprim : boundDesk.hasPrim cup = true := by decide
  have hallowed : ({} : Settings).allows .full = true := by decide
  have hwalk : boundDesk.walk .allPurpose "" cup =
      [⟨false, some blue⟩, ⟨false, some red⟩] ++ ⟨true, none⟩ :: [⟨false, some red⟩] := by decide
  have hweak : ∀ e ∈ boundDesk.walk .full "" cup, e.strong = false := by decide
  obtain ⟨hpass, hresolve⟩ :=
    @resolve_eq_first_after_last_strong boundDesk .full "" {} cup hprim hallowed
  have hfull : boundDesk.pass .full "" cup = none := ((hpass .full).2 hweak).trans (by decide)
  have hall : boundDesk.pass .allPurpose "" cup = some red :=
    (hpass .allPurpose).1 _ _ _ hwalk rfl (by decide)
  refine ⟨hprim, hallowed, hwalk, hresolve.trans ?_⟩
  change Except.ok ((boundDesk.pass .full "" cup).or (boundDesk.pass .allPurpose "" cup)) = _
  rw [hfull, hall]
  rfl

end Stage

end MaterialBinding
