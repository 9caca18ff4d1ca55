import MaterialBinding.Binding.Basic
import MaterialBinding.Proofs.Binding.Name

/-!
# Readers of names

A relationship is found as a binding through its name: as the direct binding for one of the three
purposes, or as the binding of a collection for one of them.  These are the six readers
(`NameReader`).  The names that they recognise lie apart (`NameReader.eq_of_recognises`), although
the namespace of one begins that of another and a collection may be bound under the name `full`.

What a reader of collections recognises decodes to one binding name only, in two ways with one
result: by taking off the namespace (`Purpose.bindingName?`) and by taking the part after the last
colon (`lastPart`).  So a collection binding may as well be read from the targets alone and be named
by the last part (`CollectionBinding.ofRelationship?_eq_ofTargets?`).
-/

namespace MaterialBinding

/-- The part of a name after its last colon; a name without a colon is one part. -/
def lastPart (name : String) : String :=
  String.ofList (name.toList.reverse.takeWhile (· ≠ ':')).reverse

/-- What follows a colon and has none of its own is the last part. -/
theorem lastPart_append_colon (lead : String) {part : String} (hplain : ':' ∉ part.toList) :
    lastPart (lead ++ ":" ++ part) = part := by
  have hpart : ∀ c ∈ part.toList.reverse, decide (c ≠ ':') = true := by
    intro c hmem
    exact decide_eq_true fun heq => hplain (heq ▸ List.mem_reverse.mp hmem)
  have hchars : (lead ++ ":" ++ part).toList.reverse =
      part.toList.reverse ++ ':' :: lead.toList.reverse := by simp
  rw [lastPart, hchars, List.takeWhile_append_of_pos hpart,
    List.takeWhile_cons_of_neg (by simp), List.append_nil, List.reverse_reverse,
    String.ofList_toList]

namespace Purpose

variable {purpose other : Purpose} {name binding : String}

/-- A binding name is the last part of the name that it is read from. -/
theorem lastPart_of_bindingName? (hread : purpose.bindingName? name = some binding) :
    lastPart name = binding := by
  obtain ⟨rfl, _, hplain⟩ := bindingName?_eq_some_iff.mp hread
  exact lastPart_append_colon purpose.collectionNamespace hplain

/-- A binding name is read from a name for one purpose only. -/
theorem eq_of_isSome_bindingName? (hone : (purpose.bindingName? name).isSome = true)
    (htwo : (other.bindingName? name).isSome = true) : purpose = other := by
  by_contra hne
  obtain ⟨_, hread⟩ := Option.isSome_iff_exists.mp hone
  obtain ⟨_, hread'⟩ := Option.isSome_iff_exists.mp htwo
  obtain ⟨rfl, _⟩ := bindingName?_eq_some_iff.mp hread
  -- one of the two purposes is not that of every purpose, and its names are its own
  by_cases hevery : purpose = .allPurpose
  · have hother : other ≠ .allPurpose := fun heq => hne (hevery.trans heq.symm)
    obtain ⟨hname, _⟩ := bindingName?_eq_some_iff.mp hread'
    rw [hname, bindingName?_collectionName_of_ne hother hne] at hread
    cases hread
  · rw [bindingName?_collectionName_of_ne hevery (Ne.symm hne)] at hread'
    cases hread'

end Purpose

/-- A relationship that is found by its name is one of the prim, and has the name. -/
theorem Stage.mem_of_relationship? {stage : Stage} {prim : ScenePath} {name : String}
    {relationship : Relationship} (hfound : stage.relationship? prim name = some relationship) :
    relationship ∈ stage.relationships prim ∧ relationship.name = name := by
  have hname := List.find?_some hfound
  exact ⟨List.mem_of_find?_eq_some hfound, of_decide_eq_true hname⟩

/-! ## The six readers -/

/-- A way to find a relationship as a binding through its name. -/
inductive NameReader where
  /-- As the direct binding for the purpose. -/
  | direct (purpose : Purpose)
  /-- As the binding of a collection for the purpose. -/
  | collection (purpose : Purpose)
deriving DecidableEq

namespace NameReader

/-- The reader finds relationships of that name. -/
def recognises : NameReader → String → Bool
  | direct purpose, name => name == purpose.directName
  | collection purpose, name => (purpose.bindingName? name).isSome

/-- What the reader finds on a prim. -/
def found (stage : Stage) (prim : ScenePath) : NameReader → List Relationship
  | direct purpose => (stage.directRelationship? prim purpose).toList
  | collection purpose => stage.collectionRelationships prim purpose

variable {one two : NameReader} {purpose : Purpose} {name binding : String}

/-- A reader finds relationships of the prim whose names it recognises. -/
theorem recognises_of_mem_found (reader : NameReader) {stage : Stage} {prim : ScenePath}
    {relationship : Relationship} (hmem : relationship ∈ reader.found stage prim) :
    relationship ∈ stage.relationships prim ∧ reader.recognises relationship.name = true := by
  cases reader with
  | direct purpose =>
      obtain ⟨hheld, hname⟩ := Stage.mem_of_relationship? (Option.mem_toList.mp hmem)
      exact ⟨hheld, beq_iff_eq.mpr hname⟩
  | collection purpose => exact List.mem_filter.mp hmem

/-- What a reader finds depends on the relationships whose names it recognises. -/
theorem found_congr (reader : NameReader) {stage other : Stage} {prim : ScenePath}
    (hsame : (other.relationships prim).filter (fun r => reader.recognises r.name) =
      (stage.relationships prim).filter fun r => reader.recognises r.name) :
    reader.found other prim = reader.found stage prim := by
  cases reader with
  | direct purpose =>
      have hfirst : ∀ stage : Stage, (direct purpose).found stage prim =
          ((stage.relationships prim).filter fun r =>
            (direct purpose).recognises r.name).head?.toList := by
        intro stage
        rw [List.head?_filter]
        rfl
      rw [hfirst, hfirst, hsame]
  | collection purpose => exact hsame

/-- The reader of collection bindings for a purpose recognises the names that are made of a binding
name without colons, and no others. -/
theorem recognises_collection_iff :
    (collection purpose).recognises name = true ↔
      ∃ binding, name = purpose.collectionName binding ∧ binding ≠ "" ∧ ':' ∉ binding.toList := by
  simp only [recognises, Option.isSome_iff_exists, Purpose.bindingName?_eq_some_iff]

/-- **No name is recognised by two readers.** -/
theorem eq_of_recognises (hone : one.recognises name = true) (htwo : two.recognises name = true) :
    one = two := by
  have hapart : ∀ direct collection : Purpose, name = direct.directName →
      (collection.bindingName? name).isSome = true → False := by
    intro direct collection hname hread
    rw [hname, Purpose.bindingName?_directName] at hread
    cases hread
  cases one with
  | direct purpose =>
      have hname : name = purpose.directName := beq_iff_eq.mp hone
      cases two with
      | direct other => rw [Purpose.directName_inj.mp (hname.symm.trans (beq_iff_eq.mp htwo))]
      | collection other => exact (hapart purpose other hname htwo).elim
  | collection purpose =>
      cases two with
      | direct other => exact (hapart other purpose (beq_iff_eq.mp htwo) hone).elim
      | collection other => rw [Purpose.eq_of_isSome_bindingName? hone htwo]

end NameReader

/-! ## Bindings by the last part -/

namespace CollectionBinding

variable {purpose : Purpose} {relationship : Relationship} {binding : CollectionBinding}

/-- What a relationship has to be for it to be read as this collection binding. -/
theorem ofRelationship?_eq_some_iff :
    ofRelationship? purpose relationship = some binding ↔
      (binding.relationship = relationship ∧ binding.purpose = purpose) ∧
        purpose.bindingName? relationship.name = some binding.bindingName ∧
          relationship.targets = [binding.collectionPath, binding.materialPath] ∧
            binding.collectionPath.asCollection? =
              some (binding.owner, binding.collectionName) := by
  constructor
  · intro hread
    unfold ofRelationship? at hread
    split at hread
    next hname htargets =>
      split at hread
      next haddress =>
        obtain rfl := Option.some.inj hread
        exact ⟨⟨rfl, rfl⟩, hname, htargets, haddress⟩
      next => cases hread
    next => cases hread
  · rintro ⟨⟨rfl, rfl⟩, hname, htargets, haddress⟩
    simp only [ofRelationship?, hname, htargets, haddress]

/-- Reads the targets of a relationship of any name as a collection and a material, and takes the
last part of the name for the binding name. -/
def ofTargets? (purpose : Purpose) (relationship : Relationship) : Option CollectionBinding :=
  match relationship.targets with
  | [collectionPath, materialPath] =>
    match collectionPath.asCollection? with
    | some (owner, collectionName) =>
      some { relationship, purpose, bindingName := lastPart relationship.name, collectionPath,
             owner, collectionName, materialPath }
    | none => none
  | _ => none

/-- A binding that is read from targets alone has the last part of the name for its binding name. -/
theorem bindingName_of_ofTargets? (hread : ofTargets? purpose relationship = some binding) :
    binding.bindingName = lastPart relationship.name := by
  unfold ofTargets? at hread
  split at hread
  · split at hread
    · obtain rfl := Option.some.inj hread
      rfl
    · cases hread
  · cases hread

/-- **A recognised relationship is read from its targets**, and named by the last part. -/
theorem ofRelationship?_eq_ofTargets?
    (hname : (NameReader.collection purpose).recognises relationship.name = true) :
    ofRelationship? purpose relationship = ofTargets? purpose relationship := by
  obtain ⟨binding, hread⟩ := Option.isSome_iff_exists.mp hname
  unfold ofRelationship? ofTargets?
  rw [Purpose.lastPart_of_bindingName? hread, hread]
  cases relationship.targets with
  | nil => rfl
  | cons collectionPath rest =>
      cases rest with
      | nil => rfl
      | cons materialPath rest => cases rest <;> rfl

end CollectionBinding

/-- The bindings of collections are read in two steps: those relationships that have the name of one
are singled out, and then only the targets count. -/
theorem Stage.collectionBindings_eq_filterMap (stage : Stage) (prim : ScenePath)
    (purpose : Purpose) :
    stage.collectionBindings prim purpose =
      (stage.collectionRelationships prim purpose).filterMap
        (CollectionBinding.ofTargets? purpose) := by
  refine List.filterMap_congr fun relationship hmem => ?_
  exact CollectionBinding.ofRelationship?_eq_ofTargets?
    (NameReader.recognises_of_mem_found (.collection purpose) hmem).2

/-- **Relationship names decode unambiguously.**

* At most one of the six readers recognises a name.
* A binding name that is not empty and has no colon, be it `full`, `preview` or `collection`, makes
  for each purpose a name that the reader of collections for this purpose recognises and no other
  reader; and a relationship of that name is a collection binding under no other name, for whatever
  purpose its targets are read.
* A name that this reader recognises is made of exactly one such binding name.
* On a stage a reader finds only relationships of the prim whose names it recognises, and of those
  with the name of a collection binding only the targets count. -/
theorem names_decode_unambiguously :
    (∀ name, ∀ one two : NameReader,
      one.recognises name = true → two.recognises name = true → one = two) ∧
    (∀ (purpose : Purpose) (binding : String), binding ≠ "" → ':' ∉ binding.toList →
      (∀ reader : NameReader, reader.recognises (purpose.collectionName binding) = true ↔
        reader = .collection purpose) ∧
      ∀ relationship : Relationship, relationship.name = purpose.collectionName binding →
        CollectionBinding.ofRelationship? purpose relationship =
          CollectionBinding.ofTargets? purpose relationship ∧
        ∀ other read, CollectionBinding.ofTargets? other relationship = some read →
          read.bindingName = binding) ∧
    (∀ (purpose : Purpose) (name : String),
      (NameReader.collection purpose).recognises name = true →
        ∃! binding, name = purpose.collectionName binding ∧ binding ≠ "" ∧
          ':' ∉ binding.toList) ∧
    ∀ (stage : Stage) (prim : ScenePath),
      (∀ reader : NameReader, ∀ relationship ∈ reader.found stage prim,
        relationship ∈ stage.relationships prim ∧
          reader.recognises relationship.name = true) ∧
      ∀ purpose, stage.collectionBindings prim purpose =
        (stage.collectionRelationships prim purpose).filterMap
          (CollectionBinding.ofTargets? purpose) := by
  refine ⟨fun name one two => NameReader.eq_of_recognises, ?_, ?_, fun stage prim =>
    ⟨fun reader relationship => reader.recognises_of_mem_found,
      stage.collectionBindings_eq_filterMap prim⟩⟩
  · intro purpose binding hempty hplain
    have hown : (NameReader.collection purpose).recognises
        (purpose.collectionName binding) = true :=
      NameReader.recognises_collection_iff.mpr ⟨binding, rfl, hempty, hplain⟩
    refine ⟨fun reader => ⟨fun hreads => NameReader.eq_of_recognises hreads hown, ?_⟩, ?_⟩
    · rintro rfl
      exact hown
    · intro relationship hname
      refine ⟨CollectionBinding.ofRelationship?_eq_ofTargets? (by rwa [hname]), ?_⟩
      intro other read hread
      rw [CollectionBinding.bindingName_of_ofTargets? hread, hname]
      exact lastPart_append_colon purpose.collectionNamespace hplain
  · intro purpose name hreads
    obtain ⟨binding, hname, hempty, hplain⟩ := NameReader.recognises_collection_iff.mp hreads
    refine ⟨binding, ⟨hname, hempty, hplain⟩, fun other hother => ?_⟩
    exact Purpose.collectionName_inj.mp (hother.1.symm.trans hname)

/-- A stove that gives steel to its pans, in a binding for `preview` that is called `full`. -/
def panRelationship : Relationship where
  name := "material:binding:collection:preview:full"
  targets :=
    [.ofProperty .root ⟨"Stove", by decide⟩ ⟨"collection:pans", by decide⟩,
      .ofPrim (.child .root ⟨"Steel", by decide⟩)]

/-- It is found for `preview` alone, under the name `full` alone. -/
theorem panRelationship_is_full :
    (∀ reader : NameReader, reader.recognises panRelationship.name = true ↔
      reader = .collection .preview) ∧
    (∃ read, CollectionBinding.ofTargets? .preview panRelationship = some read ∧
      read.bindingName = "full") ∧
    ∃! binding, panRelationship.name = Purpose.preview.collectionName binding ∧ binding ≠ "" ∧
      ':' ∉ binding.toList := by
  have hname : panRelationship.name = Purpose.preview.collectionName "full" := by decide
  obtain ⟨_, hmade, hread, _⟩ := names_decode_unambiguously
  obtain ⟨hreaders, hbinding⟩ := hmade .preview "full" (by decide) (by decide)
  refine ⟨?_, ⟨_, rfl, (hbinding panRelationship hname).2 .preview _ rfl⟩, ?_⟩
  · rw [hname]
    exact hreaders
  · exact hread .preview panRelationship.name (by decide)

end MaterialBinding
