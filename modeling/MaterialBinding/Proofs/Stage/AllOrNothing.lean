import MaterialBinding.Proofs.Path.Prefix
import MaterialBinding.Proofs.Stage.InPlace

/-!
# Authoring is all or nothing

Which calls succeed can be read off the stage and the arguments: a prim is defined at any path that
is none of a property, and everything else is written on a prim below the root that is there, under
a name that a property may have (`putRelationship_ok_iff`, `defineCollection_ok_iff` and so on).

`AllOrNothing` adds what becomes of the stage if the call works on it in place: a call that succeeds
has written all, and a call that fails has written nothing.  `authoring_all_or_nothing` says so of
every call that can fail.
-/

namespace MaterialBinding

/-! ## Names of properties -/

/-- The names of direct bindings are property names. -/
theorem isPropertyName_directName (purpose : Purpose) :
    isPropertyName purpose.directName.toList = true := by
  cases purpose <;> decide

/-- The name of the relationship that binds a collection is a name if that of the binding is. -/
theorem isPropertyName_collectionName (purpose : Purpose) (binding : String) :
    isPropertyName (purpose.collectionName binding).toList = isPropertyName binding.toList := by
  have hlead : isPropertyName purpose.collectionNamespace.toList = true := by
    cases purpose <;> decide
  have hchars : (purpose.collectionName binding).toList =
      purpose.collectionNamespace.toList ++ ':' :: binding.toList := by
    simp [Purpose.collectionName]
  rw [hchars, isPropertyName_append_colon, hlead, Bool.true_and]

namespace Stage

variable {stage : Stage} {prim : ScenePath} {name : String}

/-! ## Which calls succeed -/

/-- There must be a prim below the root. -/
theorem requirePrim_ok_iff :
    stage.requirePrim prim = .ok () ↔ stage.hasPrim prim = true ∧ prim ≠ .root := by
  rw [requirePrim, ne_eq, ← ScenePath.isRoot_iff]
  cases prim.isRoot <;> cases stage.hasPrim prim <;> simp

/-- A prim below the root has properties of all names. -/
theorem exists_appendProperty_iff (hprim : stage.hasPrim prim = true) (hroot : prim ≠ .root) :
    (∃ property, prim.appendProperty name = .ok property) ↔
      isPropertyName name.toList = true := by
  rw [ScenePath.appendProperty_ok_iff, and_iff_right_iff_imp]
  intro _
  obtain ⟨place, property, hbare⟩ := prim
  cases property with
  | some property => simp [hasPrim, node?, ScenePath.isProperty] at hprim
  | none =>
      cases place with
      | root => exact absurd rfl hroot
      | child above last => exact ⟨above, last, rfl⟩

/-- What is written under a property name is written exactly on the prims below the root. -/
theorem appendProperty_requirePrim_iff :
    (∃ property, prim.appendProperty name = .ok property) ∧ stage.requirePrim prim = .ok () ↔
      (stage.hasPrim prim = true ∧ prim ≠ .root) ∧ isPropertyName name.toList = true := by
  rw [requirePrim_ok_iff, and_comm]
  exact and_congr_right fun hprim => exists_appendProperty_iff hprim.1 hprim.2

/-- A prim is defined at every path that is no property. -/
theorem definePrim_ok_iff {path : ScenePath} :
    (∃ changed, stage.definePrim path = .ok changed) ↔ path.isProperty = false := by
  rw [definePrim]
  cases path.isProperty <;> simp

/-- A relationship is put on a prim below the root under any property name. -/
theorem putRelationship_ok_iff {f : Relationship → Relationship} :
    (∃ changed, stage.putRelationship prim name f = .ok changed) ↔
      (stage.hasPrim prim = true ∧ prim ≠ .root) ∧ isPropertyName name.toList = true := by
  rw [← appendProperty_requirePrim_iff, putRelationship]
  cases prim.appendProperty name with
  | error cause => simp
  | ok property => cases stage.requirePrim prim <;> simp

/-- A collection is defined where it may be, and then it is put on the prim. -/
theorem defineCollection_eq_ok_iff {address : ScenePath} {after : Stage} {collection : Collection} :
    stage.defineCollection prim collection = .ok (address, after) ↔
      prim.collection collection.name = .ok address ∧
        (stage.hasPrim prim = true ∧ prim ≠ .root) ∧
          after = stage.modifyPrim prim (·.putCollection collection) := by
  rw [← requirePrim_ok_iff, defineCollection]
  cases prim.collection collection.name with
  | error cause => simp
  | ok made => cases stage.requirePrim prim <;> simp [eq_comm]

/-- A collection is defined on a prim below the root if its name can stand in an address. -/
theorem defineCollection_ok_iff {collection : Collection} :
    (∃ result, stage.defineCollection prim collection = .ok result) ↔
      (stage.hasPrim prim = true ∧ prim ≠ .root) ∧
        isPropertyName (Collection.nameLead ++ collection.name).toList = true := by
  rw [← appendProperty_requirePrim_iff, defineCollection, ScenePath.collection]
  cases prim.appendProperty (Collection.nameLead ++ collection.name) with
  | error cause => simp
  | ok address => cases stage.requirePrim prim <;> simp

/-- A collection is bound on a prim below the root if its path addresses a collection and the
binding name, or else its own, is a property name without colons. -/
theorem bindCollection_ok_iff {collection material : ScenePath} {bindingName : String}
    {strength : Strength} {purpose : Purpose} :
    (∃ changed, stage.bindCollection prim collection material bindingName strength purpose =
        .ok changed) ↔
      (stage.hasPrim prim = true ∧ prim ≠ .root) ∧
        ∃ owner collectionName, collection.asCollection? = some (owner, collectionName) ∧
          let effective := if bindingName = "" then collectionName else bindingName
          ':' ∉ effective.toList ∧ isPropertyName effective.toList = true := by
  rw [bindCollection]
  cases collection.asCollection? with
  | none => simp
  | some target =>
      obtain ⟨owner, collectionName⟩ := target
      simp only [Option.some.injEq, Prod.mk.injEq]
      have heffective : ∀ holds : String → Prop,
          (∃ owner' name', (owner = owner' ∧ collectionName = name') ∧
            holds (if bindingName = "" then name' else bindingName)) ↔
              holds (if bindingName = "" then collectionName else bindingName) := by
        intro holds
        constructor
        · rintro ⟨_, _, ⟨rfl, rfl⟩, hholds⟩
          exact hholds
        · intro hholds
          exact ⟨owner, collectionName, ⟨rfl, rfl⟩, hholds⟩
      rw [heffective fun effective =>
        ':' ∉ effective.toList ∧ isPropertyName effective.toList = true]
      generalize (if bindingName = "" then collectionName else bindingName) = effective
      by_cases hcolon : ':' ∈ effective.toList
      · simp [hcolon]
      · rw [if_neg hcolon, putRelationship_ok_iff, isPropertyName_collectionName]
        simp [hcolon]

/-- Metadata is set on a relationship that is there, on a prim below the root. -/
theorem setMetadata_ok_iff {key value : String} :
    (∃ changed, stage.setMetadata prim name key value = .ok changed) ↔
      (stage.hasPrim prim = true ∧ prim ≠ .root) ∧
        (stage.relationship? prim name).isSome = true := by
  rw [← requirePrim_ok_iff, setMetadata, modifyRelationship]
  cases stage.requirePrim prim with
  | error error => simp
  | ok _ => cases (stage.relationship? prim name).isSome <;> simp

/-! ## What becomes of the stage -/

/-- The call succeeds exactly under a condition, and it writes all of its result or nothing.
`result` is the stage that is written in one step. -/
structure AllOrNothing {α : Type} (stage : Stage) (call : InPlace α)
    (result : Except Error (α × Stage)) (admitted : Prop) : Prop where
  /-- The call succeeds exactly under the condition. -/
  succeeds_iff : (∃ value changed, call.attempt stage = (.ok value, changed)) ↔ admitted
  /-- A call that succeeds has written all. -/
  whole : ∀ value changed, result = .ok (value, changed) ↔
    call.attempt stage = (.ok value, changed)
  /-- A call that fails has written nothing. -/
  untouched : ∀ error after, call.attempt stage = (.error error, after) →
    after = stage ∧ result = .error error

/-- What ends as if it were written in one step is all or nothing. -/
theorem AllOrNothing.of_ending {α : Type} {call : InPlace α} {result : Except Error (α × Stage)}
    {admitted : Prop} (hcall : call.attempt stage = InPlace.ending stage result)
    (hadmitted : (∃ ended, result = .ok ended) ↔ admitted) :
    stage.AllOrNothing call result admitted := by
  have hwhole : ∀ value changed, result = .ok (value, changed) ↔
      call.attempt stage = (.ok value, changed) := by
    intro value changed
    rw [hcall]
    cases result <;> simp [InPlace.ending, Prod.ext_iff]
  refine ⟨?_, hwhole, ?_⟩
  · simp only [← hwhole, ← hadmitted, Prod.exists]
  · intro error after hattempt
    rw [hcall] at hattempt
    cases result with
    | error cause =>
        obtain ⟨hcause, hafter⟩ := Prod.mk.inj hattempt
        exact ⟨hafter.symm, congrArg Except.error (Except.error.inj hcause)⟩
    | ok ended => cases (Prod.mk.inj hattempt).1

/-- What is done with a result does not make it fail. -/
theorem exists_map_ok_iff {result : Except Error Stage} :
    (∃ ended, result.map (Prod.mk ()) = .ok ended) ↔ ∃ changed, result = .ok changed := by
  cases result <;> simp [Except.map]

/-- **Authoring is all or nothing.**  Each call that can fail succeeds under these conditions and
under no others, and a call that fails leaves the whole stage as it was.

* A prim is defined at every path that is none of a property.
* A relationship is written on a prim below the root, under the name of a property.
* A material is bound to a prim below the root.
* A collection is written on a prim below the root, if its address has the name of a property.
* A material is bound to a collection by a prim below the root, if the path is one of a collection
  and the name of the binding, its own or else that of the collection, is a name without a colon.
* Metadata is written on a relationship that is there. -/
theorem authoring_all_or_nothing (stage : Stage) :
    (∀ path, stage.AllOrNothing (InPlace.definePrim path)
      ((stage.definePrim path).map (Prod.mk ())) (path.isProperty = false)) ∧
    (∀ prim name targets, stage.AllOrNothing (InPlace.createRelationship prim name targets)
      ((stage.createRelationship prim name targets).map (Prod.mk ()))
      ((stage.hasPrim prim = true ∧ prim ≠ .root) ∧ isPropertyName name.toList = true)) ∧
    (∀ prim material strength purpose,
      stage.AllOrNothing (InPlace.bindMaterial prim material strength purpose)
        ((stage.bind prim material strength purpose).map (Prod.mk ()))
        (stage.hasPrim prim = true ∧ prim ≠ .root)) ∧
    (∀ prim collection, stage.AllOrNothing (InPlace.defineCollection prim collection)
      (stage.defineCollection prim collection)
      ((stage.hasPrim prim = true ∧ prim ≠ .root) ∧
        isPropertyName ("collection:" ++ collection.name).toList = true)) ∧
    (∀ prim collection material bindingName strength purpose,
      stage.AllOrNothing
        (InPlace.bindCollection prim collection material bindingName strength purpose)
        ((stage.bindCollection prim collection material bindingName strength purpose).map
          (Prod.mk ()))
        ((stage.hasPrim prim = true ∧ prim ≠ .root) ∧
          ∃ owner collectionName, collection.asCollection? = some (owner, collectionName) ∧
            let effective := if bindingName = "" then collectionName else bindingName
            ':' ∉ effective.toList ∧ isPropertyName effective.toList = true)) ∧
    ∀ prim name key value, stage.AllOrNothing (InPlace.setMetadata prim name key value)
      ((stage.setMetadata prim name key value).map (Prod.mk ()))
      ((stage.hasPrim prim = true ∧ prim ≠ .root) ∧
        (stage.relationship? prim name).isSome = true) := by
  refine ⟨?_, ?_, ?_, ?_, ?_, ?_⟩
  · intro path
    exact .of_ending (InPlace.attempt_definePrim path)
      (exists_map_ok_iff.trans definePrim_ok_iff)
  · intro prim name targets
    exact .of_ending (InPlace.attempt_createRelationship prim name targets)
      (exists_map_ok_iff.trans putRelationship_ok_iff)
  · intro prim material strength purpose
    have hbind : (∃ changed, stage.bind prim material strength purpose = .ok changed) ↔
        stage.hasPrim prim = true ∧ prim ≠ .root := by
      rw [bind, putRelationship_ok_iff, isPropertyName_directName, and_iff_left rfl]
    exact .of_ending (InPlace.attempt_bindMaterial prim material strength purpose)
      (exists_map_ok_iff.trans hbind)
  · intro prim collection
    exact .of_ending (InPlace.attempt_defineCollection prim collection) defineCollection_ok_iff
  · intro prim collection material bindingName strength purpose
    exact .of_ending
      (InPlace.attempt_bindCollection prim collection material bindingName strength purpose)
      (exists_map_ok_iff.trans bindCollection_ok_iff)
  · intro prim name key value
    exact .of_ending (InPlace.attempt_setMetadata prim name key value)
      (exists_map_ok_iff.trans setMetadata_ok_iff)

end Stage

end MaterialBinding
