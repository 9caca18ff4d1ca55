import MaterialBinding.Proofs.Path.Cuts
import MaterialBinding.Proofs.Stage.Frame

/-!
# The addresses of collections

The address of a collection is a property of its owner, with the namespace of collections before
the name.  Making an address and taking it apart are inverse (`collection_eq_ok_iff`), on the texts
as on the paths (`collection?_eq_some_iff`).  Of a name that has colons, or begins with the
namespace itself, nothing but the one namespace before it is taken off.

So a collection that is defined is found at its address, and all other addresses lead to what they
led to before.  On its owner it stands in the place of the former one of its name, or else behind
all others (`Collection.Placed`).
-/

namespace MaterialBinding

namespace ScenePath

variable {owner address : ScenePath} {name : String} {property : PropertyName}

/-- A property with the namespace before its name addresses a collection; a bare namespace is the
name of no property. -/
theorem asCollection?_of_property (hproperty : address.property = some property)
    (htext : property.text = Collection.nameLead ++ name) :
    address.asCollection? = some (address.prim, name) := by
  have hrest : Collection.nameLead.toList.isPrefixOf? property.text.toList = some name.toList := by
    rw [List.isPrefixOf?_eq_some_iff_append_eq, htext, String.toList_append]
  have hsome : name.toList ≠ [] := by
    intro hnil
    have hname := property.well_formed
    have hbare : isPropertyName Collection.nameLead.toList = false := by decide
    rw [htext, String.toList_append, hnil, List.append_nil, hbare] at hname
    cases hname
  rw [asCollection?, hproperty]
  simp only [hrest]
  rw [String.ofList_toList]

/-- **Making an address and taking it apart** are inverse. -/
theorem collection_eq_ok_iff :
    owner.collection name = .ok address ↔
      ∃ place, owner = .ofPrim place ∧ address.asCollection? = some (place, name) := by
  constructor
  · intro hmade
    obtain ⟨howner, _, hprim, property, hproperty, htext⟩ := fields_of_appendProperty hmade
    refine ⟨owner.prim, howner, ?_⟩
    rw [← hprim]
    exact asCollection?_of_property hproperty htext
  · intro hapart
    obtain ⟨place, rfl, haddress⟩ := hapart
    obtain ⟨rfl, property, hproperty, htext⟩ := property_of_asCollection? haddress
    rw [collection, ← htext]
    exact appendProperty_of_property hproperty

/-- Only the first namespace is taken off. -/
example :
    let desk : PrimPath := .child .root ⟨"Desk", by decide⟩
    ((ofPrim desk).collection "collection:Pens").toOption.bind asCollection? =
      some (desk, "collection:Pens") := by
  decide

/-- The texts of owner and address are made of each other likewise, by writing on the one and
cutting the other. -/
theorem collection?_eq_some_iff :
    PathText.collection? owner.chars name = some address.chars ↔
      PathText.asCollection? address.chars = some (owner.chars, name.toList) := by
  have hmade := (PathText.describes_chars owner).step_eq (.collection name)
  have hapart := (PathText.describes_chars address).asCollection_eq
  have hplace : (∃ place, owner = .ofPrim place ∧ address.asCollection? = some (place, name)) ↔
      address.asCollection?.map (fun found => ((ofPrim found.1).chars, found.2.toList)) =
        some (owner.chars, name.toList) := by
    rw [Option.map_eq_some_iff]
    constructor
    · intro hpaths
      obtain ⟨place, rfl, haddress⟩ := hpaths
      exact ⟨(place, name), haddress, rfl⟩
    · intro htexts
      obtain ⟨⟨place, found⟩, haddress, htexts⟩ := htexts
      obtain ⟨hchars, hname⟩ := Prod.mk.inj htexts
      obtain rfl := String.toList_inj.mp hname
      exact ⟨place, (chars_inj hchars).symm, haddress⟩
  rw [← hapart, ← hplace, ← collection_eq_ok_iff]
  change PathStep.text? owner.chars (.collection name) = _ ↔ _
  rw [← hmade, PathStep.path?]
  cases owner.collection name with
  | error cause => simp [Except.toOption]
  | ok made =>
      constructor
      · intro hchars
        rw [chars_inj (Option.some.inj hchars)]
      · intro hok
        obtain rfl := Except.ok.inj hok
        rfl

end ScenePath

/-! ## The list of collections -/

/-- A collection stands among others: in the place of the former one of its name, or else behind all
of them. -/
inductive Collection.Placed (collection : Collection) : List Collection → List Collection → Prop
  | replaced {former : Collection} (before after : List Collection)
      (hname : former.name = collection.name)
      (hfirst : ∀ other ∈ before, other.name ≠ collection.name) :
      Placed collection (before ++ former :: after) (before ++ collection :: after)
  | appended {others : List Collection} (hnew : ∀ other ∈ others, other.name ≠ collection.name) :
      Placed collection others (others ++ [collection])

namespace Prim

variable {collection : Collection} {collections : List Collection}

/-- Putting a collection changes the one of its name in its place, or adds it as the last. -/
theorem placed_putCollectionIn (collection : Collection) (collections : List Collection) :
    collection.Placed collections (putCollectionIn collection collections) := by
  induction collections with
  | nil => exact .appended nofun
  | cons other rest ih =>
      rw [putCollectionIn]
      by_cases hname : other.name = collection.name
      · rw [if_pos hname]
        exact .replaced [] rest hname nofun
      · rw [if_neg hname]
        generalize putCollectionIn collection rest = after at ih ⊢
        cases ih with
        | replaced before after hformer hfirst =>
            exact .replaced (other :: before) after hformer
              (List.forall_mem_cons.mpr ⟨hname, hfirst⟩)
        | appended hnew => exact .appended (List.forall_mem_cons.mpr ⟨hname, hnew⟩)

end Prim

/-- What stands among others is found there under its name. -/
theorem Collection.Placed.find?_eq {collection : Collection} {before after : List Collection}
    (hplaced : collection.Placed before after) :
    after.find? (·.name = collection.name) = some collection := by
  have hpassed : ∀ {others : List Collection}, (∀ other ∈ others, other.name ≠ collection.name) →
      others.find? (·.name = collection.name) = none := by
    intro others hothers
    rw [List.find?_eq_none]
    simpa using hothers
  cases hplaced with
  | replaced before after _ hfirst => simp [hpassed hfirst]
  | appended hnew => simp [hpassed hnew]

namespace Stage

/-- A collection is defined on each prim where it has an address, and on no other. -/
theorem exists_defineCollection_iff {stage : Stage} {owner : ScenePath} {collection : Collection} :
    (∃ result, stage.defineCollection owner collection = .ok result) ↔
      stage.hasPrim owner = true ∧ ∃ address, owner.collection collection.name = .ok address := by
  constructor
  · intro hdefined
    obtain ⟨⟨address, after⟩, hdefine⟩ := hdefined
    obtain ⟨haddress, ⟨hprim, _⟩, _⟩ := defineCollection_eq_ok_iff.mp hdefine
    exact ⟨hprim, address, haddress⟩
  · intro hholds
    obtain ⟨hprim, address, haddress⟩ := hholds
    obtain ⟨_, hheld, _⟩ := ScenePath.fields_of_appendProperty haddress
    have hroot : owner ≠ .root := fun heq => hheld (congrArg ScenePath.prim heq)
    exact ⟨_, defineCollection_eq_ok_iff.mpr ⟨haddress, ⟨hprim, hroot⟩, rfl⟩⟩

/-- **Collections are addressed without ambiguity.**  An address is made of one owner and one name,
and they are what it is taken apart into; the same is done with the texts.  A collection that is
defined is found at its address, and nothing else changes what addresses lead to.  On its owner the
other collections stay in their order, and the lists of all other prims stay as they are. -/
theorem collections_unambiguous (stage : Stage) :
    (∀ (owner : ScenePath) (name : String) (address : ScenePath),
      (owner.collection name = .ok address ↔
        ∃ place, owner = .ofPrim place ∧ address.asCollection? = some (place, name)) ∧
      (PathText.collection? owner.chars name = some address.chars ↔
        PathText.asCollection? address.chars = some (owner.chars, name.toList))) ∧
    ∀ (owner : ScenePath) (collection : Collection),
      ((∃ result, stage.defineCollection owner collection = .ok result) ↔
        stage.hasPrim owner = true ∧ ∃ address, owner.collection collection.name = .ok address) ∧
      ∀ (address : ScenePath) (after : Stage),
        stage.defineCollection owner collection = .ok (address, after) →
          owner.collection collection.name = .ok address ∧
          after.collectionAt? address = some collection ∧
          (∀ other, other ≠ address → after.collectionAt? other = stage.collectionAt? other) ∧
          collection.Placed (stage.collections owner) (after.collections owner) ∧
          ∀ other, other ≠ owner → after.collections other = stage.collections other := by
  refine ⟨fun owner name address => ?_, fun owner collection => ⟨exists_defineCollection_iff, ?_⟩⟩
  · exact ⟨ScenePath.collection_eq_ok_iff, ScenePath.collection?_eq_some_iff⟩
  intro address after hdefine
  obtain ⟨haddress, ⟨hprim, hroot⟩, hafter⟩ := defineCollection_eq_ok_iff.mp hdefine
  have hprims := prim_modifyPrim hprim hroot (·.putCollection collection)
  rw [← hafter] at hprims
  have hplaced : collection.Placed (stage.collections owner) (after.collections owner) := by
    rw [collections, collections, hprims owner, if_pos rfl]
    exact Prim.placed_putCollectionIn collection (stage.prim owner).collections
  refine ⟨haddress, ?_, fun other hother => ?_, hplaced, fun other hother => ?_⟩
  · obtain ⟨place, rfl, hapart⟩ := ScenePath.collection_eq_ok_iff.mp haddress
    rw [collectionAt?, hapart]
    exact hplaced.find?_eq
  · have hframe : ((Edit.defineCollection owner collection).run stage).collectionAt? other =
        stage.collectionAt? other := by
      apply collectionAt?_defineCollection
      intro made hmade
      rw [haddress] at hmade
      exact Except.ok.inj hmade ▸ hother
    rwa [Edit.run, hdefine] at hframe
  · rw [collections, collections, hprims other, if_neg hother]

end Stage

end MaterialBinding
