import MaterialBinding.Proofs.Collection.Flattening

/-!
# How deep collections nest

Flattening goes from a collection to those that it includes, and never into one that it is inside
of.  Each collection that it enters on the way is on the stage, so the way down is no longer than
the list of all collections there are (`entriesOf_eq_of_nestingLimit_le`): the limit on the depth
is never what ends it.

So flattening depends on the collections whose addresses are reached through includes
(`Stage.Reaches`), and on nothing else of the stage, not even on how many other collections there
are (`compute_eq_of_reaches`).
-/

namespace MaterialBinding

/-- Steps that agree on the items of a list do the same to the list. -/
theorem mapM_congr_left {ε α β : Type} {f g : α → Except ε β} {items : List α}
    (h : ∀ item ∈ items, f item = g item) : items.mapM f = items.mapM g := by
  induction items with
  | nil => rfl
  | cons item items ih =>
      obtain ⟨hitem, hitems⟩ := List.forall_mem_cons.mp h
      rw [List.mapM_cons, List.mapM_cons, hitem, ih hitems]

namespace ScenePath

variable {one other path : ScenePath} {owner : PrimPath} {name : String}

/-- The address of a collection is a property of its owner, with a name made of that of the
collection. -/
theorem property_of_asCollection? (haddress : path.asCollection? = some (owner, name)) :
    path.prim = owner ∧
      ∃ property, path.property = some property ∧ property.text = Collection.nameLead ++ name := by
  rw [asCollection?] at haddress
  split at haddress
  next => cases haddress
  next property hproperty =>
    split at haddress
    next => cases haddress
    next => cases haddress
    next rest _ hlead =>
      obtain ⟨rfl, rfl⟩ := Prod.mk.inj (Option.some.inj haddress)
      refine ⟨rfl, property, hproperty, ?_⟩
      have htext := List.isPrefixOf?_eq_some_iff_append_eq.mp hlead
      rw [← String.toList_inj, String.toList_append, String.toList_ofList, htext]

/-- An address is known by its owner and its name. -/
theorem asCollection?_inj {target : PrimPath × String} (hone : one.asCollection? = some target)
    (hother : other.asCollection? = some target) : one = other := by
  obtain ⟨hprim, property, hproperty, htext⟩ := property_of_asCollection? hone
  obtain ⟨hprim', property', hproperty', htext'⟩ := property_of_asCollection? hother
  have hsame : property = property' := PropertyName.text_inj.mp (htext.trans htext'.symm)
  refine ScenePath.ext (hprim.trans hprim'.symm) ?_
  rw [hproperty, hproperty', hsame]

end ScenePath

/-! ## All collections of a tree -/

namespace Siblings

variable {above : PrimPath} {tree : Siblings}

/-- The owners and names of the collections on the prims below `above`. -/
def collectionPlaces (above : PrimPath) : Siblings → List (PrimPath × String)
  | nil => []
  | cons name prim children rest =>
    prim.collections.map (fun collection => (above.child name, collection.name)) ++
      (children.collectionPlaces (above.child name) ++ rest.collectionPlaces above)

/-- There are as many places as collections. -/
theorem length_collectionPlaces :
    (tree.collectionPlaces above).length = tree.collectionCount := by
  induction tree generalizing above with
  | nil => rfl
  | cons name prim children rest ihchildren ihrest =>
      rw [collectionPlaces, List.length_append, List.length_append, List.length_map, ihchildren,
        ihrest, collectionCount, Nat.add_assoc]

/-- What is listed for a node with what is below it. -/
def nodePlaces (place : PrimPath) (node : Node) : List (PrimPath × String) :=
  node.prim.collections.map (fun collection => (place, collection.name)) ++
    node.children.collectionPlaces place

/-- What is listed for one of the siblings is listed for all of them together. -/
theorem nodePlaces_subset_of_find? {name : PrimName} {node : Node}
    (hfind : tree.find? name = some node) :
    nodePlaces (above.child name) node ⊆ tree.collectionPlaces above := by
  induction tree with
  | nil => cases hfind
  | cons other prim children rest _ ih =>
      rw [collectionPlaces, ← List.append_assoc]
      by_cases hname : other = name
      · subst hname
        rw [find?_cons_self] at hfind
        obtain rfl := Option.some.inj hfind
        exact List.subset_append_left _ _
      · rw [find?_cons_of_ne hname] at hfind
        exact List.Subset.trans (ih hfind) (List.subset_append_right _ _)

/-- The collections of every prim of a tree are listed. -/
theorem nodePlaces_subset {path : PrimPath} {node : Node} (hnode : tree.node? path = some node) :
    nodePlaces path node ⊆ tree.collectionPlaces .root := by
  induction path generalizing node with
  | root =>
      obtain rfl := Option.some.inj hnode
      exact List.Subset.refl _
  | child above name ih =>
      obtain ⟨parent, hparent, hfind⟩ := Option.bind_eq_some_iff.mp hnode
      have hparentPlaces := ih hparent
      exact List.Subset.trans (nodePlaces_subset_of_find? hfind)
        (List.Subset.trans (List.subset_append_right _ _) hparentPlaces)

end Siblings

namespace Stage

variable {stage : Stage} {address item : ScenePath} {collection : Collection}

/-- The owners and names of all collections on the stage. -/
def collectionPlaces (stage : Stage) : List (PrimPath × String) :=
  stage.tree.collectionPlaces .root

theorem length_collectionPlaces :
    stage.collectionPlaces.length = stage.tree.collectionCount :=
  Siblings.length_collectionPlaces

/-- There is a collection at an address if the path addresses one that its owner has. -/
theorem collectionAt?_eq_some_iff :
    stage.collectionAt? address = some collection ↔
      ∃ owner name, address.asCollection? = some (owner, name) ∧
        stage.collection? owner name = some collection := by
  rw [collectionAt?]
  cases address.asCollection? with
  | none => simp
  | some target => simp [Prod.ext_iff]

/-- The address of a collection that the stage has is listed. -/
theorem exists_mem_collectionPlaces (hat : stage.collectionAt? address = some collection) :
    ∃ target ∈ stage.collectionPlaces, address.asCollection? = some target := by
  obtain ⟨owner, name, haddress, hfind⟩ := collectionAt?_eq_some_iff.mp hat
  refine ⟨(owner, name), ?_, haddress⟩
  have hname : collection.name = name := by simpa using List.find?_some hfind
  have hmem : collection ∈ stage.collections owner := List.mem_of_find?_eq_some hfind
  rw [collections, prim] at hmem
  cases hnode : stage.node? owner with
  | none =>
      rw [hnode] at hmem
      cases hmem
  | some node =>
      rw [hnode] at hmem
      have hlisted : Siblings.nodePlaces owner node ⊆ stage.collectionPlaces :=
        Siblings.nodePlaces_subset hnode
      refine hlisted (List.mem_append_left _ (List.mem_map.mpr ⟨collection, hmem, ?_⟩))
      rw [hname]

/-- Flattening from the address on asks which collection has the other address. -/
inductive Reaches (stage : Stage) : ScenePath → ScenePath → Prop
  | here (address : ScenePath) : Reaches stage address address
  | onward {address item other : ScenePath} {collection : Collection}
      (hat : stage.collectionAt? address = some collection) (hmem : item ∈ collection.includes)
      (hrest : Reaches stage item other) : Reaches stage address other

end Stage

namespace MemberRules

variable {stage other : Stage} {depth depth' : Nat} {inside : List ScenePath}
  {address : ScenePath} {collection : Collection}

/-- The places in the list whose collections flattening is not inside of. -/
def unentered (places : List (PrimPath × String)) (inside : List ScenePath) :
    List (PrimPath × String) :=
  places.filter fun place => place ∉ inside.filterMap ScenePath.asCollection?

/-- Entering a collection takes its place off those that are still to enter. -/
theorem unentered_cons {place : PrimPath × String} (haddress : address.asCollection? = some place)
    (places : List (PrimPath × String)) (inside : List ScenePath) :
    unentered places (address :: inside) = (unentered places inside).filter (· ≠ place) := by
  rw [unentered, unentered, List.filter_filter, List.filterMap_cons_some haddress]
  refine List.filter_congr fun other _ => ?_
  simp

/-- Entering one more collection of the list leaves fewer. -/
theorem length_unentered_cons_lt {places : List (PrimPath × String)} {place : PrimPath × String}
    (haddress : address.asCollection? = some place) (hplace : place ∈ places)
    (hinside : address ∉ inside) :
    (unentered places (address :: inside)).length < (unentered places inside).length := by
  rw [unentered_cons haddress, List.length_filter_lt_length_iff_exists]
  refine ⟨place, List.mem_filter.mpr ⟨hplace, ?_⟩, by simp⟩
  have hnew : place ∉ inside.filterMap ScenePath.asCollection? := by
    intro hmem
    obtain ⟨other, hother, hsame⟩ := List.mem_filterMap.mp hmem
    exact hinside (ScenePath.asCollection?_inj haddress hsame ▸ hother)
  exact decide_eq_true hnew

/-! ## Flattening again -/

/-- An include is flattened the same if it addresses the same collection, and that is. -/
theorem includedEntries_congr {item : ScenePath} {rule : Rule}
    (hat : other.collectionAt? item = stage.collectionAt? item)
    (hnested : ∀ nested, stage.collectionAt? item = some nested →
      entriesOf other depth' inside item nested = entriesOf stage depth inside item nested) :
    includedEntries other depth' inside rule item =
      includedEntries stage depth inside rule item := by
  rw [includedEntries, includedEntries, hat]
  cases hitem : stage.collectionAt? item with
  | none => rfl
  | some nested => simp only [hnested nested hitem]

/-- A collection is flattened the same if its includes are. -/
theorem entriesOf_succ_congr
    (hincluded : address ∉ inside → ∀ item ∈ collection.includes, ∀ rule,
      includedEntries other depth' (address :: inside) rule item =
        includedEntries stage depth (address :: inside) rule item) :
    entriesOf other (depth' + 1) inside address collection =
      entriesOf stage (depth + 1) inside address collection := by
  rw [entriesOf_succ, entriesOf_succ]
  split_ifs with hinside
  · rfl
  · rw [mapM_congr_left fun item hmem => hincluded hinside item hmem _]

/-- Inside of a collection on the stage, any depth that exceeds the number of collections still to
enter gives the same. -/
theorem entriesOf_eq_of_unentered_lt {place : PrimPath × String}
    (haddress : address.asCollection? = some place) (hplace : place ∈ stage.collectionPlaces)
    (hdeep : (unentered stage.collectionPlaces inside).length < depth)
    (hdeep' : (unentered stage.collectionPlaces inside).length < depth') :
    entriesOf stage depth' inside address collection =
      entriesOf stage depth inside address collection := by
  induction depth generalizing depth' inside address collection place with
  | zero => omega
  | succ depth ih =>
      obtain ⟨depth', rfl⟩ := Nat.exists_eq_add_of_lt (Nat.zero_lt_of_lt hdeep')
      rw [Nat.zero_add] at hdeep' ⊢
      refine entriesOf_succ_congr fun hinside item _ rule => ?_
      have hfewer := length_unentered_cons_lt haddress hplace hinside
      refine includedEntries_congr rfl fun nested hat => ?_
      obtain ⟨target, htarget, hitem⟩ := Stage.exists_mem_collectionPlaces hat
      exact ih hitem htarget (by omega) (by omega)

/-- **The depth never ends the flattening.**  Any depth beyond the limit of the stage gives the
same, for a collection on the stage or not. -/
theorem entriesOf_eq_of_nestingLimit_le (hdeep : stage.nestingLimit ≤ depth) :
    entriesOf stage depth [] address collection =
      entriesOf stage stage.nestingLimit [] address collection := by
  obtain ⟨more, rfl⟩ := Nat.exists_eq_add_of_le hdeep
  have hlength : (unentered stage.collectionPlaces [address]).length ≤
      stage.tree.collectionCount := by
    rw [← Stage.length_collectionPlaces]
    exact List.length_filter_le _ _
  rw [Stage.nestingLimit, Nat.add_right_comm _ 2 more]
  refine entriesOf_succ_congr fun _ item _ rule => ?_
  refine includedEntries_congr rfl fun nested hat => ?_
  obtain ⟨target, htarget, hitem⟩ := Stage.exists_mem_collectionPlaces hat
  exact entriesOf_eq_of_unentered_lt hitem htarget (by omega) (by omega)

/-- Flattening depends on those collections only that can be reached from the includes. -/
theorem entriesOf_eq_of_reaches
    (hsame : ∀ item ∈ collection.includes, ∀ reached, stage.Reaches item reached →
      other.collectionAt? reached = stage.collectionAt? reached) :
    entriesOf other depth inside address collection =
      entriesOf stage depth inside address collection := by
  induction depth generalizing inside address collection with
  | zero => rfl
  | succ depth ih =>
      refine entriesOf_succ_congr fun _ item hmem rule => ?_
      refine includedEntries_congr (hsame item hmem item (.here item)) fun nested hat => ?_
      exact ih fun inner hinner reached hreached =>
        hsame item hmem reached (.onward hat hinner hreached)

/-- **What a collection is made of.**  Two stages flatten it the same if they have the same
collections at all addresses that are reached from its includes. -/
theorem compute_eq_of_reaches
    (hsame : ∀ item ∈ collection.includes, ∀ reached, stage.Reaches item reached →
      other.collectionAt? reached = stage.collectionAt? reached) (owner : ScenePath) :
    compute other owner collection = compute stage owner collection := by
  rw [compute, compute]
  cases owner.collection collection.name with
  | error cause => rfl
  | ok address =>
      have hentries : entriesOf other other.nestingLimit [] address collection =
          entriesOf stage stage.nestingLimit [] address collection :=
        calc entriesOf other other.nestingLimit [] address collection
            = entriesOf other (max other.nestingLimit stage.nestingLimit) [] address collection :=
              (entriesOf_eq_of_nestingLimit_le (Nat.le_max_left _ _)).symm
          _ = entriesOf stage (max other.nestingLimit stage.nestingLimit) [] address collection :=
              entriesOf_eq_of_reaches hsame
          _ = entriesOf stage stage.nestingLimit [] address collection :=
              entriesOf_eq_of_nestingLimit_le (Nat.le_max_right _ _)
      simp only [hentries]

end MemberRules

end MaterialBinding
