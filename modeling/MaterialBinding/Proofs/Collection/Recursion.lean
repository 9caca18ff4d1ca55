import MaterialBinding.Proofs.Collection.Nesting

/-!
# Flattening without a limit

Flattening a collection calls for the flattening of the collections that it includes, with its own
address added to those it is inside of.  It keeps no record of what it has been through, so the same
collection may be flattened many times.  It ends all the same (`Turn.wellFounded_calls`): each call
leaves fewer collections to enter.

The limit on the depth is not needed for this.  `entriesOf_nestingLimit` is the recursion with the
limit taken out; `exists_nested_of_error` and `exists_entries_of_ok` say what the failure and the
success of a flattening mean for the collections that it calls for.
-/

namespace MaterialBinding

section Steps

variable {ε α β : Type} {items : List α} {error : ε}

/-- Two computations after one another fail where the first one fails, or else where the second one
does. -/
theorem bind_eq_error {x : Except ε α} {f : α → Except ε β} :
    x >>= f = .error error ↔ x = .error error ∨ ∃ a, x = .ok a ∧ f a = .error error := by
  cases x <;> simp [bind, Except.bind]

variable {f : α → Except ε β}

/-- A walk through a list fails at one of the items. -/
theorem exists_of_mapM_eq_error (hfails : items.mapM f = .error error) :
    ∃ item ∈ items, f item = .error error := by
  induction items with
  | nil => cases hfails
  | cons item items ih =>
      rw [List.mapM_cons] at hfails
      rcases bind_eq_error.mp hfails with hitem | ⟨result, _, hrest⟩
      · exact ⟨item, List.mem_cons_self .., hitem⟩
      · rcases bind_eq_error.mp hrest with hitems | ⟨results, _, hdone⟩
        · obtain ⟨other, hmem, hother⟩ := ih hitems
          exact ⟨other, List.mem_cons_of_mem _ hmem, hother⟩
        · cases hdone

/-- A walk through a list that succeeds has a result for each item. -/
theorem exists_of_mapM_eq_ok {results : List β} (hsucceeds : items.mapM f = .ok results) {item : α}
    (hmem : item ∈ items) : ∃ result, f item = .ok result := by
  have hall := mapM_eq_ok_iff.mp hsucceeds
  obtain ⟨index, hindex, rfl⟩ := List.mem_iff_getElem.mp hmem
  exact ⟨_, hall.get hindex (hall.length_eq ▸ hindex)⟩

end Steps

namespace MemberRules

variable {stage : Stage} {inside : List ScenePath} {address item : ScenePath}
  {collection nested : Collection} {entries : List (ScenePath × Rule)} {error : Error}

/-! ## Why it ends -/

/-- A collection that is to be flattened, inside of others. -/
structure Turn where
  /-- The addresses of the collections around it. -/
  inside : List ScenePath
  /-- The address of the collection. -/
  address : ScenePath
  /-- The collection itself. -/
  collection : Collection

/-- To flatten one collection, another one is flattened: it is included, and it is on the stage.
The collection that was called for comes first. -/
inductive Turn.Calls (stage : Stage) : Turn → Turn → Prop
  | intro {inside : List ScenePath} {address item : ScenePath} {collection nested : Collection}
      (hnew : address ∉ inside) (hmem : item ∈ collection.includes)
      (hat : stage.collectionAt? item = some nested) :
      Calls stage ⟨address :: inside, item, nested⟩ ⟨inside, address, collection⟩

/-- From a collection on the stage the calls end, since each of them enters one more. -/
theorem Turn.acc_of_mem {turn : Turn} {place : PrimPath × String}
    (haddress : turn.address.asCollection? = some place) (hplace : place ∈ stage.collectionPlaces) :
    Acc (Turn.Calls stage) turn := by
  induction hleft : (unentered stage.collectionPlaces turn.inside).length
    using Nat.strongRecOn generalizing turn place with
  | ind left ih =>
      refine ⟨turn, fun called hcall => ?_⟩
      cases hcall with
      | intro hnew hmem hat =>
          obtain ⟨target, htarget, hitem⟩ := Stage.exists_mem_collectionPlaces hat
          have hfewer := length_unentered_cons_lt haddress hplace hnew
          exact ih _ (hleft ▸ hfewer) hitem htarget rfl

/-- **Flattening ends**: no chain of calls goes on forever, wherever it starts. -/
theorem Turn.wellFounded_calls (stage : Stage) : WellFounded (Turn.Calls stage) := by
  refine ⟨fun turn => ⟨turn, fun called hcall => ?_⟩⟩
  cases hcall with
  | intro hnew hmem hat =>
      obtain ⟨target, htarget, hitem⟩ := Stage.exists_mem_collectionPlaces hat
      exact acc_of_mem hitem htarget

/-! ## The recursion itself -/

/-- **The limit taken out.**  With the limit of the stage a collection is flattened by flattening
its includes with the same limit. -/
theorem entriesOf_nestingLimit (stage : Stage) (inside : List ScenePath) (address : ScenePath)
    (collection : Collection) :
    entriesOf stage stage.nestingLimit inside address collection =
      if address ∈ inside then .error (.collectionCycle address)
      else
        collection.includes.mapM (includedEntries stage stage.nestingLimit (address :: inside)
            (.included collection.expansionRule)) >>= fun included =>
          .ok (rootEntries collection ++ included.flatten ++ excludedEntries collection) := by
  have hcount : (unentered stage.collectionPlaces (address :: inside)).length ≤
      stage.tree.collectionCount := by
    rw [← Stage.length_collectionPlaces]
    exact List.length_filter_le _ _
  have hincluded : ∀ item rule,
      includedEntries stage (stage.tree.collectionCount + 1) (address :: inside) rule item =
        includedEntries stage stage.nestingLimit (address :: inside) rule item := by
    intro item rule
    refine includedEntries_congr rfl fun nested hat => ?_
    obtain ⟨target, htarget, hitem⟩ := Stage.exists_mem_collectionPlaces hat
    refine entriesOf_eq_of_unentered_lt hitem htarget ?_ (by omega)
    rw [Stage.nestingLimit]
    omega
  have hlimit : stage.nestingLimit = stage.tree.collectionCount + 1 + 1 := rfl
  conv_lhs => rw [hlimit, entriesOf_succ]
  rw [mapM_congr_left fun item _ => hincluded item _]

/-- A flattening that fails, and not because its own collection is entered again, calls for one that
fails. -/
theorem exists_nested_of_error (hnew : address ∉ inside)
    (hfails : entriesOf stage stage.nestingLimit inside address collection = .error error) :
    ∃ item ∈ collection.includes, ∃ nested, stage.collectionAt? item = some nested ∧
      entriesOf stage stage.nestingLimit (address :: inside) item nested = .error error := by
  rw [entriesOf_nestingLimit, if_neg hnew] at hfails
  rcases bind_eq_error.mp hfails with hwalk | ⟨included, _, hdone⟩
  · obtain ⟨item, hmem, hitem⟩ := exists_of_mapM_eq_error hwalk
    cases hat : stage.collectionAt? item with
    | some nested =>
        rw [includedEntries_of_collectionAt? hat] at hitem
        exact ⟨item, hmem, nested, hat, hitem⟩
    | none =>
        rw [includedEntries, hat] at hitem
        split at hitem <;> cases hitem
  · cases hdone

/-- A flattening that succeeds enters no collection again, and all that it calls for succeed. -/
theorem exists_entries_of_ok
    (hsucceeds : entriesOf stage stage.nestingLimit inside address collection = .ok entries) :
    address ∉ inside ∧ ∀ item ∈ collection.includes, ∀ nested,
      stage.collectionAt? item = some nested →
        ∃ part, entriesOf stage stage.nestingLimit (address :: inside) item nested = .ok part := by
  rw [entriesOf_nestingLimit] at hsucceeds
  split_ifs at hsucceeds with hnew
  · refine ⟨hnew, fun item hmem nested hat => ?_⟩
    obtain ⟨included, hwalk, _⟩ := bind_eq_ok.mp hsucceeds
    obtain ⟨part, hpart⟩ := exists_of_mapM_eq_ok hwalk hmem
    rw [includedEntries_of_collectionAt? hat] at hpart
    exact ⟨part, hpart⟩

end MemberRules

end MaterialBinding
