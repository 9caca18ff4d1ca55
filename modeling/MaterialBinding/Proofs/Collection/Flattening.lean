import MaterialBinding.Collection.Membership
import MaterialBinding.Proofs.Description.Checked

/-!
# Flattening a collection

A collection is flattened include by include (`entriesOf_succ`): an include that addresses no
collection gives itself, one that addresses a collection on the stage gives the entries of that
collection, and one that addresses a missing collection gives nothing.

The stage is only asked which collections have which addresses, so two stages that agree on this
flatten alike (`compute_congr`).
-/

namespace MaterialBinding

namespace MemberRules

variable {stage : Stage} {depth : Nat} {inside : List ScenePath} {address path : ScenePath}
  {collection : Collection}

/-- What one include of a collection gives; `rule` is that of the collection. -/
def includedEntries (stage : Stage) (depth : Nat) (inside : List ScenePath) (rule : Rule)
    (path : ScenePath) : Except Error (List (ScenePath × Rule)) :=
  if path.asCollection?.isNone then .ok [(path, rule)]
  else
    match stage.collectionAt? path with
    | some nested => entriesOf stage depth inside path nested
    | none => .ok []

/-- The entry that a collection makes for the root. -/
def rootEntries (collection : Collection) : List (ScenePath × Rule) :=
  if collection.includeRoot then [(.root, .included collection.expansionRule)] else []

/-- The entries that a collection makes for its excludes. -/
def excludedEntries (collection : Collection) : List (ScenePath × Rule) :=
  collection.excludes.map fun path => (path, .excluded)

/-- A collection gives its own entry for the root, then those of its includes, then its
excludes. -/
theorem entriesOf_succ :
    entriesOf stage (depth + 1) inside address collection =
      if address ∈ inside then .error (.collectionCycle address)
      else
        collection.includes.mapM (includedEntries stage depth (address :: inside)
            (.included collection.expansionRule)) >>= fun included =>
          .ok (rootEntries collection ++ included.flatten ++ excludedEntries collection) :=
  rfl

/-- **Flattening succeeds** exactly if the collection is not entered again and each include can be
flattened. -/
theorem entriesOf_eq_ok_iff {entries : List (ScenePath × Rule)} :
    entriesOf stage (depth + 1) inside address collection = .ok entries ↔
      address ∉ inside ∧ ∃ parts,
        List.Forall₂
          (fun path part =>
            includedEntries stage depth (address :: inside)
              (.included collection.expansionRule) path = .ok part)
          collection.includes parts ∧
        rootEntries collection ++ parts.flatten ++ excludedEntries collection = entries := by
  rw [entriesOf_succ]
  by_cases hinside : address ∈ inside
  · simp [hinside]
  · rw [if_neg hinside, bind_eq_ok]
    simp only [mapM_eq_ok_iff, Except.ok.injEq, hinside, not_false_eq_true, true_and]

/-- A path with a collection at it addresses one. -/
theorem includedEntries_of_collectionAt? {rule : Rule} {nested : Collection}
    (hat : stage.collectionAt? path = some nested) :
    includedEntries stage depth inside rule path = entriesOf stage depth inside path nested := by
  have haddress : path.asCollection?.isNone = false := by
    cases hcollection : path.asCollection? with
    | none => simp [Stage.collectionAt?, hcollection] at hat
    | some target => rfl
  rw [includedEntries, haddress, hat]
  rfl

/-- A membership is what the collection is flattened into, from its own address on. -/
theorem compute_eq_ok_iff {owner : ScenePath} {rules : MemberRules} :
    compute stage owner collection = .ok rules ↔
      ∃ address, owner.collection collection.name = .ok address ∧
        entriesOf stage stage.nestingLimit [] address collection = .ok rules.entries := by
  rw [compute]
  cases owner.collection collection.name with
  | error cause => simp
  | ok address =>
      cases hentries : entriesOf stage stage.nestingLimit [] address collection with
      | error error => simp [hentries]
      | ok entries =>
          obtain ⟨others⟩ := rules
          simp [hentries]

/-! ## What is asked of a stage -/

variable {other : Stage}

/-- Flattening looks at the stage through the collections at addresses only. -/
theorem entriesOf_congr (hat : ∀ path, other.collectionAt? path = stage.collectionAt? path) :
    entriesOf other depth inside address collection =
      entriesOf stage depth inside address collection := by
  induction depth generalizing inside address collection with
  | zero => rfl
  | succ depth ih =>
      have hincluded : ∀ rule, includedEntries other depth (address :: inside) rule =
          includedEntries stage depth (address :: inside) rule := by
        intro rule
        funext path
        rw [includedEntries, includedEntries, hat]
        cases stage.collectionAt? path with
        | none => rfl
        | some nested => simp only [ih]
      rw [entriesOf_succ, entriesOf_succ, hincluded]

/-- **Stages with the same collections flatten alike.** -/
theorem compute_congr (hat : ∀ path, other.collectionAt? path = stage.collectionAt? path)
    (hlimit : other.nestingLimit = stage.nestingLimit) (owner : ScenePath) :
    compute other owner collection = compute stage owner collection := by
  unfold compute
  rw [hlimit]
  cases owner.collection collection.name with
  | error cause => rfl
  | ok address => simp only [entriesOf_congr hat]

end MemberRules

end MaterialBinding
