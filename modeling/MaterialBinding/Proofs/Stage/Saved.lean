import MaterialBinding.Proofs.Description.Printed
import MaterialBinding.Proofs.Description.Rebuild

/-!
# Which saved stages can be opened again

A stage is saved as a page of JSON, and nothing limits how deep its prims go.  A page is only read
if no more than `nestingLimit` brackets are open at once.  `Stage.nesting` says how many there are
on the page of a stage.

`ofJson_toJson` decides every case: a page within the limit gives the stage that is built from the
description of the saved one, and any other page is refused as a whole.  A bare prim can stand 63
levels deep (`column_readable_iff`), and a stage with a deeper one is saved but never opened again.
-/

namespace MaterialBinding

open Json

/-- The metadata of what is described ascends by key. -/
theorem Siblings.arranged_of_describe (tree : Siblings) : tree.describe.Arranged := by
  induction tree with
  | nil => exact trivial
  | cons name prim children rest ihchildren ihrest =>
      refine ⟨?_, ihchildren, ihrest⟩
      intro described hmem
      obtain ⟨relationship, _, rfl⟩ := List.mem_map.mp hmem
      exact ascending_sortByKey _

namespace Stage

variable {stage : Stage}

/-- The number of brackets that are open at once on the page of the stage. -/
def nesting (stage : Stage) : Nat := 1 + stage.tree.describe.nesting

/-- **Save, then open.** -/
theorem ofJson_toJson (hwell : stage.tree.WellFormed) :
    ofJson stage.toJson =
      if stage.nesting ≤ Json.nestingLimit then .ok stage.rebuilt
      else .error (.json .malformed) := by
  have hpage := Description.readText_page (Siblings.arranged_of_describe stage.tree)
  rw [ofJson, toJson, hpage, nesting]
  by_cases hfits : 1 + stage.tree.describe.nesting ≤ Json.nestingLimit
  · rw [if_pos hfits, if_pos hfits]
    exact ofDescription_describe hwell
  · rw [if_neg hfits, if_neg hfits]

/-- **Exactly the stages within the limit can be opened again** after they were saved.  The page of
any other stage counts as malformed. -/
theorem Reachable.reopened_iff (hreach : Reachable stage) :
    ((∃ reopened, ofJson stage.toJson = .ok reopened) ↔ stage.nesting ≤ Json.nestingLimit) ∧
      (Json.nestingLimit < stage.nesting → ofJson stage.toJson = .error (.json .malformed)) := by
  have hpage := ofJson_toJson hreach.wellFormed
  by_cases hfits : stage.nesting ≤ Json.nestingLimit
  · rw [if_pos hfits] at hpage
    exact ⟨⟨fun _ => hfits, fun _ => ⟨_, hpage⟩⟩, fun hover => absurd hfits (by omega)⟩
  · rw [if_neg hfits] at hpage
    refine ⟨⟨?_, fun h => absurd h hfits⟩, fun _ => hpage⟩
    intro hexists
    obtain ⟨reopened, hopen⟩ := hexists
    rw [hpage] at hopen
    cases hopen

end Stage

/-! ## Prims in a column -/

/-- The path that goes down by one name so many times. -/
def PrimPath.column (name : PrimName) : Nat → PrimPath
  | 0 => root
  | n + 1 => child (column name n) name

namespace Siblings

/-- So many bare prims, each the only child of the one before, above a tree. -/
def column (name : PrimName) : Nat → Siblings → Siblings
  | 0, tree => tree
  | n + 1, tree => column name n (cons name {} tree nil)

/-- A change at the foot of a column is a change of what stands there. -/
theorem editAt_column (name : PrimName) (n : Nat) (f : Siblings → Siblings) (tree : Siblings) :
    (column name n tree).editAt (.column name n) f = column name n (f tree) := by
  induction n generalizing f tree with
  | zero => rfl
  | succ n ih =>
      rw [PrimPath.column, editAt, column, ih, modify, if_pos rfl]
      rfl

/-- Defining a prim in an empty tree makes the column that leads to it. -/
theorem define_column (name : PrimName) (n : Nat) :
    define (.column name n) nil = column name n nil := by
  induction n with
  | zero => rfl
  | succ n ih => rw [PrimPath.column, define, ih, editAt_column, column, insert]

/-- Each prim of a column takes two brackets. -/
theorem nesting_column (name : PrimName) (n : Nat) (tree : Siblings) :
    (column name n tree).describe.nesting = 2 * n + tree.describe.nesting := by
  induction n generalizing tree with
  | zero => rw [column, Nat.mul_zero, Nat.zero_add]
  | succ n ih =>
      have hbare : (cons name {} tree nil).describe.nesting = 2 + tree.describe.nesting := by
        simp [describe, Description.nesting, PrimDescription.nesting, deepest]
      rw [column, ih, hbare]
      omega

end Siblings

namespace Stage

/-- An empty stage on which one prim was defined so many levels deep. -/
def column (name : PrimName) (n : Nat) : Stage :=
  (Edit.definePrim (PrimPath.column name n)).run {}

variable (name : PrimName)

/-- A column is made by one definition. -/
theorem reachable_column (n : Nat) : Reachable (column name n) := Reachable.new.edited _

/-- A column of prims is written with two brackets for each, and one around all. -/
theorem nesting_of_column (n : Nat) : (column name n).nesting = 2 * n + 1 := by
  have htree : (column name n).tree = Siblings.column name n .nil := Siblings.define_column name n
  have hnil : Siblings.nil.describe.nesting = 0 := rfl
  rw [nesting, htree, Siblings.nesting_column, hnil]
  omega

/-- The deepest bare prim that can be opened again. -/
theorem column_readable_iff (n : Nat) :
    (∃ reopened, ofJson (column name n).toJson = .ok reopened) ↔ n ≤ 63 := by
  have hpage := ofJson_toJson (reachable_column name n).wellFormed
  rw [nesting_of_column, Json.nestingLimit] at hpage
  rw [hpage]
  split
  · exact ⟨fun _ => by omega, fun _ => ⟨_, rfl⟩⟩
  · refine ⟨?_, fun _ => by omega⟩
    intro hexists
    obtain ⟨reopened, hopen⟩ := hexists
    cases hopen

/-- One level more than fits. -/
theorem column_reopened :
    (∃ reopened, ofJson (column ⟨"a", by decide⟩ 63).toJson = .ok reopened) ∧
      ofJson (column ⟨"a", by decide⟩ 64).toJson = .error (.json .malformed) := by
  obtain ⟨hreopened, _⟩ := Reachable.reopened_iff (reachable_column ⟨"a", by decide⟩ 63)
  obtain ⟨_, hrefused⟩ := Reachable.reopened_iff (reachable_column ⟨"a", by decide⟩ 64)
  rw [nesting_of_column] at hreopened hrefused
  exact ⟨hreopened.mpr (by decide), hrefused (by decide)⟩

/-- Not every saved stage can be opened again. -/
theorem exists_unreadable : ¬ ∀ stage, Reachable stage →
    ∃ reopened, ofJson stage.toJson = .ok reopened := by
  intro hall
  have hreopened := hall _ (reachable_column ⟨"a", by decide⟩ 64)
  have hdepth := (column_readable_iff ⟨"a", by decide⟩ 64).mp hreopened
  omega

end Stage

end MaterialBinding
