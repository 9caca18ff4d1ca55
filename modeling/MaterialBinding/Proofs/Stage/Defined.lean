import MaterialBinding.Proofs.Stage.Frame
import MaterialBinding.Proofs.Stage.Invariant
import MaterialBinding.Proofs.Stage.Table

/-!
# Defining prims

Defining a prim makes those that are missing on the way to it, and nothing else.  So after defining
several prims there are these, all above them, and those that there were (`Stage.GrowsBy`): each
definition is one step (`growsBy_definePrim`), and steps are put together by `GrowsBy.trans`.

In which order the prims are defined is seen only in the order of children
(`Reachable.definePrims_closure`).
-/

namespace MaterialBinding

/-- Defining a prim in a table adds names at most behind the children of what was there. -/
theorem Table.exists_definePrim_eq {table : Table} {path : ScenePath} {entry : Entry}
    (hentry : table path = some entry) (made : PrimPath) :
    ∃ more, table.definePrim made path =
      some { entry with children := entry.children ++ more } := by
  induction made with
  | root => exact ⟨[], by rw [definePrim, hentry, List.append_nil]⟩
  | child above name ih =>
      rw [definePrim]
      by_cases hthere : (table (.ofPrim (above.child name))).isSome = true
      · rw [if_pos hthere]
        exact ⟨[], by rw [hentry, List.append_nil]⟩
      · rw [if_neg hthere]
        obtain ⟨more, hmore⟩ := ih
        have hother : path ≠ .ofPrim (above.child name) := by
          rintro rfl
          rw [hentry] at hthere
          exact hthere rfl
        rw [insert, if_neg hother, modify]
        by_cases hplace : path = .ofPrim above
        · rw [if_pos hplace, ← hplace, hmore]
          exact ⟨more ++ [name], by rw [Option.map_some, Entry.addChild, List.append_assoc]⟩
        · rw [if_neg hplace]
          exact ⟨more, hmore⟩

namespace Stage

variable {stage middle after : Stage} {made more : List PrimPath}

/-- The second stage has the prims of the first one and those on the ways to the prims that were
made, and the new ones are bare. -/
structure GrowsBy (stage : Stage) (made : List PrimPath) (after : Stage) : Prop where
  hasPrim_iff : ∀ path, after.hasPrim path = true ↔
    stage.hasPrim path = true ∨ ∃ place ∈ made, (place : ScenePath).AtOrBelow path
  relationships_eq : ∀ path, stage.hasPrim path = true →
    after.relationships path = stage.relationships path
  collections_eq : ∀ path, stage.hasPrim path = true →
    after.collections path = stage.collections path
  /-- New children come behind those that were there. -/
  children_prefix : ∀ path, stage.hasPrim path = true →
    stage.children path <+: after.children path
  bare : ∀ path, stage.hasPrim path = false → after.hasPrim path = true →
    after.relationships path = [] ∧ after.collections path = []

/-- Without definitions the stage stays. -/
theorem GrowsBy.refl (stage : Stage) : stage.GrowsBy [] stage where
  hasPrim_iff := fun path => by simp
  relationships_eq := fun _ _ => rfl
  collections_eq := fun _ _ => rfl
  children_prefix := fun _ _ => List.prefix_rfl
  bare := fun path hnone hthere => by
    rw [hnone] at hthere
    cases hthere

/-- **One step after the other.** -/
theorem GrowsBy.trans (hfirst : stage.GrowsBy made middle) (hsecond : middle.GrowsBy more after) :
    stage.GrowsBy (made ++ more) after := by
  have hkept : ∀ path, stage.hasPrim path = true → middle.hasPrim path = true :=
    fun path hthere => (hfirst.hasPrim_iff path).mpr (Or.inl hthere)
  constructor
  · intro path
    rw [hsecond.hasPrim_iff, hfirst.hasPrim_iff, or_assoc]
    simp only [List.mem_append, or_and_right, exists_or]
  · intro path hthere
    rw [hsecond.relationships_eq path (hkept path hthere), hfirst.relationships_eq path hthere]
  · intro path hthere
    rw [hsecond.collections_eq path (hkept path hthere), hfirst.collections_eq path hthere]
  · intro path hthere
    have hbehind := hsecond.children_prefix path (hkept path hthere)
    exact (hfirst.children_prefix path hthere).trans hbehind
  · intro path hnone hthere
    cases hmiddle : middle.hasPrim path with
    | true =>
        rw [hsecond.relationships_eq path hmiddle, hsecond.collections_eq path hmiddle]
        exact hfirst.bare path hnone hmiddle
    | false => exact hsecond.bare path hmiddle hthere

/-- Only which prims are made counts. -/
theorem GrowsBy.of_perm (hperm : more.Perm made) (hgrows : stage.GrowsBy more after) :
    stage.GrowsBy made after :=
  { hgrows with
    hasPrim_iff := fun path => by
      rw [hgrows.hasPrim_iff]
      simp only [hperm.mem_iff] }

/-! ## One prim -/

/-- After a definition there are the prims that there were and those on the way to the new one. -/
theorem hasPrim_definePrim_iff (made : PrimPath) (path : ScenePath) :
    ((Edit.definePrim made).run stage).hasPrim path = true ↔
      stage.hasPrim path = true ∨ (made : ScenePath).AtOrBelow path := by
  rw [hasPrim_definePrim, Bool.or_eq_true, ScenePath.ofPrim_atOrBelow_iff]
  constructor
  · rintro (hthere | hmade)
    · exact Or.inl hthere
    · simp only [Bool.and_eq_true, Bool.not_eq_true', decide_eq_true_iff] at hmade
      obtain ⟨⟨_, hplain⟩, hmem⟩ := hmade
      exact Or.inr (Or.inr ⟨path.prim, hmem, ScenePath.eq_ofPrim hplain⟩)
  · rintro (hthere | rfl | ⟨above, hmem, rfl⟩)
    · exact Or.inl hthere
    · exact Or.inl rfl
    · right
      have hplain : ∀ place : PrimPath, (place : ScenePath).isProperty = false := fun _ => rfl
      rw [hplain, hplain]
      exact decide_eq_true hmem

/-- A definition adds children at most behind those that were there. -/
theorem children_prefix_definePrim {path : ScenePath} (hthere : stage.hasPrim path = true)
    (made : PrimPath) :
    stage.children path <+: ((Edit.definePrim made).run stage).children path := by
  rw [hasPrim_eq_isSome_table] at hthere
  obtain ⟨entry, hentry⟩ := Option.isSome_iff_exists.mp hthere
  obtain ⟨more, hmore⟩ := Table.exists_definePrim_eq hentry made
  have hafter : ((Edit.definePrim made).run stage).table path = some _ :=
    (congrFun (Siblings.table_define made stage.tree) path).trans hmore
  rw [children_eq_table, children_eq_table, hentry, hafter, Option.getD_some, Option.getD_some,
    List.map_append]
  exact List.prefix_append _ _

/-- **Defining a prim** is a step. -/
theorem growsBy_definePrim (stage : Stage) (made : PrimPath) :
    stage.GrowsBy [made] ((Edit.definePrim made).run stage) := by
  have hprim : ∀ path : ScenePath,
      ((Edit.definePrim made).run stage).prim path = stage.prim path := by
    intro path
    cases hplain : path.isProperty with
    | true => rw [prim, prim, node?, node?, if_pos hplain, if_pos hplain]
    | false =>
        rw [ScenePath.eq_ofPrim hplain]
        exact prim_definePrim made path.prim
  constructor
  · intro path
    rw [hasPrim_definePrim_iff]
    simp only [List.mem_singleton, exists_eq_left]
  · intro path _
    rw [relationships, relationships, hprim]
  · intro path _
    rw [collections, collections, hprim]
  · intro path hthere
    exact children_prefix_definePrim hthere made
  · intro path hnone _
    have hbare : stage.prim path = {} := by
      rw [hasPrim, Option.isSome_eq_false_iff, Option.isNone_iff_eq_none] at hnone
      rw [prim, hnone]
    rw [relationships, collections, hprim, hbare]
    exact ⟨rfl, rfl⟩

/-! ## Several prims -/

/-- Defines the prims one after the other. -/
def definePrims (stage : Stage) (paths : List PrimPath) : Except Error Stage :=
  paths.foldlM (fun stage (path : PrimPath) => stage.definePrim path) stage

/-- The calls that do so. -/
def definitions (paths : List PrimPath) : List Edit :=
  paths.map fun path : PrimPath => .definePrim path

/-- No definition is refused, and they are a part of a history. -/
theorem definePrims_eq_ok (stage : Stage) (paths : List PrimPath) :
    stage.definePrims paths =
      .ok ((definitions paths).foldl Edit.run stage) := by
  induction paths generalizing stage with
  | nil => rfl
  | cons path rest ih =>
      have hfirst : stage.definePrim path = .ok ((Edit.definePrim path).run stage) := rfl
      have hrest := ih ((Edit.definePrim path).run stage)
      rw [definePrims, List.foldlM_cons, hfirst]
      exact hrest

/-- **All steps together.** -/
theorem growsBy_definePrims (stage : Stage) (paths : List PrimPath) :
    stage.GrowsBy paths ((definitions paths).foldl Edit.run stage) := by
  induction paths generalizing stage with
  | nil => exact .refl stage
  | cons path rest ih =>
      have hfirst := growsBy_definePrim stage path
      have hrest := ih ((Edit.definePrim path).run stage)
      exact hfirst.trans hrest

/-- Defining what is there changes nothing. -/
theorem definePrim_of_hasPrim {path : ScenePath} (hthere : stage.hasPrim path = true) :
    stage.definePrim path = .ok stage := by
  obtain ⟨place, rfl, hplace⟩ := hasPrim_iff.mp hthere
  obtain ⟨node, hnode⟩ := Option.isSome_iff_exists.mp hplace
  have htree : stage.tree.define place = stage.tree := Siblings.define_eq_self hnode
  change Except.ok { stage with tree := stage.tree.define place } = _
  rw [htree]

/-- **Defining prims builds their closure upward**, in any order.  It succeeds, and makes the listed
prims and those above them, where they are missing.  In another order it makes the same prims, and
their children may come in another order.  Each definition is the one by recursion in the table, and
it does nothing if the prim is there. -/
theorem Reachable.definePrims_closure (hreach : Reachable stage) (paths : List PrimPath) :
    ∃ after, stage.definePrims paths = .ok after ∧ stage.GrowsBy paths after ∧
      (∀ order : List PrimPath, order.Perm paths →
        ∃ other, stage.definePrims order = .ok other ∧ stage.GrowsBy paths other ∧
          ∀ path, other.hasPrim path = after.hasPrim path ∧
            (other.children path).Perm (after.children path)) ∧
      (∀ made : PrimPath,
        (stage.definePrim made).map Stage.table = .ok (stage.table.definePrim made)) ∧
      ∀ path, stage.hasPrim path = true → stage.definePrim path = .ok stage := by
  have hwell : ∀ order : List PrimPath,
      ((definitions order).foldl Edit.run stage).tree.WellFormed :=
    fun order => (hreach.foldl (definitions order)).wellFormed
  have hgrows := growsBy_definePrims stage paths
  refine ⟨_, definePrims_eq_ok stage paths, hgrows, ?_, table_definePrim stage,
    fun path => definePrim_of_hasPrim⟩
  intro order hperm
  have hother := (growsBy_definePrims stage order).of_perm hperm
  have hsame : ∀ path, ((definitions order).foldl Edit.run stage).hasPrim path =
      ((definitions paths).foldl Edit.run stage).hasPrim path := by
    intro path
    rw [Bool.eq_iff_iff, hother.hasPrim_iff, hgrows.hasPrim_iff]
  refine ⟨_, definePrims_eq_ok stage order, hother, fun path => ⟨hsame path, ?_⟩⟩
  rw [List.perm_ext_iff_of_nodup (nodup_children (hwell order)) (nodup_children (hwell paths))]
  intro child
  rw [mem_children_iff, mem_children_iff, hsame]

/-- A farm with a gate, which holds something. -/
def farmHistory : List Edit :=
  let farm : PrimPath := .child .root ⟨"Farm", by decide⟩
  let gate : PrimPath := farm.child ⟨"Gate", by decide⟩
  [.definePrim gate, .createRelationship gate "opens" [farm]]

/-- A loft is defined with the barn that it is in, before a pond or after it.  Both times there are
the same prims in the end, and the farm has its children in the order in which they came. -/
theorem farmHistory_grows :
    let farm : PrimPath := .child .root ⟨"Farm", by decide⟩
    let barn : PrimPath := farm.child ⟨"Barn", by decide⟩
    let loft : PrimPath := barn.child ⟨"Loft", by decide⟩
    let pond : PrimPath := farm.child ⟨"Pond", by decide⟩
    let gate : PrimPath := farm.child ⟨"Gate", by decide⟩
    let before := farmHistory.foldl Edit.run {}
    ∃ after other, before.definePrims [loft, pond, barn] = .ok after ∧
      before.GrowsBy [loft, pond, barn] after ∧ after.children farm = [gate, barn, pond] ∧
      before.definePrims [pond, barn, loft] = .ok other ∧
      before.GrowsBy [loft, pond, barn] other ∧ other.children farm = [gate, pond, barn] := by
  intro farm barn loft pond gate before
  have hreach : Reachable before := Reachable.new.foldl farmHistory
  obtain ⟨after, hafter, hgrows, horder, _⟩ := hreach.definePrims_closure [loft, pond, barn]
  have hperm : [pond, barn, loft].Perm [loft, pond, barn] := by decide
  obtain ⟨other, hother, hgrows', _⟩ := horder [pond, barn, loft] hperm
  refine ⟨after, other, hafter, hgrows, ?_, hother, hgrows', ?_⟩
  · obtain rfl := Except.ok.inj ((definePrims_eq_ok before _).symm.trans hafter)
    decide
  · obtain rfl := Except.ok.inj ((definePrims_eq_ok before _).symm.trans hother)
    decide

end Stage

end MaterialBinding
