import MaterialBinding.Proofs.Stage.Table
import MaterialBinding.Proofs.Stage.Traversal

/-!
# Removing a prim

Removing a prim takes it out with everything below it, and nothing else (`Stage.CutsOff`).  What is
left is asked for in the table (`Stage.table_removePrim`), and the order in which it is listed comes
from the recursion over the children: where a path is dropped, all below it are dropped too
(`Preorder.filter`).
-/

namespace MaterialBinding

namespace ScenePath

variable {path above cut : ScenePath}

/-- A child of a prim that is not at or below another one is so itself only if it is that one. -/
theorem atOrBelow_iff_eq (hparent : path.parent = some above) (hapart : ¬ above.AtOrBelow cut) :
    path.AtOrBelow cut ↔ path = cut := by
  rw [atOrBelow_iff_eq_or_parent, hparent]
  constructor
  · rintro (heq | ⟨next, hnext, hbelow⟩)
    · exact heq
    · obtain rfl := Option.some.inj hnext
      exact absurd hbelow hapart
  · exact Or.inl

/-- A prim is not below its child. -/
theorem not_atOrBelow_child {place : PrimPath} {name : PrimName} :
    ¬ (ofPrim place).AtOrBelow (ofPrim (place.child name)) := by
  rw [atOrBelow_ofPrim_iff PrimPath.child_ne_root]
  exact PrimPath.child_not_mem_ancestors

end ScenePath

namespace Stage

variable {stage after : Stage} {cut path : ScenePath}

/-! ## Listing what is left -/

/-- If the children that are dropped are missing, and all children of dropped paths are dropped, the
recursion lists the paths that are left as before. -/
theorem Preorder.filter (keep : PrimPath → Bool) {paths listed : List PrimPath}
    (hkept : ∀ place : PrimPath, keep place = true →
      after.children place = (stage.children place).filter keep)
    (hdropped : ∀ place : PrimPath, keep place = false →
      ∀ child ∈ stage.children place, keep child = false)
    (hpreorder : stage.Preorder paths listed) :
    after.Preorder (paths.filter keep) (listed.filter keep) := by
  induction hpreorder with
  | nil => exact .nil
  | @cons path rest below behind _ _ ihbelow ihafter =>
      rw [List.filter_cons, List.filter_cons, List.filter_append]
      cases hkeep : keep path with
      | true =>
          rw [← hkept path hkeep] at ihbelow
          exact .cons ihbelow ihafter
      | false =>
          have hnone : (stage.children path).filter keep = [] := by
            rw [List.filter_eq_nil_iff]
            intro child hchild
            rw [hdropped path hkeep child hchild]
            nofun
          rw [hnone] at ihbelow
          have hbelow : below.filter keep = [] := ihbelow.unique .nil
          rw [hbelow]
          exact ihafter

/-! ## What is left -/

/-- The second stage is what is left of the first one without the prim at `cut` and those below
it. -/
structure CutsOff (stage : Stage) (cut : ScenePath) (after : Stage) : Prop where
  hasPrim_iff : ∀ path,
    after.hasPrim path = true ↔ stage.hasPrim path = true ∧ ¬ path.AtOrBelow cut
  /-- The prims that are left are listed in the order in which they were listed. -/
  traverse_eq : after.traverse =
    stage.traverse.filter fun place : PrimPath => decide (¬ (place : ScenePath).AtOrBelow cut)
  relationships_eq : ∀ path, after.hasPrim path = true →
    after.relationships path = stage.relationships path
  collections_eq : ∀ path, after.hasPrim path = true →
    after.collections path = stage.collections path
  children_eq : ∀ path, after.hasPrim path = true → cut.parent ≠ some path →
    after.children path = stage.children path
  /-- The prim above loses one child. -/
  children_above : ∀ above, cut.parent = some above →
    ∃ before behind, stage.children above = before ++ cut.prim :: behind ∧
      after.children above = before ++ behind

/-- The stage without the child of that name of the prim at `above`. -/
def cutOff (stage : Stage) (above : PrimPath) (name : PrimName) : Stage :=
  { stage with tree := stage.tree.editAt above (Siblings.erase name) }

variable {above place : PrimPath} {name : PrimName}

/-- **The entries that are left.** -/
theorem table_cutOff (path : ScenePath) :
    (stage.cutOff above name).table path =
      if path.AtOrBelow (.ofPrim (above.child name)) then none
      else if path = .ofPrim above then (stage.table path).map (·.dropChild name.text)
      else stage.table path := by
  have habove : ¬ (above : ScenePath).AtOrBelow (.ofPrim (above.child name)) :=
    ScenePath.not_atOrBelow_child
  have hkeep : ∀ path : ScenePath, (!path.hasPrefix (.ofPrim (above.child name))) =
      decide (¬ path.AtOrBelow (.ofPrim (above.child name))) := by
    intro path
    rw [decide_not, Bool.not_inj_iff, Bool.eq_iff_iff, decide_eq_true_iff,
      ScenePath.hasPrefix_iff_atOrBelow]
  rw [table, cutOff, Siblings.table_erase]
  simp only [Table.modify, Table.retain, hkeep]
  by_cases hplace : path = .ofPrim above
  · subst hplace
    rw [if_pos rfl, if_neg habove, if_pos rfl, if_pos (decide_eq_true habove)]
    rfl
  · rw [if_neg hplace, if_neg hplace]
    by_cases hbelow : path.AtOrBelow (.ofPrim (above.child name))
    · rw [if_pos hbelow, if_neg (by simpa using hbelow)]
    · rw [if_neg hbelow, if_pos (decide_eq_true hbelow)]
      rfl

/-- After cutting off a prim there are the prims that are not at or below it. -/
theorem hasPrim_cutOff_iff (path : ScenePath) :
    (stage.cutOff above name).hasPrim path = true ↔
      stage.hasPrim path = true ∧ ¬ path.AtOrBelow (.ofPrim (above.child name)) := by
  rw [hasPrim_eq_isSome_table, hasPrim_eq_isSome_table, table_cutOff]
  by_cases hbelow : path.AtOrBelow (.ofPrim (above.child name))
  · simp [hbelow]
  · rw [if_neg hbelow]
    split <;> simp [hbelow]

/-- What is left holds what it held. -/
theorem prim_cutOff (hapart : ¬ path.AtOrBelow (.ofPrim (above.child name))) :
    (stage.cutOff above name).prim path = stage.prim path := by
  rw [prim_eq_table, prim_eq_table, table_cutOff, if_neg hapart]
  split
  · cases stage.table path <;> rfl
  · rfl

/-- What is left has the children that it had, but for the one that was cut off. -/
theorem children_cutOff (hapart : ¬ (place : ScenePath).AtOrBelow (.ofPrim (above.child name))) :
    (stage.cutOff above name).children place =
      (stage.children place).filter fun child => decide (child ≠ above.child name) := by
  rw [children_ofPrim_eq_table, children_ofPrim_eq_table, table_cutOff, if_neg hapart,
    List.filter_map]
  by_cases hplace : place = above
  · subst hplace
    rw [if_pos rfl]
    cases stage.table place with
    | none => rfl
    | some entry => simp [Entry.dropChild, Function.comp_def, PrimName.text_inj]
  · have hother : (place : ScenePath) ≠ .ofPrim above :=
      fun heq => hplace (ScenePath.ofPrim_inj.mp heq)
    rw [if_neg hother]
    have hall : ∀ names : List PrimName,
        names.filter ((fun child => decide (child ≠ above.child name)) ∘ place.child) = names := by
      intro names
      rw [List.filter_eq_self]
      intro other _
      simp [hplace]
    rw [hall]

/-- Of the children of a place that is left, just the one that was cut off is dropped. -/
theorem children_cutOff_eq_filter
    (hapart : ¬ (place : ScenePath).AtOrBelow (.ofPrim (above.child name))) :
    (stage.cutOff above name).children place = (stage.children place).filter fun child : PrimPath =>
      decide (¬ (child : ScenePath).AtOrBelow (.ofPrim (above.child name))) := by
  rw [children_cutOff hapart]
  refine List.filter_congr fun child hchild => decide_eq_decide.mpr (not_congr ?_)
  rw [ScenePath.atOrBelow_iff_eq (child_below hchild).2 hapart, ScenePath.ofPrim_inj]

/-- **Cutting off a prim** leaves all that is not at or below it, in its order. -/
theorem cutsOff_cutOff (hwell : stage.tree.WellFormed)
    (hthere : stage.hasPrim (above.child name) = true) :
    stage.CutsOff (above.child name) (stage.cutOff above name) where
  hasPrim_iff := hasPrim_cutOff_iff
  traverse_eq := by
    have hafter : (stage.cutOff above name).tree.WellFormed := hwell.editAt fun _ hc => hc.erase
    have hroot : ¬ (PrimPath.root : ScenePath).AtOrBelow (.ofPrim (above.child name)) := by
      intro hbelow
      rcases ScenePath.atOrBelow_iff_eq_or_parent.mp hbelow with heq | ⟨_, hparent, _⟩
      · cases heq
      · cases hparent
    have hchildren : (stage.cutOff above name).children (.ofPrim .root) = _ :=
      children_cutOff_eq_filter hroot
    rw [eq_comm, ← preorder_iff_eq_traverse hafter, ScenePath.root, hchildren]
    refine Preorder.filter _ (fun place hkeep => ?_) (fun place hdrop child hchild => ?_)
      ((preorder_iff_eq_traverse hwell).mpr rfl)
    · exact children_cutOff_eq_filter (of_decide_eq_true hkeep)
    · have hbelow : (place : ScenePath).AtOrBelow (.ofPrim (above.child name)) := by
        simpa using hdrop
      have hchild : (child : ScenePath).AtOrBelow (.ofPrim (above.child name)) :=
        ScenePath.atOrBelow_iff_eq_or_parent.mpr (Or.inr ⟨_, (child_below hchild).2, hbelow⟩)
      simpa using hchild
  relationships_eq := fun path hleft => by
    have hapart := ((hasPrim_cutOff_iff path).mp hleft).2
    rw [relationships, relationships, prim_cutOff hapart]
  collections_eq := fun path hleft => by
    have hapart := ((hasPrim_cutOff_iff path).mp hleft).2
    rw [collections, collections, prim_cutOff hapart]
  children_eq := fun path hleft hparent => by
    have hapart := ((hasPrim_cutOff_iff path).mp hleft).2
    have hother : path ≠ .ofPrim above := fun heq => hparent (congrArg some heq.symm)
    rw [children_eq_table, children_eq_table, table_cutOff, if_neg hapart, if_neg hother]
  children_above := by
    intro parent hparent
    obtain rfl := Option.some.inj hparent
    obtain ⟨before, behind, _, hsplit, herase⟩ :=
      List.exists_erase_eq (mem_children_of_hasPrim hthere)
    refine ⟨before, behind, hsplit, ?_⟩
    rw [children_cutOff ScenePath.not_atOrBelow_child, ← herase,
      (nodup_children hwell).erase_eq_filter]
    refine List.filter_congr fun child _ => ?_
    by_cases hchild : child = above.child name <;> simp [hchild]

/-- **What removing does**: nothing, if there is no prim but perhaps the root, and else the prim is
cut off. -/
theorem removePrim_cases (stage : Stage) (cut : ScenePath) :
    ((stage.hasPrim cut = false ∨ cut = .root) ∧ stage.removePrim cut = (false, stage)) ∨
      ∃ above name, cut = .ofPrim (.child above name) ∧ stage.hasPrim cut = true ∧
        stage.removePrim cut = (true, stage.cutOff above name) := by
  obtain ⟨prim, property, hbare⟩ := cut
  cases prim with
  | root =>
      obtain rfl : property = none := hbare rfl
      exact Or.inl ⟨Or.inr rfl, rfl⟩
  | child above name =>
      cases property with
      | some property => exact Or.inl ⟨Or.inl rfl, rfl⟩
      | none =>
          cases hthere : stage.hasPrim ⟨above.child name, none, hbare⟩ with
          | false => exact Or.inl ⟨Or.inl rfl, if_neg (by rw [hthere]; nofun)⟩
          | true => exact Or.inr ⟨above, name, rfl, rfl, if_pos hthere⟩

/-- **Removing a prim deletes one subtree.**  It says that it does so exactly if there is a prim at
the path and the path is not that of the root.  Then the prim is cut off with all below it, and
otherwise the stage is as it was.  What begins a path is what the path is at or below, so dropping
from the table the paths that the removed one begins gives the same stage. -/
theorem Reachable.removePrim_cutsOff (hreach : Reachable stage) (cut : ScenePath) :
    ((stage.removePrim cut).1 = true ↔ stage.hasPrim cut = true ∧ cut ≠ .root) ∧
    ((stage.removePrim cut).1 = true → stage.CutsOff cut (stage.removePrim cut).2) ∧
    ((stage.removePrim cut).1 = false → (stage.removePrim cut).2 = stage) ∧
    (∀ path : ScenePath, path.hasPrefix cut = true ↔ path.AtOrBelow cut) ∧
    (stage.removePrim cut).map id Stage.table = stage.table.removePrim cut := by
  have hbegins : ∀ path : ScenePath, path.hasPrefix cut = true ↔ path.AtOrBelow cut :=
    fun _ => ScenePath.hasPrefix_iff_atOrBelow
  have htable := table_removePrim stage cut
  rcases removePrim_cases stage cut with ⟨hnone, hremove⟩ | ⟨above, name, rfl, hthere, hremove⟩
  · rw [hremove] at htable ⊢
    refine ⟨⟨nofun, fun hboth => ?_⟩, nofun, fun _ => rfl, hbegins, htable⟩
    rcases hnone with hmissing | hroot
    · rw [hmissing] at hboth
      cases hboth.1
    · exact absurd hroot hboth.2
  · rw [hremove] at htable ⊢
    have hcut := cutsOff_cutOff hreach.wellFormed hthere
    exact ⟨⟨fun _ => ⟨hthere, nofun⟩, fun _ => rfl⟩, fun _ => hcut, nofun, hbegins, htable⟩

/-- A nest with an egg, and with things beside it whose names go on from that of the egg. -/
def nestHistory : List Edit :=
  let nest : PrimPath := .child .root ⟨"Nest", by decide⟩
  let egg : PrimPath := nest.child ⟨"Egg", by decide⟩
  let eggs : PrimPath := nest.child ⟨"Eggs", by decide⟩
  [.definePrim (egg.child ⟨"Yolk", by decide⟩), .definePrim eggs,
    .definePrim (nest.child ⟨"Egg-1", by decide⟩), .createRelationship eggs "beside" [egg]]

/-- Without the egg its yolk is gone, and nothing else. -/
theorem nestHistory_without_egg :
    let egg : PrimPath := (PrimPath.root.child ⟨"Nest", by decide⟩).child ⟨"Egg", by decide⟩
    let before := nestHistory.foldl Edit.run {}
    before.traverse.map PrimPath.text =
      ["/Nest", "/Nest/Egg", "/Nest/Egg/Yolk", "/Nest/Eggs", "/Nest/Egg-1"] ∧
    (before.removePrim egg).1 = true ∧ before.CutsOff egg (before.removePrim egg).2 ∧
    (before.removePrim egg).2.traverse.map PrimPath.text =
      ["/Nest", "/Nest/Eggs", "/Nest/Egg-1"] := by
  intro egg before
  have hreach : Reachable before := Reachable.new.foldl nestHistory
  obtain ⟨hiff, hcut, _⟩ := hreach.removePrim_cutsOff egg
  have hremoved : (before.removePrim egg).1 = true := hiff.mpr ⟨by decide, by decide⟩
  refine ⟨?_, hremoved, hcut hremoved, ?_⟩
  · rw [traverse_eq_paths]
    decide
  · rw [(hcut hremoved).traverse_eq, traverse_eq_paths]
    decide

end Stage

end MaterialBinding
