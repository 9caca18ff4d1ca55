import MaterialBinding.Proofs.Path.Ancestors
import MaterialBinding.Proofs.Path.Cuts

/-!
# The order of paths

A path is at or below the paths that begin it.  This orders all paths, since going up shortens the
text (`isPartialOrder_hasPrefix`).  Each path has one parent at most, so of two paths that begin a
third one the shorter begins the longer one (`hasPrefix_total`).

The prims among the paths that begin a path, without the root, are its ancestors
(`mem_ancestors_iff`).  They are met on the way up, so the texts get shorter
(`ancestors_shorten`).
-/

namespace MaterialBinding.ScenePath

variable {path lead one other : ScenePath}

/-- Each path begins itself. -/
theorem hasPrefix_refl (path : ScenePath) : path.hasPrefix path = true :=
  hasPrefix_iff_mem_upward.mpr self_mem_upward

/-- What begins a beginning begins the path. -/
theorem hasPrefix_trans (hlead : path.hasPrefix lead = true)
    (hother : lead.hasPrefix other = true) :
    path.hasPrefix other = true := by
  rw [hasPrefix_iff_atOrBelow] at hlead hother ⊢
  exact Relation.ReflTransGen.trans hlead hother

/-- Neither of two paths that begin each other is the shorter one. -/
theorem hasPrefix_antisymm (hlead : path.hasPrefix lead = true)
    (hpath : lead.hasPrefix path = true) : path = lead := by
  rcases eq_or_length_lt_of_hasPrefix hlead with heq | hshorter
  · exact heq.symm
  · rcases eq_or_length_lt_of_hasPrefix hpath with heq | hlonger
    · exact heq
    · omega

/-- **Paths are ordered by what begins them.** -/
theorem isPartialOrder_hasPrefix :
    IsPartialOrder ScenePath fun path lead => path.hasPrefix lead = true where
  refl := hasPrefix_refl
  trans := fun _ _ _ => hasPrefix_trans
  antisymm := fun _ _ => hasPrefix_antisymm

/-- The paths that begin a path are a chain, as each step up leads to one path. -/
theorem hasPrefix_total (hone : path.hasPrefix one = true) (hother : path.hasPrefix other = true) :
    one.hasPrefix other = true ∨ other.hasPrefix one = true := by
  have hunique : Relator.RightUnique fun below above : ScenePath => below.parent = some above := by
    intro below above above' habove habove'
    exact Option.some.inj (habove.symm.trans habove')
  rw [hasPrefix_iff_atOrBelow] at hone hother
  rw [hasPrefix_iff_atOrBelow, hasPrefix_iff_atOrBelow]
  exact Relation.ReflTransGen.total_of_right_unique hunique hone hother

/-! ## Ancestors -/

/-- **The ancestors of a path** are the prims that begin it, without the root. -/
theorem mem_ancestors_iff :
    lead ∈ path.ancestors.map ofPrim ↔
      path.hasPrefix lead = true ∧ lead ≠ .root ∧ lead.isProperty = false := by
  rw [hasPrefix_iff_mem_upward, mem_upward_iff, List.mem_map]
  constructor
  · intro hancestor
    obtain ⟨above, hmem, rfl⟩ := hancestor
    refine ⟨Or.inr (Or.inr ⟨above, hmem, rfl⟩), ?_, rfl⟩
    intro hroot
    have habove : above = .root := ofPrim_inj.mp hroot
    exact PrimPath.root_not_mem_ancestors (habove ▸ hmem)
  · intro hbegins
    obtain ⟨rfl | hroot | ⟨above, hmem, rfl⟩, hne, hplain⟩ := hbegins
    · have hself : lead = ofPrim lead.prim := eq_ofPrim hplain
      rw [hself] at hne
      refine ⟨lead.prim, ?_, hself.symm⟩
      rw [ancestors]
      cases hprim : lead.prim with
      | root => exact absurd (congrArg ofPrim hprim) hne
      | child above name => exact List.mem_cons_self ..
    · exact absurd hroot hne
    · exact ⟨above, hmem, rfl⟩

/-- On the way up the texts get shorter. -/
theorem ancestors_shorten (prim : PrimPath) :
    (prim.ancestors.map ofPrim).Pairwise fun below above =>
      above.chars.length < below.chars.length := by
  induction prim with
  | root => exact List.Pairwise.nil
  | child above name ih =>
      rw [PrimPath.ancestors, List.map_cons, List.pairwise_cons]
      refine ⟨fun lead hmem => ?_, ih⟩
      have hupward : lead ∈ (ofPrim above).upward := List.mem_append_left [root] hmem
      have hle := length_chars_le_of_mem_upward hupward
      have hlt : (ofPrim above).chars.length < (ofPrim (above.child name)).chars.length :=
        length_chars_parent_lt rfl
      omega

/-- **The three ways of going up agree.**  What begins a path is what is reached by going up from
it, by no step or by several.  So this is an order, and the paths that begin one path are a chain.
The iteration gives one ancestor after the other, and then nothing: just the prims that begin the
path, without the root, each of them once and the longest first.  All this is found in the text,
where a step up is a cut at the dot or at the last slash. -/
theorem hasPrefix_agrees_with_ancestors (path : ScenePath) :
    (∀ other : ScenePath, PathText.Describes other.chars other) ∧
    (∀ lead, path.hasPrefix lead = true ↔ path.AtOrBelow lead) ∧
    (IsPartialOrder ScenePath fun path lead => path.hasPrefix lead = true) ∧
    (∀ one other, path.hasPrefix one = true → path.hasPrefix other = true →
      one.hasPrefix other = true ∨ other.hasPrefix one = true) ∧
    (∀ n, PathText.ancestor? path.chars n = ((path.ancestors.map ofPrim)[n]?).map chars) ∧
    (∀ lead, lead ∈ path.ancestors.map ofPrim ↔
      path.hasPrefix lead = true ∧ lead ≠ .root ∧ lead.isProperty = false) ∧
    (path.ancestors.map ofPrim).Nodup ∧
    (path.ancestors.map ofPrim).Pairwise fun below above =>
      above.chars.length < below.chars.length := by
  have hshorten := ancestors_shorten path.prim
  have hnodup : (path.ancestors.map ofPrim).Nodup := by
    refine hshorten.imp fun {below above} hlt heq => ?_
    rw [heq] at hlt
    exact Nat.lt_irrefl _ hlt
  refine ⟨PathText.describes_chars, fun lead => hasPrefix_iff_atOrBelow,
    isPartialOrder_hasPrefix, fun one other => hasPrefix_total, fun n => ?_,
    fun lead => mem_ancestors_iff, hnodup, hshorten⟩
  rw [List.getElem?_map]
  exact (path.ancestor_eq_text n).symm

/-- The way up from a property leads over its prim; names that go on are no way up. -/
example :
    let pens : ScenePath := .ofProperty .root ⟨"Desk", by decide⟩ ⟨"collection:Pens", by decide⟩
    let desks : ScenePath := .ofPrim (.child .root ⟨"Desks", by decide⟩)
    PathText.ancestor? pens.chars 0 = some "/Desk".toList ∧
      PathText.ancestor? pens.chars 1 = none ∧
      PathText.hasPrefix desks.chars "/Desk".toList = false := by
  decide

end MaterialBinding.ScenePath
